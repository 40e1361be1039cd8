import LineShell.Toml.Reader
/-!
What separates the parts of a TOML source: spaces, the ends of lines, and comments.
-/

namespace LineShell.Toml.Reader

def isSpace (c : Char) : Bool :=
  c == ' ' || c == '\t'

/-- Whether a character may stand where any text may: a tab, or any that controls nothing. -/
def isPlain (c : Char) : Bool :=
  c == '\t' || (0x20 ≤ c.toNat && c.toNat != 0x7F)

def spaces : Reader Unit :=
  discard <| takeWhile isSpace

/-- Take the end of a line, if it is here. -/
def newline? : Reader Bool := do
  if ← text? "\n" then return true
  text? "\r\n"

/-- Take a comment up to the end of its line, if one is here. -/
def comment? : Reader Bool := do
  match ← char? (· == '#') with
  | some _ =>
    discard <| takeWhile isPlain
    return true
  | none => return false

/-- Take all that may follow on a line, and its end. -/
def endOfLine : Reader Unit := do
  spaces
  discard comment?
  if ← newline? then return
  require (← rest).isEmpty

def gap : Reader Unit :=
  discard <| many do
    if !(← takeWhile isSpace).isEmpty then return some ()
    if ← comment? then
      require (← newline?)
      return some ()
    if ← newline? then return some ()
    return none

end LineShell.Toml.Reader
