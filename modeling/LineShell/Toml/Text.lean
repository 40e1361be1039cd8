import LineShell.Toml.Blank
/-!
TOML strings: basic ones with escapes and literal ones without, on one line or on several.
-/

namespace LineShell.Toml.Reader

def hexValue? (c : Char) : Option Nat :=
  if c.isDigit then some (c.toNat - '0'.toNat)
  else if 'a' ≤ c ∧ c ≤ 'f' then some (c.toNat - 'a'.toNat + 10)
  else if 'A' ≤ c ∧ c ≤ 'F' then some (c.toNat - 'A'.toNat + 10)
  else none

/-- Take hexadecimal digits, as many as given, after a value read so far. -/
def hexDigits : Nat → Nat → Reader Nat
  | 0, value => return value
  | count + 1, value => do
    match hexValue? (← char fun _ => true) with
    | some digit => hexDigits count (16 * value + digit)
    | none => failure

/-- Take a character given by its code point in hexadecimal digits. -/
def codePoint (count : Nat) : Reader Char := do
  let value ← hexDigits count 0
  require (decide value.isValidChar)
  return Char.ofNat value

def escaped : Reader Char := do
  match ← char fun _ => true with
  | 'b' => return '\x08'
  | 't' => return '\t'
  | 'n' => return '\n'
  | 'f' => return '\x0c'
  | 'r' => return '\r'
  | '"' => return '"'
  | '\\' => return '\\'
  | 'u' => codePoint 4
  | 'U' => codePoint 8
  | _ => failure

/-- Take a part of a string on one line, unless its closing quote is here. -/
def linePart (quote : Char) : Reader (Option (List Char)) := do
  let c ← char isPlain
  if c = quote then return none
  if c = '\\' ∧ quote = '"' then return some [← escaped]
  return some [c]

/-- After the backslash at the end of a line: take all blanks up to the next text, if only blanks
are left on the line. -/
def lineJoin? : Reader Bool := do
  let place ← get
  spaces
  if ← newline? then
    discard <| many do
      if !(← takeWhile isSpace).isEmpty then return some ()
      if ← newline? then return some ()
      return none
    return true
  else
    set place
    return false

/-- Take a part of a string on several lines, and tell whether that was the last one. The quotes
in it come alone or in pairs, also right before the three that close it. -/
def linesPart (quote : Char) : Reader (List Char × Bool) := do
  let quotes := (← rest).takeWhile (· == quote)
  if 3 ≤ quotes.length then
    let taken := quotes.take 5
    discard <| text? (String.ofList taken)
    return (taken.drop 3, true)
  if ← newline? then return (['\n'], false)
  let c ← char isPlain
  if c = '\\' ∧ quote = '"' then
    if ← lineJoin? then return ([], false)
    return ([← escaped], false)
  return ([c], false)

/-- Take the parts of a string on several lines up to its end. -/
def linesParts (quote : Char) : Nat → Reader (List Char)
  | 0 => failure
  | times + 1 => do
    let (part, last) ← linesPart quote
    if last then return part else return part ++ (← linesParts quote times)

def lineText (quote : Char) : Reader String := do
  expect quote
  return String.ofList (← many (linePart quote)).flatten

/-- Take a string, on one line or on several. -/
def quotedText (quote : Char) : Reader String := do
  if ← text? (String.ofList [quote, quote, quote]) then
    discard newline?
    return String.ofList (← linesParts quote ((← rest).length + 1))
  else lineText quote

end LineShell.Toml.Reader
