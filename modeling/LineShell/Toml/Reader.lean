/-!
Readers: functions that take characters from the front of a source, or fail.
-/

namespace LineShell.Toml

/-- What is left of a source, and how many bytes lie before it. -/
structure Place where
  rest : List Char
  offset : Nat := 0
  deriving DecidableEq, Repr

/-- A function that takes characters from the front of a source, or fails. -/
abbrev Reader (α : Type) := StateT Place Option α

/-- The place after some characters, with what follows them. -/
def Place.advance (place : Place) (taken rest : List Char) : Place where
  rest
  offset := taken.foldl (fun offset c => offset + c.utf8Size) place.offset

namespace Reader

variable {α : Type}

def rest : Reader (List Char) :=
  return (← get).rest

def require (condition : Bool) : Reader Unit :=
  if condition then return else failure

/-- Take one character, if it is as wanted. -/
def char? (wanted : Char → Bool) : Reader (Option Char) := do
  let place ← get
  match place.rest with
  | c :: rest =>
    if wanted c then
      set (place.advance [c] rest)
      return some c
    else return none
  | [] => return none

/-- Take one character, which must be as wanted. -/
def char (wanted : Char → Bool) : Reader Char := do
  match ← char? wanted with
  | some c => return c
  | none => failure

def expect (c : Char) : Reader Unit :=
  discard <| char (· == c)

/-- Take all characters up to the first that is not as wanted. -/
def takeWhile (wanted : Char → Bool) : Reader (List Char) := do
  let place ← get
  let taken := place.rest.takeWhile wanted
  set (place.advance taken (place.rest.dropWhile wanted))
  return taken

/-- Take a given text, if the source goes on with it. -/
def text? (text : String) : Reader Bool := do
  let place ← get
  let taken := text.toList
  if taken.isPrefixOf place.rest then
    set (place.advance taken (place.rest.drop taken.length))
    return true
  else return false

/-- Read with a reader as often as it finds something, at most a number of times. -/
def repeatAtMost (step : Reader (Option α)) : Nat → Reader (List α)
  | 0 => failure
  | times + 1 => do
    match ← step with
    | none => return []
    | some found => return found :: (← repeatAtMost step times)

/-- Read as often as a reader finds something. Each find must take a character. -/
def many (step : Reader (Option α)) : Reader (List α) := do
  repeatAtMost step ((← rest).length + 1)

/-- Read something together with where it was written. -/
def located (reader : Reader α) : Reader (α × Nat × Nat) := do
  let before := (← get).offset
  let found ← reader
  return (found, before, (← get).offset)

end Reader

end LineShell.Toml
