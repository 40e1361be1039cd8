/-!
Reading whole numbers within bounds from text.
-/

namespace LineShell.Text

/-- Why a text is no number within the bounds. -/
inductive IntegerError where
  | empty
  | invalidDigit
  | tooLarge
  | tooSmall
  deriving DecidableEq, Repr

def IntegerError.message : IntegerError → String
  | empty => "cannot parse integer from empty string"
  | invalidDigit => "invalid digit found in string"
  | tooLarge => "number too large to fit in target type"
  | tooSmall => "number too small to fit in target type"

def digitValue (c : Char) : Nat :=
  c.toNat - '0'.toNat

/-- Read digits after a value read so far. The first character that is no digit, or that takes the
value beyond the bound, decides. -/
def digits (bound : Nat) (beyond : IntegerError) : Nat → List Char → Except IntegerError Nat
  | value, [] => .ok value
  | value, c :: rest =>
    if c.isDigit then
      let next := 10 * value + digitValue c
      if next ≤ bound then digits bound beyond next rest else .error beyond
    else .error .invalidDigit

/-- Read a number with an optional sign. A minus sign is no digit where no number is below zero. -/
def integer (low high : Int) (text : String) : Except IntegerError Int :=
  match text.toList with
  | [] => .error .empty
  | ['+'] => .error .invalidDigit
  | ['-'] => .error .invalidDigit
  | '+' :: rest => (digits high.toNat .tooLarge 0 rest).map Int.ofNat
  | '-' :: rest =>
    if low < 0 then (digits low.natAbs .tooSmall 0 rest).map fun value => -Int.ofNat value
    else .error .invalidDigit
  | rest => (digits high.toNat .tooLarge 0 rest).map Int.ofNat

end LineShell.Text
