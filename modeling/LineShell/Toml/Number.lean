import LineShell.Toml.Text
import LineShell.Toml.Value
/-!
TOML numbers, dates and times. Each is a run of letters, digits and signs that is understood as a
whole.
-/

namespace LineShell.Toml.Number

def digits? (base : Nat) : Option Nat → List Char → Option Nat
  | value, [] => value
  | none, c :: rest => (digit? base c).bind fun digit => digits? base (some digit) rest
  | some value, '_' :: c :: rest =>
    (digit? base c).bind fun digit => digits? base (some (base * value + digit)) rest
  | some value, c :: rest =>
    (digit? base c).bind fun digit => digits? base (some (base * value + digit)) rest
where
  /-- The value of one digit below the base. -/
  digit? (base : Nat) (c : Char) : Option Nat :=
    (Reader.hexValue? c).filter (· < base)

/-- The value of decimal digits without needless zeros in front. -/
def decimal? (digits : List Char) : Option Nat :=
  match digits with
  | '0' :: _ :: _ => none
  | digits => digits? 10 none digits

/-- Split off a sign, and tell whether it is a minus. -/
def splitSign : List Char → Bool × List Char
  | '+' :: rest => (false, rest)
  | '-' :: rest => (true, rest)
  | rest => (false, rest)

def maxInteger : Nat := 0x7fffffffffffffff

def integer? (run : List Char) : Option Int := do
  let number : Int ←
    match run with
    | '0' :: 'x' :: rest => (digits? 16 none rest).map Int.ofNat
    | '0' :: 'o' :: rest => (digits? 8 none rest).map Int.ofNat
    | '0' :: 'b' :: rest => (digits? 2 none rest).map Int.ofNat
    | run =>
      let (negative, rest) := splitSign run
      (decimal? rest).map fun value => if negative then -Int.ofNat value else Int.ofNat value
  if -(maxInteger : Int) - 1 ≤ number ∧ number ≤ maxInteger then some number else none

/-- Whether a character is a digit or stands between digits. -/
def isDigitPart (c : Char) : Bool :=
  c.isDigit || c == '_'

/-- The exponent that follows the digits of a floating point number; zero if there is none. -/
def exponent? : List Char → Option Int
  | [] => some 0
  | e :: rest =>
    if e = 'e' ∨ e = 'E' then
      let (negative, rest) := splitSign rest
      (digits? 10 none rest).map fun value => if negative then -Int.ofNat value else Int.ofNat value
    else none

/-- The floating point number that a run is. Above zero it must not be too large. -/
def real? (run : List Char) : Option Real := do
  let (negative, rest) := splitSign run
  if rest = ['i', 'n', 'f'] then return .infinite negative
  if rest = ['n', 'a', 'n'] then return .undefined
  let whole ← decimal? (rest.takeWhile isDigitPart)
  let (digits, places, tail) ←
    match rest.dropWhile isDigitPart with
    | '.' :: rest => do
      let part := rest.takeWhile isDigitPart
      let fraction ← digits? 10 none part
      let places := (part.filter Char.isDigit).length
      pure (whole * Nat.pow 10 places + fraction, places, rest.dropWhile isDigitPart)
    | [] => none
    | tail => pure (whole, 0, tail)
  let exponent ← exponent? tail
  match Decimal.Binary64.ofDecimal? digits (exponent - places) with
  | some number => return .finite negative number
  | none => if negative then return .infinite true else none

/-- The number of two digits within bounds. -/
def two? (low high : Nat) (a b : Char) : Option Nat :=
  (digits? 10 none [a, b]).filter fun value => low ≤ value && value ≤ high

/-- How many days a month has. -/
def daysIn (year month : Nat) : Nat :=
  if month = 2 then
    if year % 4 = 0 ∧ (year % 100 ≠ 0 ∨ year % 400 = 0) then 29 else 28
  else if month = 4 ∨ month = 6 ∨ month = 9 ∨ month = 11 then 30
  else 31

/-- Whether a run starts with a date, and what follows it. -/
def splitDate? : List Char → Option (List Char)
  | y₁ :: y₂ :: y₃ :: y₄ :: '-' :: m₁ :: m₂ :: '-' :: d₁ :: d₂ :: rest => do
    let year ← if [y₁, y₂, y₃, y₄].all Char.isDigit then digits? 10 none [y₁, y₂, y₃, y₄] else none
    let month ← two? 1 12 m₁ m₂
    let _ ← two? 1 (daysIn year month) d₁ d₂
    return rest
  | _ => none

/-- Whether a run starts with a time of day, and what follows it. -/
def splitTime? : List Char → Option (List Char)
  | h₁ :: h₂ :: ':' :: m₁ :: m₂ :: ':' :: s₁ :: s₂ :: rest => do
    let _ ← two? 0 23 h₁ h₂
    let _ ← two? 0 59 m₁ m₂
    let _ ← two? 0 60 s₁ s₂
    match rest with
    | '.' :: rest =>
      if (rest.takeWhile Char.isDigit).isEmpty then none else return rest.dropWhile Char.isDigit
    | rest => return rest
  | _ => none

/-- Whether a run is the distance of a time from that of Greenwich. -/
def isOffset : List Char → Bool
  | ['Z'] | ['z'] => true
  | [sign, h₁, h₂, ':', m₁, m₂] =>
    (sign == '+' || sign == '-') && (two? 0 23 h₁ h₂).isSome && (two? 0 59 m₁ m₂).isSome
  | _ => false

/-- Whether a run is a time of day that may have an offset. -/
def isFullTime (run : List Char) : Bool :=
  match splitTime? run with
  | some rest => rest.isEmpty || isOffset rest
  | none => false

def isDate (run : List Char) : Bool :=
  splitDate? run == some []

/-- Whether a run is a date, a time of day, or both with a `T` between them. -/
def isMoment (run : List Char) : Bool :=
  match splitDate? run with
  | some [] => true
  | some (t :: rest) => (t == 'T' || t == 't') && isFullTime rest
  | none => splitTime? run == some []

def isRunPart (c : Char) : Bool :=
  c.isAlphanum || c == '+' || c == '-' || c == '.' || c == '_' || c == ':'

/-- Take a number, a date or a time. A date and a time of day may have a space between them. -/
def value : Reader Value := do
  let before := (← get).offset
  let run ← Reader.takeWhile isRunPart
  if isDate run then
    match ← Reader.rest with
    | ' ' :: c :: _ =>
      if c.isDigit then
        Reader.expect ' '
        Reader.require (isFullTime (← Reader.takeWhile isRunPart))
    | _ => pure ()
    return .moment ⟨before, (← get).offset⟩
  let span : Span := ⟨before, (← get).offset⟩
  if isMoment run then return .moment span
  match integer? run, real? run with
  | some number, _ => return .integer span number
  | none, some number => return .real span number
  | none, none => failure

end LineShell.Toml.Number
