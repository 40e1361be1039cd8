/-!
Decimal text of binary fractions of 53 bits: the number of that kind nearest to a decimal, and the
fewest digits that lead back to it.
-/

namespace LineShell.Decimal

/-- A number `mantissa * 2 ^ exponent`, not below zero, with at most 53 bits in its mantissa. -/
structure Binary64 where
  mantissa : Nat
  exponent : Int
  deriving DecidableEq, Repr

/-- A fraction of natural numbers. -/
structure Ratio where
  num : Nat
  den : Nat
  deriving DecidableEq, Repr

/-- A natural number times a power of some base. -/
def scaled (base n : Nat) (exponent : Int) : Ratio :=
  if 0 ≤ exponent then ⟨n * Nat.pow base exponent.toNat, 1⟩ else ⟨n, Nat.pow base exponent.natAbs⟩

/-- The whole number nearest to a fraction, the even one of two that are equally near. -/
def Ratio.round (ratio : Ratio) : Nat :=
  let whole := ratio.num / ratio.den
  let twice := 2 * (ratio.num % ratio.den)
  if twice < ratio.den then whole
  else if ratio.den < twice then whole + 1
  else whole + whole % 2

def minExponent : Int := -1074

def maxExponent : Int := 971

def mantissaLimit : Nat := 0x20000000000000

/-- The mantissa for a fraction when the exponent is given. -/
def mantissaAt (ratio : Ratio) (exponent : Int) : Nat :=
  let power := scaled 2 1 exponent
  Ratio.round ⟨ratio.num * power.den, ratio.den * power.num⟩

/-- The number nearest to a fraction above zero, if there is one that large. -/
def Binary64.ofRatio? (ratio : Ratio) : Option Binary64 :=
  let bits : Int := (Nat.log2 ratio.num : Int) - Nat.log2 ratio.den
  let fits := fun exponent => mantissaAt ratio exponent ≤ mantissaLimit
  let exponent := [bits - 53, bits - 52, bits - 51].find? fun exponent =>
    minExponent ≤ exponent && fits exponent
  let exponent := exponent.getD minExponent
  let mantissa := mantissaAt ratio exponent
  let number : Binary64 :=
    if mantissa = mantissaLimit then ⟨mantissaLimit / 2, exponent + 1⟩ else ⟨mantissa, exponent⟩
  if number.exponent ≤ maxExponent then some number else none

def digitCount (n : Nat) : Nat :=
  (Nat.toDigits 10 n).length

/-- The number nearest to `digits * 10 ^ exponent`, if there is one that large. Numbers far too
large or too small are told by their count of digits alone. -/
def Binary64.ofDecimal? (digits : Nat) (exponent : Int) : Option Binary64 :=
  let magnitude := digitCount digits + exponent
  if digits = 0 ∨ magnitude < -330 then some ⟨0, minExponent⟩
  else if 310 < magnitude then none
  else Binary64.ofRatio? (scaled 10 digits exponent)

/-- Four times the lower end of the decimals that are nearest to a number, in units of its
exponent. Below a power of two the numbers lie twice as close. -/
def Binary64.lowerEnd (number : Binary64) : Nat :=
  if number.mantissa = mantissaLimit / 2 ∧ minExponent < number.exponent then 4 * number.mantissa - 1
  else 4 * number.mantissa - 2

def Binary64.upperEnd (number : Binary64) : Nat :=
  4 * number.mantissa + 2

/-- Whether `digits * 10 ^ place` leads back to a number: whether it lies between the ends, or on
one of them when the mantissa is even. -/
def Binary64.reads (number : Binary64) (digits : Nat) (place : Int) : Bool :=
  let decimal := scaled 10 digits place
  let unit := scaled 2 1 number.exponent
  let value := 4 * decimal.num * unit.den
  let low := number.lowerEnd * unit.num * decimal.den
  let high := number.upperEnd * unit.num * decimal.den
  if number.mantissa % 2 = 0 then low ≤ value && value ≤ high else low < value && value < high

/-- The whole number of units of a decimal place in a number, and whether at least half a unit is
left over. -/
def Binary64.unitsAt (number : Binary64) (place : Int) : Nat × Bool :=
  let value := scaled 2 number.mantissa number.exponent
  let unit := scaled 10 1 place
  let num := value.num * unit.den
  let den := value.den * unit.num
  (num / den, den ≤ 2 * (num % den))

/-- Look for digits that lead back to a number, from a decimal place downwards, one of the two
neighbours at each place. -/
def Binary64.search (number : Binary64) : Nat → Int → Nat × Int
  | 0, place => (0, place)
  | steps + 1, place =>
    let (below, nearAbove) := number.unitsAt place
    let first := if nearAbove then below + 1 else below
    let second := if nearAbove then below else below + 1
    if number.reads first place then (first, place)
    else if number.reads second place then (second, place)
    else number.search steps (place - 1)

/-- The fewest digits that lead back to a number, the nearest of those, and their place. Of two
that are equally near it is the greater. -/
def Binary64.shortest (number : Binary64) : Nat × Int :=
  if number.mantissa = 0 then (0, 0)
  else
    let value := scaled 2 number.mantissa number.exponent
    let start : Int :=
      if value.den ≤ value.num then digitCount (value.num / value.den)
      else 1 - digitCount (value.den / value.num)
    number.search 20 start

def positional (digits : Nat) (place : Int) : String :=
  let text := Nat.toDigits 10 digits
  if 0 ≤ place then
    String.ofList (text ++ (if digits = 0 then [] else List.replicate place.toNat '0')) ++ ".0"
  else
    let decimals := place.natAbs
    let padded := List.replicate (decimals + 1 - text.length) '0' ++ text
    let whole := padded.length - decimals
    String.ofList (padded.take whole ++ '.' :: padded.drop whole)

/-- The text of a number: its fewest digits with a decimal point. -/
def Binary64.text (number : Binary64) : String :=
  positional number.shortest.1 number.shortest.2

end LineShell.Decimal
