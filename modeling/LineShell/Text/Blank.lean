/-!
Sets of characters as ranges of code points, and the blank characters: those with the Unicode property
`White_Space`.
-/

namespace LineShell.Text

/-- Inclusive ranges of code points, in increasing order. -/
abbrev CharRanges := List (Nat × Nat)

/-- Whether a character lies in one of the ranges. The search ends at the first range that begins
beyond the character. -/
def CharRanges.holds (c : Char) : CharRanges → Bool
  | [] => false
  | (first, last) :: later => first ≤ c.toNat && (c.toNat ≤ last || holds c later)

/-- The code points with the property `White_Space`. -/
def blankRanges : CharRanges :=
  [(0x09, 0x0D), (0x20, 0x20), (0x85, 0x85), (0xA0, 0xA0), (0x1680, 0x1680), (0x2000, 0x200A),
    (0x2028, 0x2029), (0x202F, 0x202F), (0x205F, 0x205F), (0x3000, 0x3000)]

def isBlank (c : Char) : Bool :=
  blankRanges.holds c

/-- Whether a text holds blanks only; the empty text does. -/
def isBlankLine (line : String) : Bool :=
  line.toList.all isBlank

@[simp] theorem isBlankLine_empty : isBlankLine "" = true := by
  simp [isBlankLine]

end LineShell.Text
