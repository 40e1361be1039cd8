import LineShell.Proofs.Remembering
/-!
Whole numbers as they are typed. What is read of a text is the number that it denotes, if that is
within the bounds.
-/

namespace LineShell.Text

/-- One digit or more, and nothing else. -/
structure IsDigits (letters : List Char) : Prop where
  nonempty : letters ≠ []
  each : ∀ c ∈ letters, c.isDigit = true

/-- The number that digits write. -/
def digitsValue (letters : List Char) : Nat :=
  Nat.ofDigitChars 10 letters 0

/-- Digits, with a sign before them or with none, denote a number. -/
inductive Denotes : List Char → Int → Prop where
  | unsigned (digits : IsDigits letters) : Denotes letters (digitsValue letters)
  | plus (digits : IsDigits letters) : Denotes ('+' :: letters) (digitsValue letters)
  | minus (digits : IsDigits letters) : Denotes ('-' :: letters) (-digitsValue letters)

/-- Only digits are read, and only up to the bound. -/
theorem digits_eq_ok_iff {bound value : Nat} {beyond : IntegerError} {letters : List Char}
    (small : value ≤ bound) :
    digits bound beyond value letters = .ok n ↔
      (∀ c ∈ letters, c.isDigit = true) ∧ Nat.ofDigitChars 10 letters value = n ∧ n ≤ bound := by
  constructor
  · intro accepted
    induction letters generalizing value with
    | nil =>
      obtain rfl := Except.ok.inj accepted
      exact ⟨nofun, rfl, small⟩
    | cons c rest ih =>
      rw [digits] at accepted
      split at accepted
      · rename_i first
        dsimp only at accepted
        split at accepted
        · rename_i fits
          obtain ⟨each, total, within⟩ := ih fits accepted
          exact ⟨List.forall_mem_cons.mpr ⟨first, each⟩, total, within⟩
        · cases accepted
      · cases accepted
  · rintro ⟨each, rfl, within⟩
    exact digits_of_le each within

theorem digits_map_eq_ok_iff {bound : Nat} {beyond : IntegerError} {letters : List Char}
    {sign : Nat → Int} {value : Int} (nonempty : letters ≠ []) :
    (digits bound beyond 0 letters).map sign = .ok value ↔
      IsDigits letters ∧ sign (digitsValue letters) = value ∧ digitsValue letters ≤ bound := by
  constructor
  · intro accepted
    cases read : digits bound beyond 0 letters with
    | error reason => simp [read, Except.map] at accepted
    | ok n =>
      rw [read] at accepted
      obtain ⟨each, rfl, within⟩ := (digits_eq_ok_iff (Nat.zero_le bound)).mp read
      exact ⟨⟨nonempty, each⟩, Except.ok.inj accepted, within⟩
  · rintro ⟨typed, rfl, within⟩
    rw [digits_of_le typed.each within]
    rfl

theorem not_denotes_nil {value : Int} : ¬Denotes [] value := by
  rintro ⟨digits⟩
  exact digits.nonempty rfl

theorem IsDigits.head_ne (digits : IsDigits (c :: rest)) : c ≠ '+' ∧ c ≠ '-' := by
  have first := digits.each c List.mem_cons_self
  constructor <;> rintro rfl <;> cases first

theorem denotes_plus_iff {rest : List Char} {value : Int} :
    Denotes ('+' :: rest) value ↔ IsDigits rest ∧ (digitsValue rest : Int) = value := by
  constructor
  · intro denotes
    cases denotes with
    | unsigned digits => exact absurd rfl digits.head_ne.1
    | plus digits => exact ⟨digits, rfl⟩
  · rintro ⟨digits, rfl⟩
    exact .plus digits

theorem denotes_minus_iff {rest : List Char} {value : Int} :
    Denotes ('-' :: rest) value ↔ IsDigits rest ∧ -(digitsValue rest : Int) = value := by
  constructor
  · intro denotes
    cases denotes with
    | unsigned digits => exact absurd rfl digits.head_ne.2
    | minus digits => exact ⟨digits, rfl⟩
  · rintro ⟨digits, rfl⟩
    exact .minus digits

theorem denotes_iff_of_unsigned {letters : List Char} {value : Int}
    (unsigned : ∀ rest, letters ≠ '+' :: rest ∧ letters ≠ '-' :: rest) :
    Denotes letters value ↔ IsDigits letters ∧ (digitsValue letters : Int) = value := by
  constructor
  · intro denotes
    cases denotes with
    | unsigned digits => exact ⟨digits, rfl⟩
    | plus => exact absurd rfl (unsigned _).1
    | minus => exact absurd rfl (unsigned _).2
  · rintro ⟨digits, rfl⟩
    exact .unsigned digits

/-- Where negative numbers are within the bounds, a text is read just when it denotes a number within
them, and as that number. -/
theorem integer_eq_ok_iff {low high : Int} {text : String} {value : Int} (below : low < 0)
    (above : 0 ≤ high) :
    integer low high text = .ok value ↔ Denotes text.toList value ∧ low ≤ value ∧ value ≤ high := by
  have lone : ¬IsDigits [] := fun digits => digits.nonempty rfl
  rw [integer]
  split
  · rename_i empty
    simp [empty, not_denotes_nil]
  · rename_i sign
    simp [sign, denotes_plus_iff, lone]
  · rename_i sign
    simp [sign, denotes_minus_iff, lone]
  · rename_i rest more sign
    rw [sign, denotes_plus_iff, digits_map_eq_ok_iff more, and_assoc]
    refine and_congr_right fun digits => and_congr_right fun (same : (digitsValue rest : Int) = _) => ?_
    omega
  · rename_i rest more sign
    rw [if_pos below, sign, denotes_minus_iff, digits_map_eq_ok_iff more, and_assoc]
    refine and_congr_right fun digits => and_congr_right fun (same : -(digitsValue rest : Int) = _) => ?_
    omega
  · rename_i empty _ _ plus minus
    rw [denotes_iff_of_unsigned fun rest => ⟨plus rest, minus rest⟩, digits_map_eq_ok_iff empty,
      and_assoc]
    refine and_congr_right fun digits =>
      and_congr_right fun (same : (digitsValue text.toList : Int) = _) => ?_
    omega

end LineShell.Text
