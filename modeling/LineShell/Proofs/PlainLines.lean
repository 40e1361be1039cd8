import LineShell.Proofs.Reading
/-!
Plain lines: those that are the same again once they have been written, each with a newline behind
it, and read back.
-/

namespace LineShell

namespace Lines

variable {α : Type} {ends : α → Bool}

/-- The line holds no newline, and no carriage return stands at its end. -/
structure Plain (line : String) : Prop where
  unbroken : '\n' ∉ line.toList
  bare : line.toList.getLast? ≠ some '\r'

theorem segments_append_cons {line : List α} (inside : ∀ unit ∈ line, ends unit = false)
    (last : ends unit = true) (rest : List α) :
    segments ends (line ++ unit :: rest) = (line ++ [unit]) :: segments ends rest := by
  induction line with
  | nil => simp [segments, last]
  | cons first line ih =>
    have begun : ends first = false := inside first List.mem_cons_self
    have later : ∀ unit ∈ line, ends unit = false :=
      fun other member => inside other (List.mem_cons_of_mem first member)
    rw [List.cons_append, segments, if_neg (by simp [begun]), ih later]
    rfl

theorem chomp_append_newline {line : List Char} (bare : line.getLast? ≠ some '\r') :
    chomp (line ++ ['\n']) = line := by
  rw [← List.head?_reverse] at bare
  unfold chomp
  rw [List.reverse_append]
  cases letters : line.reverse with
  | nil => simpa using letters.symm
  | cons last more =>
    have kept : last ≠ '\r' := by
      rintro rfl
      simp [letters] at bare
    have whole : (last :: more).reverse = line := by rw [← letters, List.reverse_reverse]
    split
    · rename_i begun
      simp only [List.reverse_singleton, List.singleton_append, List.cons.injEq] at begun
      exact absurd begun.2.1 kept
    · rename_i begun
      simp only [List.reverse_singleton, List.singleton_append, List.cons.injEq, true_and] at begun
      rw [← begun, whole]
    · rename_i unended
      exact absurd rfl (unended (last :: more))

theorem chompText_append_newline {line : String} (plain : Plain line) :
    chompText (line ++ "\n") = line := by
  have letters : (line ++ "\n").toList = line.toList ++ ['\n'] := by simp
  rw [chompText, letters, chomp_append_newline plain.bare, String.ofList_toList]

end Lines

namespace Bytes

theorem ofText_eq (text : String) : ofText text = text.toList.flatMap String.utf8EncodeChar := by
  rw [ofText, ← String.utf8Encode_toList, List.utf8Encode, List.toList_data_toByteArray]

theorem ofText_append (first second : String) :
    ofText (first ++ second) = ofText first ++ ofText second := by
  simp [ofText_eq]

theorem isNewline_ofNat {n : Nat} (bound : n < 256) (other : n ≠ 10) :
    isNewline (UInt8.ofNat n) = false := by
  simp only [isNewline, beq_eq_false_iff_ne, ne_eq]
  intro same
  have values := congrArg UInt8.toNat same
  simp only [UInt8.toNat_ofNat', UInt8.reduceToNat] at values
  omega

theorem isNewline_utf8EncodeChar {c : Char} (other : c ≠ '\n') :
    ∀ byte ∈ String.utf8EncodeChar c, isNewline byte = false := by
  have value : c.val.toNat ≠ 10 := fun same => other (Char.ext (UInt32.toNat.inj same))
  intro byte member
  -- A character of more than one byte has no byte below 128.
  rw [String.utf8EncodeChar] at member
  split at member
  · obtain rfl := List.mem_singleton.mp member
    exact isNewline_ofNat (by omega) value
  · split at member
    · simp only [List.mem_cons, List.not_mem_nil, or_false] at member
      rcases member with rfl | rfl <;> exact isNewline_ofNat (by omega) (by omega)
    · split at member
      · simp only [List.mem_cons, List.not_mem_nil, or_false] at member
        rcases member with rfl | rfl | rfl <;> exact isNewline_ofNat (by omega) (by omega)
      · simp only [List.mem_cons, List.not_mem_nil, or_false] at member
        rcases member with rfl | rfl | rfl | rfl <;> exact isNewline_ofNat (by omega) (by omega)

theorem isNewline_ofText {text : String} (unbroken : '\n' ∉ text.toList) :
    ∀ byte ∈ ofText text, isNewline byte = false := by
  rw [ofText_eq]
  intro byte member
  obtain ⟨c, letter, encoded⟩ := List.mem_flatMap.mp member
  have other : c ≠ '\n' := by
    rintro rfl
    exact unbroken letter
  exact isNewline_utf8EncodeChar other byte encoded

end Bytes

namespace ByteCursor

open Lines (Plain)

theorem decodeLine_append_newline {line : String} (plain : Plain line) :
    decodeLine (Bytes.ofText line ++ Bytes.ofText "\n") = .ok line := by
  rw [← Bytes.ofText_append, decodeLine, Bytes.toText?_ofText]
  simp [Lines.chompText_append_newline plain]

/-- Plain lines are read as they were written. -/
theorem lines_ofLines {written : List String} (plain : ∀ line ∈ written, Plain line) :
    (ofLines written).lines = written.map .ok := by
  have newline : Bytes.ofText "\n" = [10] := rfl
  have cut : (ofLines written).rest =
      written.flatMap fun line => Bytes.ofText line ++ Bytes.ofText "\n" := rfl
  rw [lines, cut]
  clear cut
  induction written with
  | nil => rfl
  | cons line later ih =>
    have first := plain line List.mem_cons_self
    have rest := ih fun other member => plain other (List.mem_cons_of_mem line member)
    rw [List.flatMap_cons, newline, List.append_assoc, List.singleton_append,
      Lines.segments_append_cons (Bytes.isNewline_ofText first.unbroken) rfl, List.map_cons,
      ← newline, decodeLine_append_newline first, rest, List.map_cons]

end ByteCursor

end LineShell
