import LineShell.Proofs.WordlessLines
/-!
Plain lines: nothing in them is quoted or escaped, no word begins with `#`, and all blanks are
separators. On these lines the two word rules agree, and the words are the runs between separators.
-/

namespace LineShell

namespace Words

open Posix (isSeparator)
open Text (isBlank)

/-- Nothing is quoted or escaped, all blanks are separators, and no `#` comes right after one. -/
structure PlainLetters (text : List Char) : Prop where
  unquoted : ∀ c ∈ text, Simple.isQuote c = false
  unescaped : '\\' ∉ text
  separated : ∀ c ∈ text, isBlank c = true → isSeparator c = true
  uncommented : ∀ c ∈ text, isBlank c = true → ¬[c, '#'] <:+: text

/-- Plain letters that do not begin with `#` either. -/
structure Plain (line : String) : Prop extends PlainLetters line.toList where
  bare : line.toList.head? ≠ some '#'

/-- The texts of the runs that are not empty. -/
def filledRuns (runs : List (List Char)) : List String :=
  (runs.filter (!·.isEmpty)).map String.ofList

/-- The words of a plain line: what stands between separators. -/
def plainWords (line : String) : List String :=
  filledRuns (line.toList.splitOnP isSeparator)

@[simp] theorem filledRuns_nil : filledRuns [] = [] := rfl

@[simp] theorem filledRuns_cons_nil (runs : List (List Char)) :
    filledRuns ([] :: runs) = filledRuns runs := rfl

theorem filledRuns_cons (filled : run ≠ []) (runs : List (List Char)) :
    filledRuns (run :: runs) = String.ofList run :: filledRuns runs := by
  simp [filledRuns, filled]

namespace PlainLetters

theorem nil : PlainLetters [] :=
  ⟨nofun, nofun, nofun, nofun⟩

/-- Letters are plain one by one: after a separator no `#` may follow. -/
theorem cons_iff : PlainLetters (c :: rest) ↔
    Simple.isQuote c = false ∧ c ≠ '\\' ∧
      (isBlank c = true → isSeparator c = true ∧ rest.head? ≠ some '#') ∧ PlainLetters rest := by
  have opens : ∀ d, [d, '#'] <+: c :: rest ↔ d = c ∧ rest.head? = some '#' := by
    intro d
    rw [List.cons_prefix_cons]
    cases rest <;> simp [eq_comm]
  constructor
  · intro plain
    refine ⟨plain.unquoted c List.mem_cons_self, ?_, fun blank => ⟨?_, fun comment => ?_⟩, ?_⟩
    · rintro rfl
      exact plain.unescaped List.mem_cons_self
    · exact plain.separated c List.mem_cons_self blank
    · exact plain.uncommented c List.mem_cons_self blank
        (List.infix_cons_iff.mpr (.inl ((opens c).mpr ⟨rfl, comment⟩)))
    · exact {
        unquoted d member := plain.unquoted d (List.mem_cons_of_mem c member)
        unescaped := mt (List.mem_cons_of_mem c) plain.unescaped
        separated d member := plain.separated d (List.mem_cons_of_mem c member)
        uncommented d member blank within :=
          plain.uncommented d (List.mem_cons_of_mem c member) blank (List.infix_cons within) }
  · rintro ⟨unquoted, other, blank, plain⟩
    refine ⟨?_, ?_, ?_, fun d member blankly within => ?_⟩
    · exact List.forall_mem_cons.mpr ⟨unquoted, plain.unquoted⟩
    · exact List.not_mem_cons_of_ne_of_not_mem other.symm plain.unescaped
    · exact List.forall_mem_cons.mpr ⟨fun blankly => (blank blankly).1, plain.separated⟩
    · rcases List.infix_cons_iff.mp within with first | later
      · obtain ⟨rfl, comment⟩ := (opens d).mp first
        exact (blank blankly).2 comment
      · exact plain.uncommented d (later.subset List.mem_cons_self) blankly later

instance decidable : (text : List Char) → Decidable (PlainLetters text)
  | [] => .isTrue nil
  | _ :: rest =>
    have := decidable rest
    decidable_of_iff _ cons_iff.symm

end PlainLetters

instance (line : String) : Decidable (Plain line) :=
  decidable_of_iff (PlainLetters line.toList ∧ line.toList.head? ≠ some '#')
    ⟨fun ⟨plain, bare⟩ => ⟨plain, bare⟩, fun plain => ⟨plain.toPlainLetters, plain.bare⟩⟩

/-- Both scans stand between words, or both in a word of which the same letters have been read. -/
inductive SamePlace : Simple.Place → Posix.Place → List Char → Prop where
  | between : SamePlace .between .between []
  | inWord (begun : letters ≠ []) : SamePlace (.inWord letters) (.inWord letters) letters

/-- Scans that stand at the same place find the same words in plain letters. -/
theorem scan_plain (same : SamePlace first second letters) (plain : PlainLetters text)
    (bare : letters = [] → text.head? ≠ some '#') :
    Simple.scan first text = .ok (filledRuns (text.splitOnPPrepend isSeparator letters)) ∧
      Posix.scan second text = some (filledRuns (text.splitOnPPrepend isSeparator letters)) := by
  induction text generalizing first second letters with
  | nil =>
    cases same with
    | between => exact ⟨rfl, rfl⟩
    | inWord begun =>
      have filled : letters.reverse ≠ [] := by simpa using begun
      simp [Simple.scan, Posix.scan, filledRuns_cons filled]
  | cons c rest ih =>
    obtain ⟨unquoted, unescaped, behind, later⟩ := PlainLetters.cons_iff.mp plain
    by_cases separates : isSeparator c = true
    · have blank := Posix.isBlank_of_isSeparator separates
      obtain ⟨simple, posix⟩ := ih .between later fun _ => (behind blank).2
      rw [List.splitOnPPrepend_cons_pos separates, List.splitOnP_eq_splitOnPPrepend]
      cases same with
      | between => simp [Simple.scan, blank, simple, Posix.scan, separates, posix]
      | inWord begun =>
        have filled : letters.reverse ≠ [] := by simpa using begun
        simp [Simple.scan, blank, simple, Except.map, Posix.scan, separates, posix,
          filledRuns_cons filled]
    · have letter : isSeparator c = false := by simpa using separates
      have filled : isBlank c = false := by
        simpa using mt (fun blank => (behind blank).1) separates
      have started : ∀ begun, Simple.Place.after begun c = .inWord (c :: begun) ∧
          Posix.Place.after begun c = .inWord (c :: begun) := by
        intro begun
        have quotes : c ≠ '"' ∧ c ≠ '\'' := by simpa [Simple.isQuote] using unquoted
        simp [Simple.Place.after, unquoted, Posix.Place.after, quotes, unescaped]
      have grown : c :: letters ≠ [] := List.cons_ne_nil c letters
      obtain ⟨simple, posix⟩ := ih (.inWord grown) later fun empty => absurd empty grown
      rw [List.splitOnPPrepend_cons_neg letter]
      cases same with
      | between =>
        have opens : c ≠ '#' := fun same => bare rfl (congrArg some same)
        simp [Simple.scan, filled, started, simple, Posix.scan, letter, opens, posix]
      | inWord begun => simp [Simple.scan, filled, started, simple, Posix.scan, letter, posix]

end Words

namespace WordRule

open Words

/-- Both word rules accept a plain line, and make the same statement of it: its words are the runs
between separators. -/
theorem parse_plain {line : String} (plain : Plain line) :
    simple.parse line = .ok ⟨line, plainWords line⟩ ∧
      posix.parse line = .ok ⟨line, plainWords line⟩ := by
  have runs : line.toList.splitOnPPrepend Posix.isSeparator [] =
      line.toList.splitOnP Posix.isSeparator := List.splitOnPPrepend_nil_right
  obtain ⟨kept, interpreted⟩ := scan_plain .between plain.toPlainLetters fun _ => plain.bare
  rw [runs] at kept interpreted
  constructor
  · exact parse_simple_ok_iff.mpr ⟨kept, rfl⟩
  · rw [parse, Posix.split, interpreted]
    rfl

/-- A `#` within a word, and all three separators. -/
theorem parse_plain_of_separators :
    let line := "\tsay a#b  né\n \nc$* "
    Plain line ∧ simple.parse line = .ok ⟨line, ["say", "a#b", "né", "c$*"]⟩ ∧
      posix.parse line = .ok ⟨line, ["say", "a#b", "né", "c$*"]⟩ := by
  intro line
  have plain : Plain line := by decide +kernel
  have words : plainWords line = ["say", "a#b", "né", "c$*"] := by decide +kernel
  have agreed := parse_plain plain
  rw [words] at agreed
  exact ⟨plain, agreed⟩

/-- Other blanks are not plain: they separate words under the simple rule alone. -/
example : simple.parse "a\rb" = .ok ⟨"a\rb", ["a", "b"]⟩ ∧
    posix.parse "a\rb" = .ok ⟨"a\rb", ["a\rb"]⟩ := ⟨rfl, rfl⟩

end WordRule

end LineShell
