import LineShell.Proofs.Layout
/-!
Lines put together from lines. Under the simple word rule, a line that is accepted keeps its words
when blanks and more text follow, and the words behind it are those of the rest. So the words of a
line can be written apart again in any way, and are read as they were.
-/

namespace LineShell.Words.Simple

open Text (isBlank isBlankLine)

/-- Where a scan has ended outside any quoted run, blanks let it begin anew. -/
theorem scan_append (accepted : scan place text = .ok argv) (filled : gap ≠ []) (blank : Blanks gap)
    (rest : List Char) :
    scan place (text ++ (gap ++ rest)) = (scan .between rest).map (argv ++ ·) := by
  induction text generalizing place argv with
  | nil =>
    cases place with
    | between =>
      obtain rfl := Except.ok.inj accepted
      rw [List.nil_append, scan_blanks blank]
      cases scan .between rest <;> rfl
    | inWord letters =>
      obtain rfl := Except.ok.inj accepted
      exact scan_gap filled blank letters rest
    | inQuote quote letters => cases accepted
  | cons c text ih =>
    rw [List.cons_append]
    cases place with
    | between =>
      by_cases white : isBlank c = true
      · rw [scan, if_pos white] at accepted ⊢
        exact ih accepted
      · rw [scan, if_neg white] at accepted ⊢
        exact ih accepted
    | inWord letters =>
      by_cases white : isBlank c = true
      · rw [scan, if_pos white] at accepted ⊢
        cases later : scan .between text with
        | error quote => simp [later, Except.map] at accepted
        | ok words =>
          rw [later] at accepted
          obtain rfl := Except.ok.inj accepted
          rw [ih later]
          cases scan .between rest <;> rfl
      · rw [scan, if_neg white] at accepted ⊢
        exact ih accepted
    | inQuote quote letters =>
      by_cases closes : c = quote
      · rw [scan, if_pos closes] at accepted ⊢
        exact ih accepted
      · rw [scan, if_neg closes] at accepted ⊢
        exact ih accepted

theorem blanks_iff {text : String} : isBlankLine text = true ↔ Blanks text.toList :=
  List.all_eq_true

/-- An accepted line, blanks, and a rest: the words of the line come before those of the rest, and
a quote that the rest leaves open stays open. -/
theorem split_append {line gap : String} (accepted : split line = .ok argv) (filled : gap ≠ "")
    (blank : isBlankLine gap = true) (rest : String) :
    split (line ++ gap ++ rest) = (split rest).map (argv ++ ·) := by
  have letters : (line ++ gap ++ rest).toList = line.toList ++ (gap.toList ++ rest.toList) := by simp
  have nonempty : gap.toList ≠ [] := by simpa using filled
  rw [split, letters]
  exact scan_append accepted nonempty (blanks_iff.mp blank) rest.toList

theorem split_word (word : IsWord letters) :
    split (String.ofList letters) = .ok [String.ofList letters] := by
  have whole := scan_word word []
  rw [List.append_nil] at whole
  rw [split, String.toList_ofList, whole, scan, List.reverse_reverse]

theorem split_of_mem (accepted : split line = .ok argv) (member : word ∈ argv) :
    split word = .ok [word] := by
  obtain ⟨layout, _, rfl⟩ := split_eq_ok_iff.mp accepted
  obtain ⟨spaced, _, rfl⟩ := List.mem_map.mp member
  exact split_word spaced.isWord

/-- Words, with blanks in front of all and a gap behind each. -/
def spread (lead : String) (words gaps : List String) : String :=
  lead ++ String.join (words.zipWith (· ++ ·) gaps)

/-- There is a gap for each word, made of blanks. Only the last gap may be empty. -/
structure KeepApart (gaps words : List String) : Prop where
  each : gaps.length = words.length
  blank : ∀ gap ∈ gaps, isBlankLine gap = true
  filled : ∀ gap ∈ gaps.dropLast, gap ≠ ""

theorem KeepApart.tail (apart : KeepApart (gap :: gaps) (word :: words)) : KeepApart gaps words where
  each := Nat.succ.inj apart.each
  blank other member := apart.blank other (List.mem_cons_of_mem gap member)
  filled other member := by
    cases gaps with
    | nil => simp at member
    | cons next more => exact apart.filled other (List.mem_cons_of_mem gap member)

theorem KeepApart.eq_nil (apart : KeepApart ("" :: gaps) (word :: words)) : words = [] := by
  cases gaps with
  | nil => exact List.eq_nil_of_length_eq_zero (Nat.succ.inj apart.each).symm
  | cons next more => exact absurd rfl (apart.filled "" List.mem_cons_self)

theorem split_joined (whole : ∀ word ∈ words, split word = .ok [word]) (apart : KeepApart gaps words) :
    split (String.join (words.zipWith (· ++ ·) gaps)) = .ok words := by
  induction words generalizing gaps with
  | nil => rfl
  | cons word words ih =>
    have single := whole word List.mem_cons_self
    cases gaps with
    | nil => cases apart.each
    | cons gap gaps =>
      rw [List.zipWith_cons_cons, String.join_cons]
      by_cases bare : gap = ""
      · subst bare
        obtain rfl := apart.eq_nil
        simpa [String.join_nil] using single
      · have later := ih (fun other member => whole other (List.mem_cons_of_mem word member)) apart.tail
        rw [split_append single bare (apart.blank gap List.mem_cons_self), later]
        rfl

theorem split_spread {lead : String} (whole : ∀ word ∈ words, split word = .ok [word])
    (blank : isBlankLine lead = true) (apart : KeepApart gaps words) :
    split (spread lead words gaps) = .ok words := by
  have joined := split_joined whole apart
  by_cases bare : lead = ""
  · rw [spread, bare, String.empty_append]
    exact joined
  · have none : split "" = .ok [] := rfl
    have begun := split_append none bare blank (String.join (words.zipWith (· ++ ·) gaps))
    rw [String.empty_append, joined] at begun
    exact begun

end LineShell.Words.Simple

namespace LineShell.WordRule

open Words.Simple

/-- A line that is accepted keeps its words when blanks and a rest are put behind it: the whole is
accepted just when the rest is, and has the words of both. And the words of such a line, with any
blanks between them, before them and behind them, are a line of the same words. -/
theorem parse_simple_joins {line : String} {statement : Statement}
    (accepted : simple.parse line = .ok statement) :
    (∀ gap rest, Text.isBlankLine gap = true → gap ≠ "" →
      ((∃ whole, simple.parse (line ++ gap ++ rest) = .ok whole) ↔
        ∃ later, simple.parse rest = .ok later) ∧
      ∀ later, simple.parse rest = .ok later →
        simple.parse (line ++ gap ++ rest) =
          .ok ⟨line ++ gap ++ rest, statement.argv ++ later.argv⟩) ∧
    ∀ lead gaps, Text.isBlankLine lead = true → KeepApart gaps statement.argv →
      simple.parse (spread lead statement.argv gaps) =
        .ok ⟨spread lead statement.argv gaps, statement.argv⟩ := by
  obtain ⟨words, _⟩ := parse_simple_ok_iff.mp accepted
  constructor
  · intro gap rest blank filled
    have joined := split_append words filled blank rest
    have follows : ∀ later, simple.parse rest = .ok later →
        simple.parse (line ++ gap ++ rest) =
          .ok ⟨line ++ gap ++ rest, statement.argv ++ later.argv⟩ := by
      intro later parsed
      rw [(parse_simple_ok_iff.mp parsed).1] at joined
      exact parse_simple_ok_iff.mpr ⟨joined, rfl⟩
    refine ⟨⟨fun ⟨whole, parsed⟩ => ?_, fun ⟨later, parsed⟩ => ⟨_, follows later parsed⟩⟩, follows⟩
    rw [(parse_simple_ok_iff.mp parsed).1] at joined
    cases behind : split rest with
    | error quote => simp [behind, Except.map] at joined
    | ok argv => exact ⟨⟨rest, argv⟩, parse_simple_ok_iff.mpr ⟨behind, rfl⟩⟩
  · intro lead gaps blank apart
    have single : ∀ word ∈ statement.argv, split word = .ok [word] :=
      fun word member => split_of_mem words member
    exact parse_simple_ok_iff.mpr ⟨split_spread single blank apart, rfl⟩

/-- A quote within a quoted run, in a line that others are put behind and that is written anew. -/
theorem parse_simple_joins_of_quoted :
    let argv := ["say", "\"it's  so\"x"]
    simple.parse " say \"it's  so\"x" = .ok ⟨" say \"it's  so\"x", argv⟩ ∧
      simple.parse " say \"it's  so\"x\t 'a b' c" =
        .ok ⟨" say \"it's  so\"x\t 'a b' c", argv ++ ["'a b'", "c"]⟩ ∧
      KeepApart ["\t", "\n"] argv ∧
      simple.parse "  say\t\"it's  so\"x\n" = .ok ⟨"  say\t\"it's  so\"x\n", argv⟩ := by
  intro argv
  have accepted : simple.parse " say \"it's  so\"x" = .ok ⟨" say \"it's  so\"x", argv⟩ := by rfl
  have later : simple.parse "'a b' c" = .ok ⟨"'a b' c", ["'a b'", "c"]⟩ := by rfl
  have apart : KeepApart ["\t", "\n"] argv := ⟨by decide, by decide, by decide⟩
  obtain ⟨joins, spreads⟩ := parse_simple_joins accepted
  have joined := (joins "\t " "'a b' c" (by decide) (by decide)).2 _ later
  have again := spreads "  " ["\t", "\n"] (by decide) apart
  exact ⟨accepted, joined, apart, again⟩

end LineShell.WordRule
