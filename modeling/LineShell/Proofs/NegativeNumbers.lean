import LineShell.Proofs.ExitArguments
/-!
Negative numbers among the arguments of `exit`. A negative number is read like the same number without
its dash, but for the sign, unless a `--` or requests for help stand behind it.
-/

namespace LineShell

variable {σ : Type}

namespace Builtin

open Arguments Arguments.Reading

variable {words front back : List String} {named : Option Int}

/-- All words ask for help. -/
def OnlyHelp (words : List String) : Prop :=
  ∀ word ∈ words, isHelp word = true

/-- Requests for help, and perhaps a `--` behind them. -/
def NamesNothing (words : List String) : Prop :=
  ∃ asking, OnlyHelp asking ∧ (words = asking ∨ words = asking ++ ["--"])

theorem OnlyHelp.unsigned (asking : OnlyHelp words) :
    ∀ word ∈ words, isNegativeNumber word = false := by
  intro word member
  rcases eq_of_isHelp (asking word member) with rfl | rfl <;> decide

theorem OnlyHelp.unmarked (asking : OnlyHelp words) : "--" ∉ words :=
  fun member => absurd (asking _ member) (by decide)

theorem NamesNothing.unsigned (idle : NamesNothing words) :
    ∀ word ∈ words, isNegativeNumber word = false := by
  obtain ⟨asking, help, rfl | rfl⟩ := idle
  · exact help.unsigned
  · intro word member
    rcases List.mem_append.mp member with asked | closing
    · exact help.unsigned word asked
    · obtain rfl := List.mem_singleton.mp closing
      decide

theorem unsigned_around (undashed : isDashed word = false) (asking : OnlyHelp front)
    (idle : NamesNothing back) :
    ∀ other ∈ front ++ word :: back, isNegativeNumber other = false := by
  intro other member
  rcases List.mem_append.mp member with early | late
  · exact asking.unsigned other early
  · rcases List.mem_cons.mp late with rfl | behind
    · exact not_negative_of_undashed undashed
    · exact idle.unsigned other behind

theorem named_of_readAll {reading after : Reading (Option Int)}
    (read : readAll exitRules reading words = .ok after) (before : reading.values = some value) :
    after.values = some value := by
  induction words generalizing reading with
  | nil =>
    cases read
    exact before
  | cons word rest ih =>
    obtain ⟨middle, first, later⟩ := readAll_cons_ok_iff.mp read
    refine ih later ?_
    cases next_eq_ok_iff.mp first with
    | help | closing => exact before
    | switch _ _ _ _ _ known => cases known
    | value _ accepted =>
      rw [before, exitRules_value_ok_iff] at accepted
      cases accepted.1

theorem readAll_onlyHelp (help : Bool) (named : Option Int) (asking : OnlyHelp words) :
    ∃ asked, readAll exitRules ⟨false, help, named⟩ words = .ok ⟨false, asked, named⟩ := by
  induction words generalizing help with
  | nil => exact ⟨help, rfl⟩
  | cons word rest ih =>
    obtain ⟨asks, later⟩ := List.forall_mem_cons.mp asking
    obtain ⟨asked, read⟩ := ih true later
    exact ⟨asked, readAll_cons_ok_iff.mpr ⟨_, next_eq_ok_iff.mpr (.help rfl asks), read⟩⟩

/-- Where no `--` stands, only requests for help name no exit code. -/
theorem onlyHelp_of_readAll {help : Bool} {after : Reading (Option Int)}
    (read : readAll exitRules ⟨false, help, named⟩ words = .ok after) (unmarked : "--" ∉ words)
    (unnamed : after.values = none) : OnlyHelp words := by
  induction words generalizing help named with
  | nil => exact nofun
  | cons word rest ih =>
    obtain ⟨middle, first, later⟩ := readAll_cons_ok_iff.mp read
    obtain ⟨other, others⟩ := not_or.mp (List.mem_cons.not.mp unmarked)
    cases next_eq_ok_iff.mp first with
    | help _ asks => exact List.forall_mem_cons.mpr ⟨asks, ih later others⟩
    | closing _ dashes => exact absurd dashes.symm other
    | switch _ _ _ _ _ known => cases known
    | value _ accepted =>
      obtain ⟨_, value, _, rfl⟩ := exitRules_value_ok_iff.mp accepted
      cases unnamed.symm.trans (named_of_readAll later rfl)

/-- After an exit code, only what names nothing is taken. -/
theorem readAll_named_open_iff (help : Bool) (value : Int) :
    (∃ after, readAll exitRules ⟨false, help, some value⟩ words = .ok after) ↔
      NamesNothing words := by
  constructor
  · rintro ⟨after, read⟩
    induction words generalizing help with
    | nil => exact ⟨[], nofun, .inl rfl⟩
    | cons word rest ih =>
      obtain ⟨middle, first, later⟩ := readAll_cons_ok_iff.mp read
      cases next_eq_ok_iff.mp first with
      | help _ asks =>
        obtain ⟨asking, help, whole⟩ := ih true later
        refine ⟨word :: asking, List.forall_mem_cons.mpr ⟨asks, help⟩, ?_⟩
        rcases whole with rfl | rfl
        · exact .inl rfl
        · exact .inr rfl
      | closing _ dashes =>
        obtain ⟨rfl, _⟩ := readAll_full_iff.mp later
        exact ⟨[], nofun, .inr (congrArg ([·]) dashes)⟩
      | switch _ _ _ _ _ known => cases known
      | value _ accepted => cases (exitRules_value_ok_iff.mp accepted).1
  · rintro ⟨asking, asks, whole⟩
    obtain ⟨asked, read⟩ := readAll_onlyHelp help (some value) asks
    rcases whole with rfl | rfl
    · exact ⟨_, read⟩
    · have closed : readAll exitRules ⟨false, asked, some value⟩ ["--"] =
          .ok ⟨true, asked, some value⟩ := readAll_cons_ok_iff.mpr ⟨_, next_dashes, rfl⟩
      exact ⟨_, readAll_append_ok_iff.mpr ⟨_, read, closed⟩⟩

/-- Words that have been read hold a `--` just where all words behind them are values. -/
theorem plain_of_readAll {reading after : Reading (Option Int)}
    (read : readAll exitRules reading words = .ok after) :
    after.plain = true ↔ reading.plain = true ∨ "--" ∈ words := by
  induction words generalizing reading with
  | nil =>
    cases read
    simp
  | cons word rest ih =>
    obtain ⟨middle, first, later⟩ := readAll_cons_ok_iff.mp read
    have step : middle.plain = true ↔ reading.plain = true ∨ "--" = word := by
      cases next_eq_ok_iff.mp first with
      | help _ asks =>
        have other : "--" ≠ word := by
          rintro rfl
          exact absurd asks (by decide)
        simp [other]
      | closing _ dashes => simp [dashes]
      | switch _ _ _ _ _ known => cases known
      | value free =>
        have bound : exitRules.greedy = false := rfl
        rcases free with plain | ⟨_, undashed⟩
        · simp [plain]
        · have other : "--" ≠ word := by
            rintro rfl
            exact absurd undashed (by decide)
          simp [bound, other]
    rw [ih later, step, List.mem_cons, or_assoc]

theorem open_of_readAll {plain asked : Bool}
    (read : readAll exitRules { values := none } words = .ok ⟨plain, asked, named⟩)
    (unmarked : "--" ∉ words) : plain = false := by
  refine Bool.eq_false_iff.mpr fun closed => ?_
  rcases (plain_of_readAll read).mp closed with before | marked
  · cases before
  · exact unmarked marked

/-- Where no `--` stands before an exit code without a dash, only requests for help do, and nothing is
named behind it. -/
theorem readAll_number_iff (number : IsExitCode word value) (undashed : isDashed word = false)
    (unmarked : "--" ∉ front) :
    (∃ after, readAll exitRules { values := none } (front ++ word :: back) = .ok after) ↔
      OnlyHelp front ∧ NamesNothing back := by
  constructor
  · rintro ⟨after, read⟩
    obtain ⟨⟨plain, help, named⟩, first, onward⟩ := readAll_append_ok_iff.mp read
    obtain ⟨middle, second, later⟩ := readAll_cons_ok_iff.mp onward
    obtain rfl := open_of_readAll first unmarked
    obtain ⟨rfl, rfl⟩ := (next_number_iff number undashed).mp second
    exact ⟨onlyHelp_of_readAll first unmarked rfl, (readAll_named_open_iff help value).mp ⟨after, later⟩⟩
  · rintro ⟨asking, idle⟩
    obtain ⟨asked, first⟩ := readAll_onlyHelp false none asking
    obtain ⟨after, later⟩ := (readAll_named_open_iff asked value).mpr idle
    have onward : readAll exitRules ⟨false, asked, none⟩ (word :: back) = .ok after :=
      readAll_cons_ok_iff.mpr ⟨_, (next_number_iff number undashed).mpr ⟨rfl, rfl⟩, later⟩
    exact ⟨after, readAll_append_ok_iff.mpr ⟨_, first, onward⟩⟩

/-- Where `--` guards a word, only requests for help stand before it, and nothing behind. -/
theorem onlyHelp_of_guarded {after : Reading (Option Int)} (unmarked : "--" ∉ front)
    (read : readAll exitRules { values := none } (front ++ "--" :: word :: back) = .ok after) :
    OnlyHelp front ∧ back = [] := by
  obtain ⟨⟨plain, help, named⟩, first, onward⟩ := readAll_append_ok_iff.mp read
  obtain ⟨middle, second, later⟩ := readAll_cons_ok_iff.mp onward
  obtain rfl := open_of_readAll first unmarked
  cases next_dashes.symm.trans second
  cases named with
  | some value => cases (readAll_full_iff.mp later).1
  | none =>
    rcases readAll_plain_iff.mp later with ⟨impossible, _⟩ | ⟨_, _, whole, _⟩
    · cases impossible
    · exact ⟨onlyHelp_of_readAll first unmarked rfl, (List.cons.inj whole).2⟩

/-- How far `exit` reads its arguments, with a guard before a negative number. -/
def exitReading (words : List String) : Except String (Reading (Option Int)) :=
  readAll exitRules { values := none } (guardNegative words)

/-- An exit code without a dash, and no `--` before it, is read behind requests for help if nothing is
named behind it. -/
theorem exitReading_number_iff (number : IsExitCode word value) (undashed : isDashed word = false)
    (unmarked : "--" ∉ front) :
    (∃ after, exitReading (front ++ word :: back) = .ok after) ↔
      OnlyHelp front ∧ NamesNothing back := by
  rw [exitReading, ← readAll_number_iff number undashed unmarked]
  constructor
  · rintro ⟨after, read⟩
    by_cases marked : "--" ∈ front ++ word :: back
    · rw [guardNegative_of_marked marked] at read
      exact ⟨after, read⟩
    rcases negative_cases (front ++ word :: back) with
      unsigned | ⟨before, guarded, behind, whole, unsigned, negative⟩
    · rw [guardNegative_of_unsigned unsigned] at read
      exact ⟨after, read⟩
    -- The number is not the word that is guarded, and beside that only requests for help are read.
    · have member : word ∈ front ++ word :: back := by simp
      rw [whole] at marked member read
      rw [guardNegative_of_first marked unsigned negative] at read
      have before : "--" ∉ before := fun early => marked (List.mem_append_left _ early)
      obtain ⟨asking, rfl⟩ := onlyHelp_of_guarded before read
      rcases List.mem_append.mp member with early | last
      · cases number.isHelp_eq_false.symm.trans (asking word early)
      · cases List.mem_singleton.mp last
        cases (not_negative_of_undashed undashed).symm.trans negative
  · intro read
    obtain ⟨asking, idle⟩ := (readAll_number_iff number undashed unmarked).mp read
    rwa [guardNegative_of_unsigned (unsigned_around undashed asking idle)]

theorem exitReading_number_last (number : IsExitCode word value) (undashed : isDashed word = false)
    (asking : OnlyHelp front)
    (read : readAll exitRules { values := none } front = .ok ⟨false, asked, none⟩) :
    exitReading (front ++ [word]) = .ok ⟨false, asked, some value⟩ := by
  have idle : NamesNothing [] := ⟨[], nofun, .inl rfl⟩
  rw [exitReading, guardNegative_of_unsigned (unsigned_around undashed asking idle)]
  have last : readAll exitRules ⟨false, asked, none⟩ [word] = .ok ⟨false, asked, some value⟩ :=
    readAll_cons_ok_iff.mpr ⟨_, (next_number_iff number undashed).mpr ⟨rfl, rfl⟩, rfl⟩
  exact readAll_append_ok_iff.mpr ⟨_, read, last⟩

theorem exitReading_negative_last (number : IsExitCode word value)
    (negative : isNegativeNumber word = true) (asking : OnlyHelp front)
    (read : readAll exitRules { values := none } front = .ok ⟨false, asked, none⟩) :
    exitReading (front ++ [word]) = .ok ⟨true, asked, some value⟩ := by
  have unmarked : "--" ∉ front ++ [word] := by
    intro marked
    rcases List.mem_append.mp marked with early | last
    · exact asking.unmarked early
    · cases List.mem_singleton.mp last
      exact absurd negative (by decide)
  rw [exitReading, guardNegative_of_first unmarked asking.unsigned negative]
  have closed : readAll exitRules ⟨false, asked, none⟩ ["--", word] =
      .ok ⟨true, asked, some value⟩ :=
    readAll_cons_ok_iff.mpr ⟨_, next_dashes, readAll_plain_iff.mpr (.inr ⟨_, _, rfl, number, rfl⟩)⟩
  exact readAll_append_ok_iff.mpr ⟨_, read, closed⟩

/-- With no `--` before it, a negative number is read behind requests for help if it is the last. -/
theorem exitReading_negative_iff (number : IsExitCode word value)
    (negative : isNegativeNumber word = true) (unmarked : "--" ∉ front) :
    (∃ after, exitReading (front ++ word :: back) = .ok after) ↔ OnlyHelp front ∧ back = [] := by
  constructor
  · rintro ⟨after, read⟩
    rw [exitReading] at read
    by_cases marked : "--" ∈ front ++ word :: back
    · rw [guardNegative_of_marked marked] at read
      obtain ⟨⟨plain, help, named⟩, first, onward⟩ := readAll_append_ok_iff.mp read
      obtain ⟨middle, second, later⟩ := readAll_cons_ok_iff.mp onward
      obtain rfl := open_of_readAll first unmarked
      cases next_eq_ok_iff.mp second with
      | help _ asks => cases number.isHelp_eq_false.symm.trans asks
      | closing _ dashes =>
        subst dashes
        exact absurd negative (by decide)
      | switch _ _ _ _ _ known => cases known
      | value free =>
        have dashed := isDashed_of_isNegativeNumber negative
        simp [dashed] at free
    rcases negative_cases front with unsigned | ⟨before, guarded, behind, rfl, unsigned, found⟩
    · rw [guardNegative_of_first marked unsigned negative] at read
      exact onlyHelp_of_guarded unmarked read
    · simp only [List.append_assoc, List.cons_append] at marked read
      rw [guardNegative_of_first marked unsigned found] at read
      have before : "--" ∉ before := fun early => unmarked (List.mem_append_left _ early)
      obtain ⟨_, impossible⟩ := onlyHelp_of_guarded before read
      simp at impossible
  · rintro ⟨asking, rfl⟩
    obtain ⟨asked, read⟩ := readAll_onlyHelp false none asking
    exact ⟨_, exitReading_negative_last number negative asking read⟩

/-- Behind `--` an exit code is read if there is none yet, and if it is the last. -/
theorem exitReading_marked_iff {after : Reading (Option Int)} (number : IsExitCode word value)
    (marked : "--" ∈ front) :
    exitReading (front ++ word :: back) = .ok after ↔
      ∃ asked, readAll exitRules { values := none } front = .ok ⟨true, asked, none⟩ ∧ back = [] ∧
        after = ⟨true, asked, some value⟩ := by
  rw [exitReading, guardNegative_of_marked (List.mem_append_left _ marked), readAll_append_ok_iff]
  constructor
  · rintro ⟨⟨plain, asked, named⟩, first, later⟩
    obtain rfl : plain = true := (plain_of_readAll first).mpr (.inr marked)
    cases named with
    | some value => cases (readAll_full_iff.mp later).1
    | none =>
      rcases readAll_plain_iff.mp later with ⟨impossible, _⟩ | ⟨_, other, whole, alike, rfl⟩
      · cases impossible
      · obtain ⟨rfl, rfl⟩ := List.cons.inj whole
        cases number.unique alike
        exact ⟨asked, first, rfl, rfl⟩
  · rintro ⟨asked, first, rfl, rfl⟩
    exact ⟨_, first, readAll_plain_iff.mpr (.inr ⟨_, _, rfl, number, rfl⟩)⟩

/-- On both lists of arguments `exit` does the same, but for the sign of the exit code. -/
structure AlikeButForSign (console : ConsoleId) (words others : List String)
    (before : Memory σ) : Prop where
  help : exit.ShowsHelp console words before ↔ exit.ShowsHelp console others before
  misuse : exit.Complains console words before ↔ exit.Complains console others before
  stops : ∀ code, exit.Stops console words code before ↔ exit.Stops console others (-code) before

variable {console : ConsoleId} {before : Memory σ} {others : List String}

theorem exitCode_of_reading {plain asked : Bool}
    (read : exitReading words = .ok ⟨plain, asked, named⟩) :
    exitCode words = if asked then .error .help else .ok (Int32.ofInt (named.getD 0)) := by
  rw [exitReading] at read
  rw [exitCode_eq, read]
  cases asked <;> rfl

theorem misuse_iff :
    (∃ text, exitCode words = .error (.misuse text)) ↔ ¬∃ after, exitReading words = .ok after := by
  rw [exitCode_eq, exitReading]
  cases readAll exitRules { values := none } (guardNegative words) with
  | error text => simp [Except.mapError, Except.bind, Except.map]
  | ok reading =>
    obtain ⟨plain, asked, named⟩ := reading
    cases asked <;> simp [Except.mapError, Except.bind, Except.map, answer]

theorem alike_of_misuse (refused : ¬∃ after, exitReading words = .ok after)
    (alike : ¬∃ after, exitReading others = .ok after) :
    AlikeButForSign console words others before := by
  obtain ⟨text, first⟩ := misuse_iff.mpr refused
  obtain ⟨other, second⟩ := misuse_iff.mpr alike
  refine ⟨?_, ?_, fun code => ?_⟩
  · simp [showsHelp_iff, first, second]
  · simp [complains_iff, first, second]
  · simp [stops_iff, first, second]

theorem alike_of_readings {plain other asked : Bool}
    (read : exitReading words = .ok ⟨plain, asked, some value⟩)
    (alike : exitReading others = .ok ⟨other, asked, some (-value)⟩) :
    AlikeButForSign console words others before := by
  have first := exitCode_of_reading read
  have second := exitCode_of_reading alike
  cases asked with
  | true =>
    refine ⟨?_, ?_, fun code => ?_⟩
    · simp [showsHelp_iff, first, second]
    · simp [complains_iff, first, second]
    · simp [stops_iff, first, second]
  | false =>
    refine ⟨?_, ?_, fun code => ?_⟩
    · simp [showsHelp_iff, first, second]
    · simp [complains_iff, first, second]
    · simp [stops_iff, first, second, Int32.ofInt_neg]

/-- A number without a dash, and the same with a dash in front. -/
structure Signed (positive negative : String) (value : Int) : Prop where
  number : IsExitCode positive value
  undashed : isDashed positive = false
  other : IsExitCode negative (-value)
  dashed : isNegativeNumber negative = true

theorem signed_digits {digits : List Char} (typed : Text.IsDigits digits)
    (within : Text.digitsValue digits ≤ 2147483647) :
    Signed (String.ofList digits) (String.ofList ('-' :: digits)) (Text.digitsValue digits) where
  number := by
    refine ⟨?_, ?_, ?_⟩
    · rw [String.toList_ofList]
      exact .unsigned typed
    · rw [minExitCode]
      omega
    · rw [maxExitCode]
      omega
  undashed := by
    rw [isDashed, String.toList_ofList]
    cases digits with
    | nil => rfl
    | cons c rest => simpa using typed.head_ne.2
  other := by
    refine ⟨?_, ?_, ?_⟩
    · rw [String.toList_ofList]
      exact .minus typed
    · rw [minExitCode]
      omega
    · rw [maxExitCode]
      omega
  dashed := isNegativeNumber_iff.mpr ⟨digits, String.toList_ofList, typed⟩

namespace Signed

variable {positive negative : String}

theorem alike_of_marked (signed : Signed positive negative value) (marked : "--" ∈ front) :
    AlikeButForSign console (front ++ positive :: back) (front ++ negative :: back) before := by
  by_cases reads : ∃ asked, readAll exitRules { values := none } front = .ok ⟨true, asked, none⟩ ∧
    back = []
  · obtain ⟨asked, first, last⟩ := reads
    exact alike_of_readings
      ((exitReading_marked_iff signed.number marked).mpr ⟨asked, first, last, rfl⟩)
      ((exitReading_marked_iff signed.other marked).mpr ⟨asked, first, last, rfl⟩)
  · refine alike_of_misuse ?_ ?_
    · rintro ⟨after, read⟩
      obtain ⟨asked, first, last, _⟩ := (exitReading_marked_iff signed.number marked).mp read
      exact reads ⟨asked, first, last⟩
    · rintro ⟨after, read⟩
      obtain ⟨asked, first, last, _⟩ := (exitReading_marked_iff signed.other marked).mp read
      exact reads ⟨asked, first, last⟩

theorem alike_of_last (signed : Signed positive negative value) (asking : OnlyHelp front) :
    AlikeButForSign console (front ++ [positive]) (front ++ [negative]) before := by
  obtain ⟨asked, first⟩ := readAll_onlyHelp false none asking
  exact alike_of_readings
    (exitReading_number_last signed.number signed.undashed asking first)
    (exitReading_negative_last signed.other signed.dashed asking first)

/-- Where something stands behind that names nothing, only the number without a dash is read. -/
theorem parted (signed : Signed positive negative value) (asking : OnlyHelp front)
    (further : back ≠ []) (idle : NamesNothing back) :
    exit.Complains console (front ++ negative :: back) before ∧
      ¬exit.Complains console (front ++ positive :: back) before := by
  simp only [complains_iff, misuse_iff,
    exitReading_negative_iff signed.other signed.dashed asking.unmarked,
    exitReading_number_iff signed.number signed.undashed asking.unmarked]
  exact ⟨fun ⟨_, last⟩ => further last, fun refused => refused ⟨asking, idle⟩⟩

theorem alike_iff (signed : Signed positive negative value) :
    AlikeButForSign console (front ++ positive :: back) (front ++ negative :: back) before ↔
      ¬(OnlyHelp front ∧ back ≠ [] ∧ NamesNothing back) := by
  constructor
  · rintro alike ⟨asking, further, idle⟩
    obtain ⟨misused, read⟩ : exit.Complains console (front ++ negative :: back) before ∧ _ :=
      signed.parted asking further idle
    exact read (alike.misuse.mpr misused)
  · intro joined
    by_cases marked : "--" ∈ front
    · exact signed.alike_of_marked marked
    by_cases asking : OnlyHelp front
    · by_cases last : back = []
      · subst last
        exact signed.alike_of_last asking
      · refine alike_of_misuse ?_ ?_
        · rw [exitReading_number_iff signed.number signed.undashed marked]
          exact fun ⟨_, idle⟩ => joined ⟨asking, last, idle⟩
        · rw [exitReading_negative_iff signed.other signed.dashed marked]
          exact fun ⟨_, nothing⟩ => last nothing
    · refine alike_of_misuse ?_ ?_
      · rw [exitReading_number_iff signed.number signed.undashed marked]
        exact fun ⟨only, _⟩ => asking only
      · rw [exitReading_negative_iff signed.other signed.dashed marked]
        exact fun ⟨only, _⟩ => asking only

end Signed

/-- A negative number is an exit code like the same number without its dash, but for the sign, unless
only requests for help stand before it and words that name nothing behind it. Among such words it is
a mistake, and without its dash it is not. -/
theorem exit_alike_but_for_sign_iff (front back : List String) (digits : List Char)
    (console : ConsoleId) (before : Memory σ) (typed : Text.IsDigits digits)
    (within : Text.digitsValue digits ≤ 2147483647) :
    let positive := front ++ String.ofList digits :: back
    let negative := front ++ String.ofList ('-' :: digits) :: back
    (AlikeButForSign console positive negative before ↔
      ¬(OnlyHelp front ∧ back ≠ [] ∧ NamesNothing back)) ∧
    (OnlyHelp front → back ≠ [] → NamesNothing back →
      exit.Complains console negative before ∧ ¬exit.Complains console positive before) ∧
    (AlikeButForSign console positive negative before →
      ∀ (shell : Shell σ) statement other, shell.Exits console →
        statement.command = exit.name → statement.arguments = positive →
        other.command = exit.name → other.arguments = negative →
        ∀ state step after state' step' after',
          shell.TakesUp state statement step → shell.Turn state step after →
          shell.TakesUp state' other step' → shell.Turn state' step' after' →
          ∀ code, step.ending? = some (.stopped (.stopWith code)) ↔
            step'.ending? = some (.stopped (.stopWith (-code)))) := by
  intro positive negative
  have signed := signed_digits typed within
  refine ⟨signed.alike_iff, signed.parted, ?_⟩
  intro alike shell statement other exits named given called handed state step after state' step'
    after' takes turn takesToo turnToo code
  rw [exits.stopped_iff takes named turn, exits.stopped_iff takesToo called turnToo, given, handed,
    ← stops_iff, ← stops_iff]
  exact alike.stops code

/-- Alone, `-7` asks for the negative exit code. With a `--` behind it, it is refused, and `7` is not. -/
theorem exit_alike_but_for_sign_iff_of_seven :
    let memory : Memory Unit := { client := () }
    Text.IsDigits ['7'] ∧ Text.digitsValue ['7'] ≤ 2147483647 ∧
      AlikeButForSign 0 ["7"] ["-7"] memory ∧ exit.Stops 0 ["-7"] (-7) memory ∧
      exit.Complains 0 ["-7", "--"] memory ∧ ¬exit.Complains 0 ["7", "--"] memory := by
  intro memory
  have typed : Text.IsDigits ['7'] := ⟨nofun, List.forall_mem_singleton.mpr rfl⟩
  have seven : Text.digitsValue ['7'] = 7 := rfl
  have within : Text.digitsValue ['7'] ≤ 2147483647 := by omega
  obtain ⟨alone, _⟩ := exit_alike_but_for_sign_iff [] [] ['7'] 0 memory typed within
  obtain ⟨_, parted, _⟩ := exit_alike_but_for_sign_iff [] ["--"] ['7'] 0 memory typed within
  have alike : AlikeButForSign 0 ["7"] ["-7"] memory := alone.mpr fun ⟨_, further, _⟩ => further rfl
  have stops : exit.Stops 0 ["7"] 7 memory := stops_iff.mpr (by decide +kernel)
  obtain ⟨misused, read⟩ := parted nofun nofun ⟨[], nofun, .inr rfl⟩
  exact ⟨typed, within, alike, (alike.stops 7).mp stops, misused, read⟩

/-- A `--` or a request for help behind a negative number makes it a mistake, and behind the same
number without its dash does not. -/
theorem negative_number_misread :
    let memory : Memory Unit := { client := () }
    exit.Stops 0 ["5", "--"] 5 memory ∧ exit.Complains 0 ["-5", "--"] memory ∧
      exit.ShowsHelp 0 ["5", "help"] memory ∧ exit.Complains 0 ["-5", "help"] memory ∧
      ¬AlikeButForSign 0 ["5", "--"] ["-5", "--"] memory ∧
      ¬AlikeButForSign 0 ["5", "help"] ["-5", "help"] memory := by
  intro memory
  have stops : exit.Stops 0 ["5", "--"] 5 memory := stops_iff.mpr (by decide +kernel)
  have misused : exit.Complains 0 ["-5", "--"] memory :=
    complains_iff.mpr ⟨unrecognized "-5", by decide +kernel⟩
  have shows : exit.ShowsHelp 0 ["5", "help"] memory := showsHelp_iff.mpr (by decide +kernel)
  have refused : exit.Complains 0 ["-5", "help"] memory :=
    complains_iff.mpr ⟨unrecognized "help", by decide +kernel⟩
  refine ⟨stops, misused, shows, refused, fun alike => ?_, fun alike => ?_⟩
  · obtain ⟨_, complains⟩ := alike.misuse.mpr misused
    exact complains.not_stops stops
  · exact shows.not_complains (alike.misuse.mpr refused)

end Builtin

end LineShell
