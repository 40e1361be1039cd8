import LineShell.Proofs.ArgumentReading
import LineShell.Proofs.ExitStatus
import LineShell.Proofs.Numerals
/-!
The arguments of `exit`. It stops the shell if it is given nothing or one exit code, and perhaps a
`--`. Whatever else it is given, it answers with its help or with a complaint, and the loop goes on.
-/

namespace LineShell

variable {σ : Type}

open LineShell.Action

namespace Builtin

open Arguments Arguments.Reading

variable {words : List String} {named : Option Int}

/-- A word that denotes an exit code. -/
structure IsExitCode (word : String) (value : Int) : Prop where
  denotes : Text.Denotes word.toList value
  least : minExitCode ≤ value
  greatest : value ≤ maxExitCode

theorem isExitCode_iff :
    IsExitCode word value ↔ Text.integer minExitCode maxExitCode word = .ok value := by
  rw [Text.integer_eq_ok_iff (by decide) (by decide)]
  exact ⟨fun number => ⟨number.denotes, number.least, number.greatest⟩,
    fun ⟨denotes, least, greatest⟩ => ⟨denotes, least, greatest⟩⟩

theorem IsExitCode.unique (number : IsExitCode word value) (alike : IsExitCode word other) :
    value = other :=
  Except.ok.inj ((isExitCode_iff.mp number).symm.trans (isExitCode_iff.mp alike))

theorem exitRules_onlySwitches : exitRules.OnlySwitches :=
  fun _ _ => nofun

theorem exitRules_value_ok_iff {code given : Option Int} :
    exitRules.value word code = .ok given ↔
      code = none ∧ ∃ value, IsExitCode word value ∧ given = some value := by
  cases code with
  | some taken => simp [exitRules]
  | none =>
    simp only [isExitCode_iff, exitRules]
    cases Text.integer minExitCode maxExitCode word with
    | error reason => simp
    | ok value => simp [eq_comm]

theorem isNegativeNumber_iff :
    isNegativeNumber word = true ↔ ∃ digits, word.toList = '-' :: digits ∧ Text.IsDigits digits := by
  unfold isNegativeNumber
  split
  · rename_i digits letters
    simp only [Bool.and_eq_true, Bool.not_eq_true', List.isEmpty_eq_false_iff, List.all_eq_true,
      letters, List.cons.injEq, true_and, exists_eq_left']
    exact ⟨fun ⟨nonempty, each⟩ => ⟨nonempty, each⟩, fun typed => ⟨typed.nonempty, typed.each⟩⟩
  · rename_i other
    simp only [Bool.false_eq_true, false_iff]
    rintro ⟨digits, letters, _⟩
    exact other digits letters

theorem isDashed_of_isNegativeNumber (negative : isNegativeNumber word = true) :
    isDashed word = true := by
  obtain ⟨digits, letters, _⟩ := isNegativeNumber_iff.mp negative
  simp [isDashed, letters]

theorem not_negative_of_undashed (undashed : isDashed word = false) :
    isNegativeNumber word = false := by
  refine Bool.eq_false_iff.mpr fun negative => ?_
  cases undashed.symm.trans (isDashed_of_isNegativeNumber negative)

theorem eq_of_isHelp (asks : isHelp word = true) : word = "--help" ∨ word = "help" := by
  simpa [isHelp] using asks

theorem IsExitCode.isNegativeNumber (number : IsExitCode word value)
    (dashed : isDashed word = true) : isNegativeNumber word = true := by
  obtain ⟨denotes, _, _⟩ := number
  rw [isDashed, beq_iff_eq] at dashed
  obtain ⟨digits, letters⟩ := List.head?_eq_some_iff.mp dashed
  rw [letters, Text.denotes_minus_iff] at denotes
  exact isNegativeNumber_iff.mpr ⟨digits, letters, denotes.1⟩

theorem IsExitCode.isHelp_eq_false (number : IsExitCode word value) : isHelp word = false := by
  refine Bool.eq_false_iff.mpr fun asks => ?_
  have letters := number.denotes
  rcases eq_of_isHelp asks with rfl | rfl
  · obtain ⟨digits, _⟩ := Text.denotes_minus_iff.mp letters
    exact absurd (digits.each '-' List.mem_cons_self) (by decide)
  · cases letters with
    | unsigned digits => exact absurd (digits.each 'h' List.mem_cons_self) (by decide)

theorem guardNegative_of_marked (marked : "--" ∈ words) : guardNegative words = words :=
  if_pos marked

theorem guardNegative_of_unsigned (unsigned : ∀ word ∈ words, isNegativeNumber word = false) :
    guardNegative words = words := by
  have all : words.dropWhile (fun word => !isNegativeNumber word) = [] := by
    rw [List.dropWhile_eq_nil_iff]
    simpa using unsigned
  rw [guardNegative, all]
  exact ite_self words

theorem guardNegative_of_first {front back : List String} (unmarked : "--" ∉ front ++ word :: back)
    (unsigned : ∀ word ∈ front, isNegativeNumber word = false)
    (negative : isNegativeNumber word = true) :
    guardNegative (front ++ word :: back) = front ++ "--" :: word :: back := by
  have passed : ∀ word ∈ front, (!isNegativeNumber word) = true := by simpa using unsigned
  have dropped : (front ++ word :: back).dropWhile (fun word => !isNegativeNumber word) =
      word :: back := by
    rw [List.dropWhile_append_of_pos passed, List.dropWhile_cons_of_neg (by simp [negative])]
  have taken : (front ++ word :: back).takeWhile (fun word => !isNegativeNumber word) = front := by
    rw [List.takeWhile_append_of_pos passed, List.takeWhile_cons_of_neg (by simp [negative]),
      List.append_nil]
  rw [guardNegative, if_neg unmarked, dropped, taken]

theorem negative_cases (words : List String) :
    (∀ word ∈ words, isNegativeNumber word = false) ∨
    ∃ front word back, words = front ++ word :: back ∧
      (∀ word ∈ front, isNegativeNumber word = false) ∧ isNegativeNumber word = true := by
  cases found : words.find? isNegativeNumber with
  | none => exact .inl (by simpa using List.find?_eq_none.mp found)
  | some word =>
    obtain ⟨negative, front, back, rfl, unsigned⟩ := List.find?_eq_some_iff_append.mp found
    exact .inr ⟨front, word, back, rfl, by simpa using unsigned, negative⟩

theorem next_dashes {help : Bool} :
    next exitRules ⟨false, help, named⟩ "--" = .ok ⟨true, help, named⟩ :=
  next_eq_ok_iff.mpr (.closing rfl rfl)

theorem next_number_iff {help : Bool} {after : Reading (Option Int)}
    (number : IsExitCode word value) (undashed : isDashed word = false) :
    next exitRules ⟨false, help, named⟩ word = .ok after ↔
      named = none ∧ after = ⟨false, help, some value⟩ := by
  simp only [next_eq_ok_iff]
  constructor
  · intro takes
    cases takes with
    | help _ asks => cases number.isHelp_eq_false.symm.trans asks
    | closing _ dashes =>
      subst dashes
      cases undashed
    | switch _ _ dashed => cases undashed.symm.trans dashed
    | value _ accepted =>
      obtain ⟨rfl, other, alike, rfl⟩ := exitRules_value_ok_iff.mp accepted
      cases number.unique alike
      exact ⟨rfl, rfl⟩
  · rintro ⟨rfl, rfl⟩
    exact .value (.inr ⟨number.isHelp_eq_false, undashed⟩)
      (exitRules_value_ok_iff.mpr ⟨rfl, value, number, rfl⟩)

theorem readAll_full_iff {help : Bool} {after : Reading (Option Int)} :
    readAll exitRules ⟨true, help, some value⟩ words = .ok after ↔
      words = [] ∧ after = ⟨true, help, some value⟩ := by
  cases words with
  | nil => simp [eq_comm]
  | cons word rest =>
    simp [readAll_cons_ok_iff, next_eq_ok_iff, takes_plain_iff, exitRules_value_ok_iff]

theorem readAll_plain_iff {help : Bool} {after : Reading (Option Int)} :
    readAll exitRules ⟨true, help, none⟩ words = .ok after ↔
      (words = [] ∧ after = ⟨true, help, none⟩) ∨
      ∃ word value, words = [word] ∧ IsExitCode word value ∧ after = ⟨true, help, some value⟩ := by
  cases words with
  | nil => simp [eq_comm]
  | cons word rest =>
    simp only [readAll_cons_ok_iff, next_eq_ok_iff, takes_plain_iff, exitRules_value_ok_iff,
      reduceCtorEq, false_and, false_or, true_and]
    constructor
    · rintro ⟨_, ⟨_, ⟨value, number, rfl⟩, rfl⟩, later⟩
      obtain ⟨rfl, rfl⟩ := readAll_full_iff.mp later
      exact ⟨word, value, rfl, number, rfl⟩
    · rintro ⟨_, value, same, number, rfl⟩
      obtain ⟨rfl, rfl⟩ := List.cons.inj same
      exact ⟨_, ⟨_, ⟨value, number, rfl⟩, rfl⟩, rfl⟩

/-- After an exit code, nothing but a `--` is taken, unless it asks for help. -/
theorem readAll_named_iff {plain : Bool} :
    readAll exitRules ⟨false, false, some value⟩ words = .ok ⟨plain, false, named⟩ ↔
      named = some value ∧ (words = [] ∧ plain = false ∨ words = ["--"] ∧ plain = true) := by
  cases words with
  | nil => simp [eq_comm, and_comm]
  | cons word rest =>
    simp only [readAll_cons_ok_iff, next_eq_ok_iff, reduceCtorEq, false_and, false_or,
      List.cons.injEq]
    constructor
    · rintro ⟨middle, takes, later⟩
      cases takes with
      | help => cases help_of_readAll later rfl
      | closing _ dashes =>
        obtain ⟨rfl, same⟩ := readAll_full_iff.mp later
        cases same
        exact ⟨rfl, ⟨dashes, rfl⟩, rfl⟩
      | switch _ _ _ _ _ known => cases known
      | value _ accepted => cases (exitRules_value_ok_iff.mp accepted).1
    · rintro ⟨rfl, ⟨rfl, rfl⟩, rfl⟩
      exact ⟨_, .closing rfl rfl, rfl⟩

/-- The words that are read without a request for help, and the exit code that they name. -/
inductive Names : List String → Option Int → Prop where
  | nothing : Names [] none
  | closed : Names ["--"] none
  | number (number : IsExitCode word value) (undashed : isDashed word = false) :
      Names [word] (some value)
  | behind (number : IsExitCode word value) : Names ["--", word] (some value)
  | before (number : IsExitCode word value) (undashed : isDashed word = false) :
      Names [word, "--"] (some value)

theorem readAll_eq_ok_iff_names :
    (∃ plain, readAll exitRules { values := none } words = .ok ⟨plain, false, named⟩) ↔
      Names words named := by
  constructor
  · rintro ⟨plain, read⟩
    cases words with
    | nil =>
      cases read
      exact .nothing
    | cons word rest =>
      obtain ⟨middle, first, later⟩ := readAll_cons_ok_iff.mp read
      cases next_eq_ok_iff.mp first with
      | help => cases help_of_readAll later rfl
      | closing _ dashes =>
        subst dashes
        rcases readAll_plain_iff.mp later with ⟨rfl, same⟩ | ⟨word, value, rfl, number, same⟩
        · cases same
          exact .closed
        · cases same
          exact .behind number
      | switch _ _ _ _ _ known => cases known
      | value free accepted =>
        obtain ⟨_, value, number, rfl⟩ := exitRules_value_ok_iff.mp accepted
        have undashed : isDashed word = false := by
          rcases free with plain | ⟨_, undashed⟩
          · cases plain
          · exact undashed
        obtain ⟨rfl, ⟨rfl, _⟩ | ⟨rfl, _⟩⟩ := readAll_named_iff.mp later
        · exact .number number undashed
        · exact .before number undashed
  · intro names
    cases names with
    | nothing => exact ⟨false, rfl⟩
    | closed => exact ⟨true, readAll_cons_ok_iff.mpr ⟨_, next_dashes, rfl⟩⟩
    | number number undashed =>
      exact ⟨false, readAll_cons_ok_iff.mpr ⟨_, (next_number_iff number undashed).mpr ⟨rfl, rfl⟩, rfl⟩⟩
    | behind number =>
      exact ⟨true, readAll_cons_ok_iff.mpr
        ⟨_, next_dashes, readAll_plain_iff.mpr (.inr ⟨_, _, rfl, number, rfl⟩)⟩⟩
    | before number undashed =>
      exact ⟨true, readAll_cons_ok_iff.mpr ⟨_, (next_number_iff number undashed).mpr ⟨rfl, rfl⟩,
        readAll_named_iff.mpr ⟨rfl, .inr ⟨rfl, rfl⟩⟩⟩⟩

/-- The arguments that ask to exit, and the exit code that they ask for. -/
inductive AsksToExit : List String → Int → Prop where
  | bare : AsksToExit [] 0
  | closed : AsksToExit ["--"] 0
  | number (number : IsExitCode word value) : AsksToExit [word] value
  | behind (number : IsExitCode word value) : AsksToExit ["--", word] value
  | before (number : IsExitCode word value) (undashed : isDashed word = false) :
      AsksToExit [word, "--"] value

theorem AsksToExit.bounds (asks : AsksToExit words value) :
    minExitCode ≤ value ∧ value ≤ maxExitCode := by
  cases asks with
  | bare | closed => decide
  | number number | behind number | before number => exact ⟨number.least, number.greatest⟩

theorem Names.asksToExit (names : Names words named) : AsksToExit words (named.getD 0) := by
  cases names with
  | nothing => exact .bare
  | closed => exact .closed
  | number number => exact .number number
  | behind number => exact .behind number
  | before number undashed => exact .before number undashed

theorem Names.length_le (names : Names words named) : words.length ≤ 2 := by
  cases names <;> simp

/-- A word with a guard in front is read only if it stands alone. -/
theorem Names.of_guarded {front back : List String}
    (names : Names (front ++ "--" :: word :: back) named) :
    front = [] ∧ back = [] ∧ ∃ value, named = some value ∧ IsExitCode word value := by
  have short := names.length_le
  simp only [List.length_append, List.length_cons] at short
  obtain rfl : front = [] := List.length_eq_zero_iff.mp (by omega)
  obtain rfl : back = [] := List.length_eq_zero_iff.mp (by omega)
  cases names with
  | behind number => exact ⟨rfl, rfl, _, rfl, number⟩
  | before _ undashed => exact absurd undashed (by decide)

theorem IsExitCode.names (number : IsExitCode word value) :
    Names (guardNegative [word]) (some value) := by
  cases dashed : isDashed word with
  | true =>
    have negative := number.isNegativeNumber dashed
    have unmarked : "--" ∉ [] ++ [word] := by
      rw [List.nil_append, List.mem_singleton]
      rintro rfl
      exact absurd negative (by decide)
    have guarded := guardNegative_of_first unmarked nofun negative
    rw [List.nil_append] at guarded
    rw [guarded]
    exact .behind number
  | false =>
    have unsigned : ∀ other ∈ [word], Builtin.isNegativeNumber other = false := by
      intro other member
      obtain rfl := List.mem_singleton.mp member
      exact not_negative_of_undashed dashed
    rw [guardNegative_of_unsigned unsigned]
    exact .number number dashed

/-- They are those that name an exit code or none once a negative number is guarded. -/
theorem asksToExit_iff_names :
    AsksToExit words value ↔ ∃ named, Names (guardNegative words) named ∧ named.getD 0 = value := by
  constructor
  · intro asks
    cases asks with
    | bare => exact ⟨none, .nothing, rfl⟩
    | closed =>
      rw [guardNegative_of_marked (by simp)]
      exact ⟨none, .closed, rfl⟩
    | number number =>
      exact ⟨_, number.names, rfl⟩
    | behind number =>
      rw [guardNegative_of_marked (by simp)]
      exact ⟨_, .behind number, rfl⟩
    | before number undashed =>
      rw [guardNegative_of_marked (by simp)]
      exact ⟨_, .before number undashed, rfl⟩
  · rintro ⟨named, names, rfl⟩
    by_cases marked : "--" ∈ words
    · rw [guardNegative_of_marked marked] at names
      exact names.asksToExit
    rcases negative_cases words with unsigned | ⟨front, word, back, rfl, unsigned, negative⟩
    · rw [guardNegative_of_unsigned unsigned] at names
      exact names.asksToExit
    · rw [guardNegative_of_first marked unsigned negative] at names
      obtain ⟨rfl, rfl, value, rfl, number⟩ := names.of_guarded
      exact .number number

theorem exitCode_eq (words : List String) :
    exitCode words = (((readAll exitRules { values := none } (guardNegative words)).mapError
      .misuse).bind answer).map fun code => Int32.ofInt (code.getD 0) := by
  rw [exitCode, read_eq exitRules_onlySwitches]

theorem exitCode_eq_ok_iff_names :
    exitCode words = .ok code ↔
      ∃ named, Names (guardNegative words) named ∧ Int32.ofInt (named.getD 0) = code := by
  simp only [← readAll_eq_ok_iff_names, exitCode_eq]
  cases readAll exitRules { values := none } (guardNegative words) with
  | error text => simp [Except.mapError, Except.bind, Except.map]
  | ok reading =>
    obtain ⟨plain, help, named⟩ := reading
    cases help <;> simp [Except.mapError, Except.bind, Except.map, answer]

theorem AsksToExit.toInt_ofInt (asks : AsksToExit words value) :
    (Int32.ofInt value).toInt = value := by
  obtain ⟨least, greatest⟩ := asks.bounds
  rw [minExitCode] at least
  rw [maxExitCode] at greatest
  exact Int32.toInt_ofInt_of_le (by omega) (by omega)

/-- The arguments of `exit` are accepted just when they ask to exit. -/
theorem exitCode_eq_ok_iff : exitCode words = .ok code ↔ AsksToExit words code.toInt := by
  rw [exitCode_eq_ok_iff_names, asksToExit_iff_names]
  refine exists_congr fun named => and_congr_right fun names => ?_
  have asks : AsksToExit words (named.getD 0) := asksToExit_iff_names.mpr ⟨named, names, rfl⟩
  rw [← Int32.toInt_inj, asks.toInt_ofInt]

theorem AsksToExit.accepted (asks : AsksToExit words value) :
    exitCode words = .ok (Int32.ofInt value) := by
  rw [exitCode_eq_ok_iff, asks.toInt_ofInt]
  exact asks

/-- The command asks the shell to stop with an exit code, and does nothing else. -/
def Stops (builtin : Builtin) (console : ConsoleId) (words : List String) (code : Int32)
    (before : Memory σ) : Prop :=
  ∀ exchanges ended after, (builtin.run console words).Runs before exchanges ended after ↔
    exchanges = [] ∧ ended = .ok (.stopWith code) ∧ after = before

/-- The command writes one text and leaves an outcome, unless the text is refused. -/
def Tells (builtin : Builtin) (console : ConsoleId) (words : List String) (channel : Channel)
    (text : String) (outcome : Outcome) (before : Memory σ) : Prop :=
  ∀ exchanges ended after, (builtin.run console words).Runs before exchanges ended after ↔
    ∃ written, exchanges = [⟨.write console channel text, written⟩] ∧
      ended = (written.mapError .device).map (fun _ => outcome) ∧ after = before

/-- The command shows its help, and that is a success. -/
def ShowsHelp (builtin : Builtin) (console : ConsoleId) (words : List String)
    (before : Memory σ) : Prop :=
  builtin.Tells console words .out (endLine builtin.help) .success before

/-- The command complains about its arguments. -/
def Complains (builtin : Builtin) (console : ConsoleId) (words : List String)
    (before : Memory σ) : Prop :=
  ∃ text, builtin.Tells console words .err (endLine text) (.exit misuseCode) before

variable {console : ConsoleId} {before : Memory σ}

theorem stops_of_exitCode (accepted : exitCode words = .ok code) :
    exit.Stops console words code before := by
  intro exchanges ended after
  simp only [run, accepted]
  exact runs_pure_iff

theorem showsHelp_of_exitCode (refused : exitCode words = .error .help) :
    exit.ShowsHelp console words before := by
  intro exchanges ended after
  simp only [run, refused]
  exact runs_say_pure_iff

theorem complains_of_exitCode (refused : exitCode words = .error (.misuse text)) :
    exit.Complains console words before := by
  refine ⟨text, fun exchanges ended after => ?_⟩
  simp only [run, refused]
  exact runs_say_pure_iff

theorem Tells.not_stops {builtin : Builtin}
    (tells : builtin.Tells console words channel text outcome before) :
    ¬builtin.Stops console words code before := by
  intro stops
  have ran := (stops [] _ _).mpr ⟨rfl, rfl, rfl⟩
  obtain ⟨_, impossible, _⟩ := (tells _ _ _).mp ran
  cases impossible

theorem ShowsHelp.not_complains {builtin : Builtin}
    (shows : builtin.ShowsHelp console words before) :
    ¬builtin.Complains console words before := by
  rintro ⟨text, complains⟩
  have ran := (shows _ _ _).mpr ⟨.ok (), rfl, rfl, rfl⟩
  obtain ⟨_, other, _⟩ := (complains _ _ _).mp ran
  cases other

theorem Stops.unique {builtin : Builtin} (stops : builtin.Stops console words code before)
    (alike : builtin.Stops console words other before) : code = other := by
  have ran := (stops [] _ _).mpr ⟨rfl, rfl, rfl⟩
  obtain ⟨_, same, _⟩ := (alike _ _ _).mp ran
  cases same
  rfl

/-- What `exit` does shows what it made of its arguments. -/
theorem stops_iff : exit.Stops console words code before ↔ exitCode words = .ok code := by
  refine ⟨fun stops => ?_, stops_of_exitCode⟩
  cases answered : exitCode words with
  | ok other => rw [stops.unique (stops_of_exitCode answered)]
  | error refusal =>
    cases refusal with
    | help => exact absurd stops (Tells.not_stops (showsHelp_of_exitCode answered))
    | misuse text =>
      obtain ⟨_, complains⟩ := complains_of_exitCode answered
      exact absurd stops complains.not_stops

theorem showsHelp_iff : exit.ShowsHelp console words before ↔ exitCode words = .error .help := by
  refine ⟨fun shows => ?_, showsHelp_of_exitCode⟩
  cases answered : exitCode words with
  | ok code => exact absurd (stops_of_exitCode answered) (Tells.not_stops shows)
  | error refusal =>
    cases refusal with
    | help => rfl
    | misuse text => exact absurd (complains_of_exitCode answered) shows.not_complains

theorem complains_iff :
    exit.Complains console words before ↔ ∃ text, exitCode words = .error (.misuse text) := by
  refine ⟨fun ⟨text, complains⟩ => ?_, fun ⟨text, refused⟩ => complains_of_exitCode refused⟩
  cases answered : exitCode words with
  | ok code => exact absurd (stops_of_exitCode answered) complains.not_stops
  | error refusal =>
    cases refusal with
    | help => exact absurd ⟨text, complains⟩ (showsHelp_of_exitCode answered).not_complains
    | misuse text => exact ⟨text, rfl⟩

theorem Tells.cases {builtin : Builtin}
    (tells : builtin.Tells console words channel text outcome before)
    (ran : (builtin.run console words).Runs before exchanges ended after) :
    ended = .ok outcome ∨
      ∃ error, .refused console channel text error ∈ exchanges ∧ ended = .error (.device error) := by
  obtain ⟨written, rfl, rfl, _⟩ := (tells _ _ _).mp ran
  cases written with
  | ok => exact .inl rfl
  | error error => exact .inr ⟨error, List.mem_singleton_self _, rfl⟩

/-- Either `exit` stops the shell with the exit code that it was given, or it leaves an outcome that
does not stop the shell, unless what it has to say is refused. -/
theorem exit_cases (ran : (exit.run console words).Runs before exchanges ended after) :
    (∃ code, exitCode words = .ok code ∧ ended = .ok (.stopWith code)) ∨
    (∀ code, exitCode words ≠ .ok code) ∧
      ((∃ outcome, ended = .ok outcome ∧ outcome.stop = false) ∨
        ∃ channel text error, .refused console channel text error ∈ exchanges ∧
          ended = .error (.device error)) := by
  cases answered : exitCode words with
  | ok code =>
    obtain ⟨_, same, _⟩ := (stops_of_exitCode answered _ _ _).mp ran
    exact .inl ⟨code, rfl, same⟩
  | error refusal =>
    refine .inr ⟨nofun, ?_⟩
    cases refusal with
    | help =>
      rcases Tells.cases (showsHelp_of_exitCode answered) ran with same | refused
      · exact .inl ⟨_, same, rfl⟩
      · exact .inr ⟨_, _, refused⟩
    | misuse text =>
      obtain ⟨_, complains⟩ := complains_of_exitCode answered
      rcases complains.cases ran with same | refused
      · exact .inl ⟨_, same, rfl⟩
      · exact .inr ⟨_, _, refused⟩

end Builtin

namespace Shell

variable {shell : Shell σ} {console : ConsoleId}

/-- A step begins with taking a line that is not blank and preparing a statement of it. -/
inductive TakesUp (shell : Shell σ) (before : LoopState σ) (statement : Statement)
    (step : LoopStep) : Prop where
  | intro (took : shell.nextLine.Runs before taking (.ok (some line)) middle)
      (filled : Text.isBlankLine line = false)
      (prepared : shell.Prepared line middle.memory asked statement memory)
      (begins : taking ++ asked <+: step.exchanges shell.console)

/-- What follows on a prepared statement: its command fails, or what the command leaves is handed to
the hooks on outcomes. -/
inductive Dispatched (shell : Shell σ) (statement : Statement) (command : Command σ)
    (before : Memory σ) :
    List Exchange → Except ShellError (Option Outcome) → Memory σ → Prop where
  | failed (ran : (command.run statement).Runs before others (.error broken) after) :
      Dispatched shell statement command before (dispatching statement :: others)
        (.error (.command broken)) after
  | handed (ran : (command.run statement).Runs before others (.ok outcome) middle)
      (handed : OutcomeHooksRun statement shell.hooks.postexecute outcome middle last given after) :
      Dispatched shell statement command before (dispatching statement :: (others ++ last))
        (given.mapError .command) after

/-- Executing a line that begins with preparing a statement goes on with the statement's command. -/
theorem Prepared.dispatched (prepared : shell.Prepared line before asked statement middle)
    (bound : shell.commands.find? statement.command = some command)
    (ran : (shell.execute line).Runs before exchanges ended after)
    (same : exchanges ++ more = asked ++ later) :
    ∃ others, shell.Dispatched statement command middle others ended after ∧
      exchanges = asked ++ others := by
  obtain ⟨parsed, handed⟩ := prepared
  rcases runs_bind_iff.mp ran with
    ⟨error, failed, rfl⟩ | ⟨first, given, held, rest, read, onward, rfl⟩
  · obtain ⟨_, impossible, _⟩ := failed.unique parsed (same.trans (List.append_assoc ..))
    cases impossible
  simp only [List.append_assoc] at same
  obtain ⟨rfl, alike, rfl⟩ := read.unique parsed same
  cases alike
  have same := List.append_cancel_left same
  have hooked : (Action.mapError ShellError.command (shell.hooks.runPostparse _)).Runs _ _ _ _ :=
    runs_mapError_ok_iff.mpr (HookTable.runs_statement_iff.mpr handed)
  rcases runs_bind_iff.mp onward with
    ⟨error, failed, rfl⟩ | ⟨second, given, held, rest, gave, onward, rfl⟩
  · obtain ⟨_, impossible, _⟩ := failed.unique hooked same
    cases impossible
  simp only [List.append_assoc] at same
  obtain ⟨rfl, alike, rfl⟩ := gave.unique hooked same
  cases alike
  simp only [bound] at onward
  obtain ⟨_, announced, rfl⟩ := runs_record_bind_iff.mp onward
  rw [← List.append_assoc]
  rcases runs_bind_iff.mp announced with
    ⟨error, wrapped, rfl⟩ | ⟨others, outcome, kept, last, called, hooked, rfl⟩
  · obtain ⟨broken, failed, rfl⟩ := runs_mapError_error_iff.mp wrapped
    exact ⟨_, .failed failed, rfl⟩
  · obtain ⟨given, handed, rfl⟩ := runs_mapError_iff.mp hooked
    exact ⟨_, .handed (runs_mapError_ok_iff.mp called) (HookTable.runs_outcome_iff.mp handed), rfl⟩

theorem Dispatched.found (dispatched : shell.Dispatched statement command before others ended after)
    (other : Statement) : ended ≠ .error (.commandNotFound other) := by
  cases dispatched with
  | failed => exact nofun
  | @handed _ _ _ _ given => cases given <;> exact nofun

theorem TakesUp.dispatched {before after : LoopState σ} (takes : shell.TakesUp before statement step)
    (bound : shell.commands.find? statement.command = some command)
    (turn : shell.Turn before step after) :
    ∃ memory others last, shell.Dispatched statement command memory others step.result last ∧
      ∀ exchange ∈ others, exchange ∈ step.exchanges shell.console := by
  obtain ⟨took, filled, prepared, later, begins⟩ := takes
  rw [List.append_assoc] at begins
  cases turn with
  | unread other =>
    obtain ⟨_, impossible, _⟩ := took.unique other (begins.trans (List.append_nil _).symm)
    cases impossible
  | endOfInput other met =>
    obtain ⟨_, impossible, _⟩ := took.unique other begins
    cases impossible
  | blank other blank =>
    obtain ⟨_, same, _⟩ := took.unique other (begins.trans (List.append_nil _).symm)
    cases same
    cases filled.symm.trans blank
  | executed other _ ran =>
    obtain ⟨rfl, same, rfl⟩ := took.unique other begins
    cases same
    have begins := List.append_cancel_left begins
    obtain ⟨others, dispatched, rfl⟩ :=
      prepared.dispatched bound ran ((List.append_nil _).trans begins.symm)
    refine ⟨_, others, _, dispatched, fun exchange member => ?_⟩
    simp [LoopStep.exchanges, member]
  | unresolved other _ ran =>
    obtain ⟨rfl, same, rfl⟩ := took.unique other begins
    cases same
    have begins := List.append_cancel_left begins
    obtain ⟨others, dispatched, _⟩ := prepared.dispatched bound ran begins.symm
    exact absurd rfl (dispatched.found _)

/-- What a dispatched command of the shell's own comes to is what it leaves, where the hooks on
outcomes only fill in those that are missing. -/
theorem Dispatched.builtin_cases {builtin : Builtin}
    (dispatched : shell.Dispatched statement (.builtin builtin console) before others ended after)
    (filling : ∀ hook ∈ shell.hooks.postexecute, hook.action = .defaultOutcome) :
    ∃ asked result last, (builtin.run console statement.arguments).Runs before asked result last ∧
      ended = (result.map some).mapError .command ∧ ∀ exchange ∈ asked, exchange ∈ others := by
  cases dispatched with
  | failed ran =>
    obtain ⟨result, worked, same⟩ := runs_map_iff.mp ran
    cases result with
    | ok => cases same
    | error broken =>
      cases same
      exact ⟨_, _, _, worked, rfl, fun exchange member => List.mem_cons_of_mem _ member⟩
  | handed ran handed =>
    obtain ⟨result, worked, same⟩ := runs_map_iff.mp ran
    cases result with
    | error => cases same
    | ok outcome =>
      cases same
      cases handed.eq_of_filling filling rfl
      refine ⟨_, _, _, worked, rfl, fun exchange member => ?_⟩
      exact List.mem_cons_of_mem _ (List.mem_append_left _ member)

/-- A shell in which `exit` writes to a console, and whose hooks on outcomes only fill in those that
are missing. -/
structure Exits (shell : Shell σ) (console : ConsoleId) : Prop where
  bound : shell.commands.find? Builtin.exit.name = some (.builtin .exit console)
  postexecute : ∀ hook ∈ shell.hooks.postexecute, hook.action = .defaultOutcome

/-- What a turn of the loop comes to that takes up an `exit`. -/
theorem Exits.turn_cases {before after : LoopState σ} (exits : shell.Exits console)
    (takes : shell.TakesUp before statement step) (named : statement.command = Builtin.exit.name)
    (turn : shell.Turn before step after) :
    (∃ code, Builtin.exitCode statement.arguments = .ok code ∧
      step.ending? = some (.stopped (.stopWith code))) ∨
    (∀ code, Builtin.exitCode statement.arguments ≠ .ok code) ∧
      (step.ending? = none ∨
        ∃ channel text error, .refused console channel text error ∈ step.exchanges shell.console ∧
          step.ending? = some (.failed (.command (.device error)))) := by
  have bound : shell.commands.find? statement.command = some (.builtin .exit console) := by
    rw [named]
    exact exits.bound
  obtain ⟨_, others, _, dispatched, within⟩ := takes.dispatched bound turn
  obtain ⟨asked, result, _, ran, left, inside⟩ := dispatched.builtin_cases exits.postexecute
  rw [LoopStep.ending?, left]
  rcases Builtin.exit_cases ran with
    ⟨code, accepted, rfl⟩ | ⟨other, ⟨outcome, rfl, going⟩ | ⟨channel, text, error, refused, rfl⟩⟩
  · exact .inl ⟨code, accepted, rfl⟩
  · refine .inr ⟨other, .inl ?_⟩
    simp [Except.map, Except.mapError, Ending.ofResult?, going]
  · exact .inr ⟨other, .inr ⟨channel, text, error, within _ (inside _ refused), rfl⟩⟩

theorem Exits.stopped_iff {before after : LoopState σ} (exits : shell.Exits console)
    (takes : shell.TakesUp before statement step) (named : statement.command = Builtin.exit.name)
    (turn : shell.Turn before step after) :
    step.ending? = some (.stopped (.stopWith code)) ↔
      Builtin.exitCode statement.arguments = .ok code := by
  rcases exits.turn_cases takes named turn with
    ⟨other, accepted, ending⟩ | ⟨refused, ending | ⟨_, _, _, _, ending⟩⟩
  · simp [accepted, ending, Outcome.stopWith]
  · simp [refused, ending]
  · simp [refused, ending]

end Shell

namespace Builtin

/-- `exit` stops the shell just when its arguments ask for that. They are none, `--`, an exit code,
`--` and an exit code, or an exit code without a dash and `--`. Then it stops with that exit code, or
with zero, and writes nothing. On all other arguments it shows its help or complains, and the loop goes
on, unless what it writes is refused. -/
theorem exit_stops_iff_asks (words : List String) (console : ConsoleId) (before : Memory σ) :
    ((∃ exchanges outcome after,
      (exit.run console words).Runs before exchanges (.ok outcome) after ∧ outcome.stop = true) ↔
        ∃ value, AsksToExit words value) ∧
    (∀ value, AsksToExit words value →
      ∃ code : Int32, code.toInt = value ∧ exit.Stops console words code before) ∧
    ((∀ value, ¬AsksToExit words value) →
      exit.ShowsHelp console words before ∨ exit.Complains console words before) ∧
    ∀ (shell : Shell σ) state statement step after, shell.Exits console →
      statement.command = exit.name → statement.arguments = words →
      shell.TakesUp state statement step → shell.Turn state step after →
        (∀ value, AsksToExit words value →
          ∃ code : Int32, code.toInt = value ∧ step.ending? = some (.stopped (.stopWith code))) ∧
        ((∀ value, ¬AsksToExit words value) →
          step.ending? = none ∨
          ∃ channel text error,
            .refused console channel text error ∈ step.exchanges shell.console ∧
            step.ending? = some (.failed (.command (.device error)))) := by
  refine ⟨?stopping, ?accepted, ?refused, ?loop⟩
  case stopping =>
    constructor
    · rintro ⟨exchanges, outcome, after, ran, stop⟩
      rcases exit_cases ran with ⟨code, accepted, _⟩ | ⟨_, ⟨_, same, going⟩ | ⟨_, _, _, _, same⟩⟩
      · exact ⟨_, exitCode_eq_ok_iff.mp accepted⟩
      · cases same
        cases stop.symm.trans going
      · cases same
    · rintro ⟨value, asks⟩
      have stops : exit.Stops console words _ before := stops_of_exitCode asks.accepted
      exact ⟨_, _, _, (stops _ _ _).mpr ⟨rfl, rfl, rfl⟩, rfl⟩
  case accepted =>
    intro value asks
    exact ⟨_, asks.toInt_ofInt, stops_of_exitCode asks.accepted⟩
  case refused =>
    intro asksNot
    cases answered : exitCode words with
    | ok code => exact absurd (exitCode_eq_ok_iff.mp answered) (asksNot _)
    | error refusal =>
      cases refusal with
      | help => exact .inl (showsHelp_of_exitCode answered)
      | misuse text => exact .inr (complains_of_exitCode answered)
  case loop =>
    rintro shell state statement step after exits named rfl takes turn
    rcases exits.turn_cases takes named turn with ⟨code, accepted, ending⟩ | ⟨other, ending⟩
    · refine ⟨fun value asks => ?_, fun asksNot => ?_⟩
      · cases accepted.symm.trans asks.accepted
        exact ⟨_, asks.toInt_ofInt, ending⟩
      · exact absurd (exitCode_eq_ok_iff.mp accepted) (asksNot _)
    · exact ⟨fun value asks => absurd asks.accepted (other _), fun _ => ending⟩

/-- The least exit code stops a shell. The number below it does not, and the loop goes on. -/
theorem exit_stops_iff_asks_of_least :
    let shell : Shell Unit := { commands := NameTable.insert ∅ "exit" (.builtin .exit 0) }
    let memory : Memory Unit := { client := () }
    let statement : Statement := ⟨"exit -2147483649", ["exit", "-2147483649"]⟩
    exit.Stops 0 ["-2147483648"] (-2147483648) memory ∧
      exit.Complains 0 statement.arguments memory ∧
      ∃ text step after, shell.Turn ⟨{ queue := [statement.raw] }, memory⟩ step after ∧
        step.exchanges 0 = [Shell.dispatching statement, ⟨.write 0 .err text, .ok ()⟩] ∧
        step.ending? = none := by
  intro shell memory statement
  have asks : AsksToExit ["-2147483648"] (-2147483648) :=
    .number (isExitCode_iff.mpr (by decide +kernel))
  have refused : exitCode statement.arguments =
      .error (.misuse (Arguments.badValue "code" "-2147483649" Text.IntegerError.tooSmall.message)) := by
    decide +kernel
  have asksNot : ∀ value, ¬AsksToExit statement.arguments value :=
    fun value asks => by cases refused.symm.trans asks.accepted
  obtain ⟨_, stops, _⟩ := exit_stops_iff_asks ["-2147483648"] 0 memory
  obtain ⟨_, _, answers, loop⟩ := exit_stops_iff_asks statement.arguments 0 memory
  obtain ⟨code, same, stopped⟩ := stops _ asks
  obtain rfl : code = -2147483648 := Int32.toInt_inj.mp same
  have complains : exit.Complains 0 statement.arguments memory := by
    refine (answers asksNot).resolve_left fun shows => ?_
    cases refused.symm.trans (showsHelp_iff.mp shows)
  obtain ⟨text, tells⟩ := id complains
  have split : WordRule.simple.parse "exit -2147483649" = .ok statement := by rfl
  have parsed : (shell.parser.parse statement.raw).Runs memory [] (.ok statement) memory :=
    Parser.runs_words_iff.mpr ⟨rfl, split.symm, rfl⟩
  have prepared : shell.Prepared statement.raw memory [] statement memory := .intro parsed .done
  have ran : ((Command.builtin .exit 0).run statement).Runs memory
      [⟨.write 0 .err (endLine text), .ok ()⟩] (.ok (some (.exit misuseCode))) memory :=
    runs_map_iff.mpr ⟨_, (tells _ _ _).mpr ⟨.ok (), rfl, rfl, rfl⟩, rfl⟩
  have executed := Shell.runs_of_pipeline (.done prepared rfl ran .done)
  have took : shell.nextLine.Runs ⟨{ queue := [statement.raw] }, memory⟩ []
      (.ok (some statement.raw)) ⟨{}, memory⟩ :=
    Shell.runs_nextLine_queued_iff.mpr ⟨rfl, rfl, rfl⟩
  have turn := Shell.Turn.executed took (by decide) executed nofun
  have exits : shell.Exits 0 := ⟨rfl, nofun⟩
  obtain ⟨_, goes⟩ := loop shell _ statement _ _ exits rfl rfl
    (.intro took (by decide) prepared List.nil_prefix) turn
  refine ⟨stopped, complains, endLine text, _, _, turn, rfl, ?_⟩
  rcases goes asksNot with going | ⟨channel, other, error, member, _⟩
  · exact going
  · simp [LoopStep.exchanges, Exchange.refused, Shell.dispatching, Action.recorded] at member

end Builtin

end LineShell
