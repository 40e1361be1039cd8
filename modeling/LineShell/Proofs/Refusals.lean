import LineShell.Proofs.ExitArguments
import LineShell.Proofs.Quoting
/-!
Arguments that are refused. A command of the shell's own reads all its arguments before it does
anything else. If one of them is rejected, or they ask for help, it answers with one text and has no
other effect. If not, it writes nothing to the error channel.
-/

namespace LineShell

variable {α σ : Type}

open LineShell.Action

namespace Arguments

namespace Reading

/-- The words are taken one after the other. -/
inductive TakesAll (rules : ArgumentRules α) : Reading α → List String → Reading α → Prop where
  | nil : TakesAll rules reading [] reading
  | cons (first : Takes rules reading word middle) (later : TakesAll rules middle rest after) :
      TakesAll rules reading (word :: rest) after

/-- Why a word is not taken: it is a flag behind a request for help, it is no known flag, or it is a
value that the rules do not accept. -/
inductive Rejects (rules : ArgumentRules α) (reading : Reading α) (word : String) :
    String → Prop where
  | late (opened : reading.plain = false) (silent : isHelp word = false)
      (dashed : isDashed word = true) (other : word ≠ "--") (asked : reading.help = true) :
      Rejects rules reading word afterHelp
  | unknown (opened : reading.plain = false) (silent : isHelp word = false)
      (dashed : isDashed word = true) (other : word ≠ "--") (unasked : reading.help = false)
      (unknown : rules.flag? word = none) : Rejects rules reading word (unrecognized word)
  | value (free : reading.plain = true ∨ isHelp word = false ∧ isDashed word = false)
      (refused : rules.value word reading.values = .error text) : Rejects rules reading word text

variable {rules : ArgumentRules α} {reading : Reading α} {word : String} {words : List String}

theorem next_eq_error_iff (switches : rules.OnlySwitches) :
    next rules reading word = .error text ↔ Rejects rules reading word text := by
  constructor
  · intro refused
    unfold next at refused
    split at refused
    case isTrue => cases refused
    case isFalse silent =>
    split at refused
    case isTrue dashed =>
      obtain ⟨opened, dashed⟩ : reading.plain = false ∧ isDashed word = true := by
        simpa using dashed
      have silent : isHelp word = false := by simpa [opened] using silent
      split at refused
      case isTrue => cases refused
      case isFalse other =>
      split at refused
      case isTrue asked =>
        cases refused
        exact .late opened silent dashed other asked
      case isFalse unasked =>
        have unasked : reading.help = false := by simpa using unasked
        cases flag : rules.flag? word with
        | none =>
          simp only [flag, Except.error.injEq] at refused
          subst refused
          exact .unknown opened silent dashed other unasked flag
        | some known =>
          cases known with
          | switch set => simp [flag] at refused
          | valued set => exact absurd flag (switches word set)
    case isFalse undashed =>
      cases read : rules.value word reading.values with
      | ok values => simp [read, Except.map] at refused
      | error complaint =>
        rw [read] at refused
        cases refused
        refine .value ?_ read
        cases plain : reading.plain with
        | true => exact .inl rfl
        | false => exact .inr (by simpa [plain] using And.intro silent undashed)
  · intro rejects
    cases rejects with
    | late opened silent dashed other asked => simp [next, opened, silent, dashed, other, asked]
    | unknown opened silent dashed other unasked unknown =>
      simp [next, opened, silent, dashed, other, unasked, unknown]
    | value free refused =>
      rcases free with plain | ⟨silent, undashed⟩
      · simp [next, plain, refused, Except.map]
      · simp [next, silent, undashed, refused, Except.map]

theorem readAll_eq_ok_iff_takesAll {after : Reading α} :
    readAll rules reading words = .ok after ↔ TakesAll rules reading words after := by
  induction words generalizing reading with
  | nil =>
    constructor
    · intro read
      cases read
      exact .nil
    · rintro ⟨⟩
      rfl
  | cons word rest ih =>
    simp only [readAll_cons_ok_iff, next_eq_ok_iff, ih]
    constructor
    · rintro ⟨middle, first, later⟩
      exact .cons first later
    · rintro (_ | ⟨first, later⟩)
      exact ⟨_, first, later⟩

/-- Reading fails at the first word that is not taken. -/
theorem readAll_eq_error_iff (switches : rules.OnlySwitches) :
    readAll rules reading words = .error text ↔
      ∃ front word back middle, words = front ++ word :: back ∧
        TakesAll rules reading front middle ∧ Rejects rules middle word text := by
  constructor
  · intro refused
    -- The first word is the one that is not taken, or it is taken and stands before that one.
    induction words generalizing reading with
    | nil => cases refused
    | cons word rest ih =>
      rw [readAll_cons] at refused
      cases first : next rules reading word with
      | error complaint =>
        rw [first] at refused
        cases refused
        exact ⟨[], word, rest, reading, rfl, .nil, (next_eq_error_iff switches).mp first⟩
      | ok middle =>
        rw [first] at refused
        obtain ⟨front, bad, back, reached, rfl, taken, rejects⟩ := ih refused
        exact ⟨word :: front, bad, back, reached, rfl, .cons (next_eq_ok_iff.mp first) taken, rejects⟩
  · rintro ⟨front, word, back, middle, rfl, taken, rejects⟩
    rw [readAll_append, readAll_eq_ok_iff_takesAll.mpr taken]
    have failed := (next_eq_error_iff switches).mpr rejects
    simp [Except.bind, readAll_cons, failed]

end Reading

open Reading

/-- Why arguments are not carried out: a word is rejected when those before it have been taken, or all
are taken and help has been asked for. -/
inductive Refuses (rules : ArgumentRules α) (start : α) : List String → Refusal → Prop where
  | misuse (taken : TakesAll rules { values := start } front middle)
      (rejects : Rejects rules middle word text) :
      Refuses rules start (front ++ word :: back) (.misuse text)
  | help (taken : TakesAll rules { values := start } words after) (asked : after.help = true) :
      Refuses rules start words .help

variable {rules : ArgumentRules α} {start : α} {words : List String}

theorem read_eq_error_iff (switches : rules.OnlySwitches) :
    read rules start words = .error refusal ↔ Refuses rules start words refusal := by
  rw [read_eq switches]
  constructor
  · intro refused
    cases reading : readAll rules { values := start } words with
    | error text =>
      rw [reading] at refused
      cases refused
      obtain ⟨front, word, back, middle, rfl, taken, rejects⟩ :=
        (readAll_eq_error_iff switches).mp reading
      exact .misuse taken rejects
    | ok after =>
      cases asked : after.help with
      | true =>
        simp only [reading, Except.mapError, Except.bind, answer, asked] at refused
        cases refused
        exact .help (readAll_eq_ok_iff_takesAll.mp reading) asked
      | false => simp [reading, Except.mapError, Except.bind, answer, asked] at refused
  · intro refuses
    cases refuses with
    | misuse taken rejects =>
      rw [(readAll_eq_error_iff switches).mpr ⟨_, _, _, _, rfl, taken, rejects⟩]
      rfl
    | help taken asked =>
      rw [readAll_eq_ok_iff_takesAll.mpr taken]
      simp [Except.mapError, Except.bind, answer, asked]

/-- What a complaint says about a word. -/
inductive Complaint (word : String) : String → Prop where
  | late : Complaint word afterHelp
  | unrecognized : Complaint word (unrecognized word)
  | badValue (name reason : String) : Complaint word (badValue name word reason)

/-- What the rules say of a value that they do not accept is a complaint about it. -/
def Explains (rules : ArgumentRules α) : Prop :=
  ∀ word values text, rules.value word values = .error text → Complaint word text

theorem Reading.Rejects.complaint {reading : Reading α} {word : String} (explains : Explains rules)
    (rejects : Rejects rules reading word text) : Complaint word text := by
  cases rejects with
  | late => exact .late
  | unknown => exact .unrecognized
  | value _ refused => exact explains _ _ _ refused

theorem Refuses.complaint (explains : Explains rules)
    (refuses : Refuses rules start words (.misuse text)) : ∃ word ∈ words, Complaint word text := by
  cases refuses with
  | misuse _ rejects => exact ⟨_, List.mem_append_right _ List.mem_cons_self, rejects.complaint explains⟩

end Arguments

/-- A text of at least one character and a newline. -/
def IsNotice (text : String) : Prop :=
  ∃ body, body ≠ "" ∧ text = body ++ "\n"

namespace Builtin

open Arguments Arguments.Reading

variable {builtin : Builtin} {words : List String} {refusal : Refusal} {console : ConsoleId}
  {before : Memory σ}

theorem append_ne_empty {front : String} (nonempty : front ≠ "") (back : String) :
    front ++ back ≠ "" :=
  fun empty => nonempty (String.append_eq_empty_iff.mp empty).1

theorem isNotice_endLine {front last : String} (nonempty : front ≠ "")
    (ended : last.toList.getLast? = some '\n') : IsNotice (endLine (front ++ last)) := by
  obtain ⟨body, letters⟩ := List.getLast?_eq_some_iff.mp ended
  have whole : (front ++ last).toList.getLast? = some '\n' := by simp [letters]
  rw [endLine, if_pos whole]
  exact ⟨front ++ String.ofList body, append_ne_empty nonempty _, String.ext (by simp [letters])⟩

theorem isNotice_help (builtin : Builtin) : IsNotice (endLine builtin.help) := by
  cases builtin with
  | exit | echo | hist =>
    refine isNotice_endLine ?_ (by decide)
    repeat refine append_ne_empty ?_ _
    decide

theorem isNotice_complaint (complaint : Complaint word text) : IsNotice (endLine text) := by
  cases complaint with
  | late => exact ⟨afterHelp, by decide, rfl⟩
  | unrecognized =>
    have front : "Unrecognized argument: " ≠ "" := by decide
    exact isNotice_endLine (append_ne_empty front _) rfl
  | badValue name reason =>
    have front : "Error parsing positional argument '" ≠ "" := by decide
    have named := append_ne_empty (append_ne_empty front name) "' with value '"
    have given := append_ne_empty (append_ne_empty named word) "': "
    exact isNotice_endLine (append_ne_empty given reason) rfl

theorem histRules_onlySwitches : histRules.OnlySwitches := by
  intro word set known
  simp only [histRules] at known
  split at known <;> cases known

theorem exitRules_explains : Explains exitRules := by
  intro word code text refused
  simp only [exitRules] at refused
  split at refused
  · cases refused
    exact .unrecognized
  · split at refused
    · cases refused
    · cases refused
      exact .badValue _ _

theorem echoRules_explains : Explains echoRules :=
  fun _ _ _ => nofun

theorem histRules_explains : Explains histRules := by
  intro word hist text refused
  simp only [histRules] at refused
  split at refused
  · cases refused
    exact .unrecognized
  · split at refused
    · cases refused
    · cases refused
      exact .badValue _ _

/-- The rules of a command refuse arguments. For `exit`, a negative number is guarded first. -/
def Refuses : Builtin → List String → Refusal → Prop
  | exit, words => Arguments.Refuses exitRules none (guardNegative words)
  | echo, words => Arguments.Refuses echoRules {} words
  | hist, words => Arguments.Refuses histRules {} words

theorem refuses_exit_iff : exit.Refuses words refusal ↔ exitCode words = .error refusal := by
  rw [Refuses, ← read_eq_error_iff exitRules_onlySwitches, exitCode]
  cases read exitRules none (guardNegative words) <;> simp [Except.map]

theorem refuses_echo_iff : echo.Refuses words refusal ↔ echoText words = .error refusal := by
  rw [Refuses, ← read_eq_error_iff echoRules_onlySwitches, echoText]
  cases read echoRules {} words <;> simp [Except.map]

theorem refuses_hist_iff : hist.Refuses words refusal ↔ histArguments words = .error refusal := by
  rw [Refuses, ← read_eq_error_iff histRules_onlySwitches, histArguments]

theorem Refuses.unique (refuses : builtin.Refuses words refusal)
    (alike : builtin.Refuses words other) : refusal = other := by
  cases builtin with
  | exit => exact Except.error.inj ((refuses_exit_iff.mp refuses).symm.trans (refuses_exit_iff.mp alike))
  | echo => exact Except.error.inj ((refuses_echo_iff.mp refuses).symm.trans (refuses_echo_iff.mp alike))
  | hist => exact Except.error.inj ((refuses_hist_iff.mp refuses).symm.trans (refuses_hist_iff.mp alike))

theorem Refuses.complaint (refuses : builtin.Refuses words (.misuse text)) :
    ∃ word, Complaint word text := by
  cases builtin with
  | exit =>
    obtain ⟨word, _, complaint⟩ := Arguments.Refuses.complaint exitRules_explains refuses
    exact ⟨word, complaint⟩
  | echo =>
    obtain ⟨word, _, complaint⟩ := Arguments.Refuses.complaint echoRules_explains refuses
    exact ⟨word, complaint⟩
  | hist =>
    obtain ⟨word, _, complaint⟩ := Arguments.Refuses.complaint histRules_explains refuses
    exact ⟨word, complaint⟩

/-- A command with refused arguments does nothing but answer the refusal. -/
theorem Refuses.run_eq (refuses : builtin.Refuses words refusal) (console : ConsoleId) :
    (builtin.run console words : Action Failure (Memory σ) Outcome) =
      builtin.refuse console refusal := by
  cases builtin with
  | exit => simp only [run, refuses_exit_iff.mp refuses]
  | echo => simp only [run, refuses_echo_iff.mp refuses]
  | hist => simp only [run, refuses_hist_iff.mp refuses]

/-- The command answers a refusal with one text, and leaves an outcome that lets the loop go on. -/
inductive Declines (builtin : Builtin) (console : ConsoleId) (words : List String)
    (before : Memory σ) : Refusal → Prop where
  | help (notice : IsNotice (endLine builtin.help))
      (tells : builtin.Tells console words .out (endLine builtin.help) (.exit 0) before) :
      Declines builtin console words before .help
  | misuse (complaint : Complaint word text) (notice : IsNotice (endLine text))
      (tells : builtin.Tells console words .err (endLine text) (.exit 2) before) :
      Declines builtin console words before (.misuse text)

theorem Refuses.declines (refuses : builtin.Refuses words refusal) :
    builtin.Declines console words before refusal := by
  cases refusal with
  | help =>
    refine .help (isNotice_help builtin) fun exchanges ended after => ?_
    rw [refuses.run_eq]
    exact runs_say_pure_iff
  | misuse text =>
    obtain ⟨word, complaint⟩ := refuses.complaint
    refine .misuse complaint (isNotice_complaint complaint) fun exchanges ended after => ?_
    rw [refuses.run_eq]
    exact runs_say_pure_iff

/-- One text is written and no stop is asked for, unless the text is refused. -/
theorem Declines.cases (declines : builtin.Declines console words before refusal)
    (ran : (builtin.run console words).Runs before exchanges ended after) :
    (∃ code, ended = .ok (.exit code)) ∨
      ∃ channel text error, .refused console channel text error ∈ exchanges ∧
        ended = .error (.device error) := by
  cases declines with
  | help _ tells | misuse _ _ tells =>
    rcases tells.cases ran with same | refused
    · exact .inl ⟨_, same⟩
    · exact .inr ⟨_, _, refused⟩

/-- The command forgets the history, and does nothing else. -/
def Clears (builtin : Builtin) (console : ConsoleId) (words : List String)
    (before : Memory σ) : Prop :=
  ∀ exchanges ended after, (builtin.run console words).Runs before exchanges ended after ↔
    exchanges = [] ∧ ended = .ok .success ∧
      after = { before with history := before.history.clear }

/-- The command has its own effect. -/
inductive CarriesOut (console : ConsoleId) (words : List String) (before : Memory σ) :
    Builtin → Prop where
  | exit (accepted : exitCode words = .ok code) (stops : exit.Stops console words code before) :
      CarriesOut console words before exit
  | echo (accepted : echoText words = .ok text)
      (tells : echo.Tells console words .out text .success before) :
      CarriesOut console words before echo
  | clear {count : Option Nat} (accepted : histArguments words = .ok { clear := true, count })
      (clears : hist.Clears console words before) : CarriesOut console words before hist
  | list {count : Option Nat} (accepted : histArguments words = .ok { clear := false, count })
      (tells : hist.Tells console words .out (before.history.listing count) .success before) :
      CarriesOut console words before hist

theorem carriesOut_of_accepted (accepted : ∀ refusal, ¬builtin.Refuses words refusal) :
    builtin.CarriesOut console words before := by
  cases builtin with
  | exit =>
    cases read : exitCode words with
    | error refusal => exact absurd (refuses_exit_iff.mpr read) (accepted refusal)
    | ok code => exact .exit read (stops_of_exitCode read)
  | echo =>
    cases read : echoText words with
    | error refusal => exact absurd (refuses_echo_iff.mpr read) (accepted refusal)
    | ok text => exact .echo read fun _ _ _ => runs_echo_iff read
  | hist =>
    cases read : histArguments words with
    | error refusal => exact absurd (refuses_hist_iff.mpr read) (accepted refusal)
    | ok hist =>
      obtain ⟨clear, count⟩ := hist
      cases clear with
      | true =>
        refine .clear read fun exchanges ended after => ?_
        simp only [run, read]
        exact runs_modify_bind_iff.trans runs_pure_iff
      | false =>
        refine .list read fun exchanges ended after => ?_
        simp only [run, read]
        exact runs_get_bind_iff.trans runs_say_pure_iff

theorem CarriesOut.written_err (carries : builtin.CarriesOut console words before)
    (ran : (builtin.run console words).Runs before exchanges ended after) (place : ConsoleId) :
    written place .err exchanges = [] := by
  cases carries with
  | exit _ stops =>
    obtain ⟨rfl, _⟩ := (stops _ _ _).mp ran
    rfl
  | clear _ clears =>
    obtain ⟨rfl, _⟩ := (clears _ _ _).mp ran
    rfl
  | echo _ tells | list _ tells =>
    obtain ⟨_, rfl, _⟩ := (tells _ _ _).mp ran
    simp [written, Request.text?]

end Builtin

/-- A turn that takes up a command of the shell's own with refused arguments lets the loop go on,
unless the answer is refused. -/
theorem Shell.TakesUp.goes_on {shell : Shell σ} {state after : LoopState σ} {builtin : Builtin}
    {console : ConsoleId} (takes : shell.TakesUp state statement step)
    (bound : shell.commands.find? statement.command = some (.builtin builtin console))
    (filling : ∀ hook ∈ shell.hooks.postexecute, hook.action = .defaultOutcome)
    (refuses : builtin.Refuses statement.arguments refusal)
    (turn : shell.Turn state step after) :
    step.ending? = none ∨
      ∃ channel text error, .refused console channel text error ∈ step.exchanges shell.console ∧
        step.ending? = some (.failed (.command (.device error))) := by
  obtain ⟨_, others, _, dispatched, within⟩ := takes.dispatched bound turn
  obtain ⟨asked, result, _, ran, left, inside⟩ := dispatched.builtin_cases filling
  rw [LoopStep.ending?, left]
  rcases refuses.declines.cases ran with ⟨code, rfl⟩ | ⟨channel, text, error, refused, rfl⟩
  · exact .inl rfl
  · exact .inr ⟨channel, text, error, within _ (inside _ refused), rfl⟩

namespace Builtin

/-- Arguments that are refused have no effect: the command writes one notice, leaves an outcome that
does not stop the loop, and changes nothing, whatever stands before or behind the word in question.
With all other arguments the command has its own effect, and writes nothing to an error channel. -/
theorem refused_arguments_have_no_effect (builtin : Builtin) (words : List String)
    (console : ConsoleId) (before : Memory σ) :
    (∀ refusal, builtin.Refuses words refusal →
      builtin.Declines console words before refusal ∧
      ∀ (shell : Shell σ) state statement step after,
        shell.commands.find? statement.command = some (.builtin builtin console) →
        (∀ hook ∈ shell.hooks.postexecute, hook.action = .defaultOutcome) →
        statement.arguments = words →
        shell.TakesUp state statement step → shell.Turn state step after →
          step.ending? = none ∨
          ∃ channel text error,
            .refused console channel text error ∈ step.exchanges shell.console ∧
            step.ending? = some (.failed (.command (.device error)))) ∧
    ((∀ refusal, ¬builtin.Refuses words refusal) →
      builtin.CarriesOut console words before ∧
      ∀ exchanges ended after, (builtin.run console words).Runs before exchanges ended after →
        ∀ place, written place .err exchanges = []) := by
  constructor
  · rintro refusal refuses
    refine ⟨refuses.declines, ?_⟩
    rintro shell state statement step after bound filling rfl takes turn
    exact takes.goes_on bound filling refuses turn
  · intro accepted
    have carries : builtin.CarriesOut console words before := carriesOut_of_accepted accepted
    exact ⟨carries, fun _ _ _ ran place => carries.written_err ran place⟩

/-- A bad number behind `-c`: the history is neither forgotten nor listed, and the loop goes on.
Without the number, it is forgotten. -/
theorem refused_arguments_have_no_effect_of_late :
    let shell : Shell Unit := { commands := NameTable.insert ∅ "hist" (.builtin .hist 0) }
    let memory : Memory Unit := { history := { entries := ["ls", "cd"] }, client := () }
    let statement : Statement := ⟨"hist -c x", ["hist", "-c", "x"]⟩
    let text := Arguments.badValue "count" "x" Text.IntegerError.invalidDigit.message
    hist.Declines 0 statement.arguments memory (.misuse text) ∧
      hist.CarriesOut 0 ["-c"] memory ∧
      ∃ step after, shell.Turn ⟨{ queue := [statement.raw] }, memory⟩ step after ∧
        step.exchanges 0 = [Shell.dispatching statement, ⟨.write 0 .err (endLine text), .ok ()⟩] ∧
        step.ending? = none ∧ after.memory = memory := by
  intro shell memory statement text
  have refuses : hist.Refuses statement.arguments (.misuse text) :=
    refuses_hist_iff.mpr (by decide +kernel)
  have accepted : ∀ refusal, ¬hist.Refuses ["-c"] refusal := by
    intro refusal other
    have read : histArguments ["-c"] = .ok { clear := true } := by decide +kernel
    cases read.symm.trans (refuses_hist_iff.mp other)
  obtain ⟨answers, _⟩ := refused_arguments_have_no_effect hist statement.arguments 0 memory
  obtain ⟨declines, loop⟩ := answers _ refuses
  obtain ⟨_, carries⟩ := refused_arguments_have_no_effect hist ["-c"] 0 memory
  have split : WordRule.simple.parse "hist -c x" = .ok statement := by rfl
  have parsed : (shell.parser.parse statement.raw).Runs memory [] (.ok statement) memory :=
    Parser.runs_words_iff.mpr ⟨rfl, split.symm, rfl⟩
  have prepared : shell.Prepared statement.raw memory [] statement memory := .intro parsed .done
  have told : ((Command.builtin .hist 0).run statement).Runs memory
      [⟨.write 0 .err (endLine text), .ok ()⟩] (.ok (some (.exit 2))) memory := by
    cases declines with
    | misuse _ _ tells => exact runs_map_iff.mpr ⟨_, (tells _ _ _).mpr ⟨.ok (), rfl, rfl, rfl⟩, rfl⟩
  have executed := Shell.runs_of_pipeline (.done prepared rfl told .done)
  have took : shell.nextLine.Runs ⟨{ queue := [statement.raw] }, memory⟩ []
      (.ok (some statement.raw)) ⟨{}, memory⟩ :=
    Shell.runs_nextLine_queued_iff.mpr ⟨rfl, rfl, rfl⟩
  have turn := Shell.Turn.executed took (by decide) executed nofun
  have goes := loop shell _ statement _ _ rfl nofun rfl
    (.intro took (by decide) prepared List.nil_prefix) turn
  refine ⟨declines, (carries accepted).1, _, _, turn, rfl, ?_, rfl⟩
  rcases goes with going | ⟨channel, other, error, member, _⟩
  · exact going
  · simp [LoopStep.exchanges, Exchange.refused, Shell.dispatching, Action.recorded] at member

end Builtin

end LineShell
