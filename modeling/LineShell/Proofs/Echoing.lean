import LineShell.Proofs.Refusals
/-!
What `echo` writes. The flags at the front leave the line open. The first word behind them decides how
the rest is read: as values to be written as they are, or as arguments that are refused.
-/

namespace LineShell

variable {σ : Type}

open LineShell.Action

namespace Builtin

open Arguments Arguments.Reading

/-- The flag that leaves the line open, in its short or its long form. -/
def leavesOpen (word : String) : Bool :=
  word == "-n" || word == "--no-newline"

/-- The values that `echo` takes from the words behind its flags: none, all words behind `--`, or all
words if the first of them neither has a dash nor asks for help. -/
inductive Gives : List String → List String → Prop where
  | nothing : Gives [] []
  | marked (values : List String) : Gives ("--" :: values) values
  | undashed (undashed : isDashed first = false) (silent : first ≠ "help") :
      Gives (first :: later) (first :: later)

variable {words rest values : List String} {first : String} {given : EchoArguments}

theorem leavesOpen_iff : leavesOpen word = true ↔ word = "-n" ∨ word = "--no-newline" := by
  simp [leavesOpen]

theorem next_flag (opens : leavesOpen word = true) :
    next echoRules { values := given } word = .ok { values := { given with noNewline := true } } := by
  rw [leavesOpen_iff] at opens
  have known : echoRules.flag? word = some (.switch fun echo => { echo with noNewline := true }) :=
    if_pos opens
  refine next_eq_ok_iff.mpr (.switch rfl ?_ ?_ ?_ rfl known) <;>
    rcases opens with rfl | rfl <;> decide

theorem readAll_flags (opens : ∀ word ∈ flags, leavesOpen word = true) :
    readAll echoRules { values := given } flags =
      .ok { values := { given with noNewline := given.noNewline || !flags.isEmpty } } := by
  induction flags generalizing given with
  | nil => simp
  | cons word later ih =>
    obtain ⟨first, others⟩ := List.forall_mem_cons.mp opens
    rw [readAll_cons, next_flag first, Except.bind, ih others]
    simp

/-- Behind the flags, values are taken as they are. -/
theorem Gives.readAll_eq (gives : Gives rest values) (given : EchoArguments) (fresh : given.values = []) :
    ∃ plain, readAll echoRules { values := given } rest = .ok ⟨plain, false, { given with values }⟩ := by
  cases gives with
  | nothing => exact ⟨false, by rw [readAll_nil, ← fresh]⟩
  | marked =>
    have closed : next echoRules { values := given } "--" = .ok ⟨true, false, given⟩ :=
      next_eq_ok_iff.mpr (.closing rfl rfl)
    refine ⟨true, ?_⟩
    rw [readAll_cons, closed, Except.bind, readAll_echo, fresh, List.nil_append]
  | @undashed first later undashed silent =>
    have quiet : isHelp first = false := by
      refine Bool.eq_false_iff.mpr fun asks => ?_
      rcases eq_of_isHelp asks with rfl | rfl
      · cases undashed
      · exact silent rfl
    have taken : next echoRules { values := given } first =
        .ok ⟨true, false, { given with values := given.values ++ [first] }⟩ :=
      next_eq_ok_iff.mpr (.value (.inr ⟨quiet, undashed⟩) rfl)
    refine ⟨true, ?_⟩
    rw [readAll_cons, taken, Except.bind, readAll_echo, fresh]
    rfl

theorem echoText_of_gives (opens : ∀ word ∈ flags, leavesOpen word = true)
    (gives : Gives rest values) :
    echoText (flags ++ rest) =
      .ok (" ".intercalate values ++ if flags.isEmpty then "\n" else "") := by
  obtain ⟨plain, read⟩ := gives.readAll_eq { noNewline := false || !flags.isEmpty } rfl
  rw [echoText, read_eq echoRules_onlySwitches, readAll_append, readAll_flags opens, Except.bind, read]
  cases flags <;> rfl

theorem Gives.silent (gives : Gives (first :: later) values) : first ≠ "help" := by
  cases gives with
  | marked => decide
  | undashed _ silent => exact silent

/-- A word behind the flags that is no value, and does not mark them, asks for help or is unknown. -/
theorem not_gives_cons (none : ∀ values, ¬Gives (first :: rest) values) :
    first ≠ "--" ∧ (isHelp first = true ∨ isDashed first = true) := by
  constructor
  · rintro rfl
    exact none _ (.marked _)
  · by_contra! plain
    obtain ⟨silent, undashed⟩ := plain
    refine none _ (.undashed (Bool.eq_false_iff.mpr undashed) ?_)
    rintro rfl
    exact silent rfl

theorem refusal_of_help {reading : Reading EchoArguments} (asked : reading.help = true) :
    ∃ refusal, ((readAll echoRules reading words).mapError .misuse).bind answer =
      .error refusal := by
  cases read : readAll echoRules reading words with
  | error text => exact ⟨.misuse text, rfl⟩
  | ok after =>
    have still := help_of_readAll read asked
    exact ⟨.help, by simp [Except.mapError, Except.bind, answer, still]⟩

theorem refuses_of_not_gives (opens : ∀ word ∈ flags, leavesOpen word = true)
    (other : ∀ word ∈ rest.head?, leavesOpen word = false) (none : ∀ values, ¬Gives rest values) :
    ∃ refusal, echo.Refuses (flags ++ rest) refusal := by
  simp only [Refuses, ← read_eq_error_iff echoRules_onlySwitches, read_eq echoRules_onlySwitches]
  rw [readAll_append, readAll_flags opens, Except.bind]
  cases rest with
  | nil => exact absurd .nothing (none _)
  | cons first later =>
    obtain ⟨unmarked, special⟩ := not_gives_cons none
    -- A request for help is refused whatever follows it, an unknown flag at once.
    rw [readAll_cons]
    cases asks : isHelp first with
    | true =>
      rw [next_eq_ok_iff.mpr (.help rfl asks), Except.bind]
      exact refusal_of_help rfl
    | false =>
      have dashed : isDashed first = true := special.resolve_left (by simp [asks])
      have unknown : echoRules.flag? first = Option.none := by
        refine if_neg fun flag => ?_
        cases (other first rfl).symm.trans (leavesOpen_iff.mpr flag)
      rw [(next_eq_error_iff echoRules_onlySwitches).mpr (.unknown rfl asks dashed unmarked rfl unknown)]
      exact ⟨.misuse _, rfl⟩

/-- On a host whose console does not fail, a text that a command tells is added to its channel, and
nothing to the other one. -/
theorem Tells.runOn {builtin : Builtin} {memory : Memory σ} {host : Host} {found : Console}
    (tells : builtin.Tells console words channel text outcome memory)
    (opened : host.consoles[console]? = some found) (steady : found.Steady) :
    let ran := ((builtin.run console words).runFrom memory).runOn host
    ran.1 = (.ok outcome, memory) ∧ ∃ left, ran.2.consoles[console]? = some left ∧
      left.accepted channel = found.accepted channel ++ Bytes.ofText text ∧
      ∀ aimed, aimed ≠ channel → left.accepted aimed = found.accepted aimed := by
  intro ran
  have runs := Program.runs_run_pair Host.answer ((builtin.run console words).runFrom memory) host
  have answered := Program.answered_run Host.answer ((builtin.run console words).runFrom memory) host
  obtain ⟨reply, asked, ended, same⟩ := (tells _ _ _).mp runs
  rw [asked] at answered
  cases answered with
  | next given rest =>
    cases rest
    have accepts := (Host.steady_write opened steady console channel text).1 rfl
    have left := Host.opened_write opened console channel text
    rw [if_pos rfl] at left
    obtain ⟨done, _⟩ := steady.write channel text
    rw [Host.answer, Prod.mk.injEq, accepts] at given
    obtain ⟨rfl, after⟩ := given
    refine ⟨Prod.ext ended same, _, after ▸ left, Console.accepted_write_of_ok done, ?_⟩
    intro aimed other
    exact Console.accepted_write_of_ne other.symm _ _

/-- `echo` leaves the line open if `-n` or `--no-newline` is at the front, any number of times. Behind
them, with `--` or without it, it writes all words as they are, with a space between each two, unless
the first asks for help or has a dash; then it writes none of them, and shows its help or complains. -/
theorem echo_writes_values (words : List String) (console : ConsoleId) (before : Memory σ) :
    let flags := words.takeWhile leavesOpen
    let rest := words.dropWhile leavesOpen
    (∀ values, Gives rest values →
      let text := " ".intercalate values ++ if flags.isEmpty then "\n" else ""
      echo.Tells console words .out text .success before ∧
      ∀ (host : Host) found, host.consoles[console]? = some found → found.Steady →
        let ran := ((echo.run console words).runFrom before).runOn host
        ran.1 = (.ok .success, before) ∧ ∃ left, ran.2.consoles[console]? = some left ∧
          left.accepted .out = found.accepted .out ++ Bytes.ofText text ∧
          left.accepted .err = found.accepted .err) ∧
    ((∀ values, ¬Gives rest values) →
      echo.ShowsHelp console words before ∨ echo.Complains console words before) := by
  intro flags rest
  have opens : ∀ word ∈ flags, leavesOpen word = true := fun word member => List.mem_takeWhile_imp member
  have other : ∀ word ∈ rest.head?, leavesOpen word = false := by
    intro word first
    have stopped := List.head?_dropWhile_not leavesOpen words
    rwa [Option.mem_def.mp first] at stopped
  have whole : flags ++ rest = words := List.takeWhile_append_dropWhile
  constructor
  · intro values gives text
    have tells : echo.Tells console words .out text .success before := by
      have accepted := echoText_of_gives opens gives
      rw [whole] at accepted
      exact fun _ _ _ => runs_echo_iff accepted
    refine ⟨tells, fun host found opened steady => ?_⟩
    obtain ⟨ended, left, still, out, others⟩ := tells.runOn opened steady
    exact ⟨ended, left, still, out, others .err (by decide)⟩
  · intro none
    obtain ⟨refusal, refuses⟩ := refuses_of_not_gives opens other none
    rw [whole] at refuses
    cases refuses.declines with
    | help _ tells => exact .inl tells
    | misuse _ _ tells => exact .inr ⟨_, tells⟩

/-- Two flags and `--` before a flag, a request for help and an empty word; and a flag before a request
for help. -/
theorem echo_writes_values_of_awkward :
    let words := ["-n", "--no-newline", "--", "-n", "help", ""]
    let memory : Memory Unit := { client := () }
    echo.Tells 0 words .out "-n help " .success memory ∧
      (∃ left, (((echo.run 0 words).runFrom memory).runOn {}).2.consoles[0]? = some left ∧
        left.accepted .out = Bytes.ofText "-n help " ∧ left.accepted .err = []) ∧
      (echo.ShowsHelp 0 ["-n", "help", "x"] memory ∨
        echo.Complains 0 ["-n", "help", "x"] memory) := by
  intro words memory
  have text : " ".intercalate ["-n", "help", ""] ++ "" = "-n help " := by decide +kernel
  obtain ⟨writes, _⟩ := echo_writes_values words 0 memory
  obtain ⟨tells, hosts⟩ := writes _ (.marked ["-n", "help", ""])
  obtain ⟨_, left, still, out, err⟩ := hosts {} {} rfl ⟨rfl, rfl⟩
  obtain ⟨_, answers⟩ := echo_writes_values ["-n", "help", "x"] 0 memory
  refine ⟨text ▸ tells, ⟨left, still, text ▸ out, err⟩, answers fun values gives => ?_⟩
  have asking : Gives ["help", "x"] values := gives
  exact asking.silent rfl

end Builtin

end LineShell
