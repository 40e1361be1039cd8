import LineShell.Proofs.Endings
/-!
What the loop reports: each line that no command is found for, once and in order. What a hook, a
command or the client's end of input raises is never taken for such a line.
-/

namespace LineShell

variable {σ : Type}

namespace LoopStep

/-- The exchanges of a step without those that report a missing command. -/
def called : LoopStep → List Exchange
  | unread taking _ => taking
  | endOfInput taking following _ => taking ++ following
  | blank taking _ => taking
  | executed taking following _ _ => taking ++ following
  | unresolved taking following _ _ _ => taking ++ following

/-- The statement that a step reported, and how that went. -/
def report? : LoopStep → Option (Statement × Except DeviceError Unit)
  | unresolved _ _ _ statement reported => some (statement, reported)
  | _ => none

/-- The exchanges that report a missing command. -/
def reports (console : ConsoleId) (step : LoopStep) : List Exchange :=
  step.report?.elim [] fun (statement, reported) => reporting console statement reported

theorem exchanges_eq (console : ConsoleId) (step : LoopStep) :
    step.exchanges console = step.called ++ step.reports console := by
  cases step with
  | unresolved => simp [exchanges, called, reports, report?]
  | unread | endOfInput | blank | executed => exact (List.append_nil _).symm

end LoopStep

namespace Shell

variable {shell : Shell σ}

/-- The next line is one that no command is found for. -/
inductive MeetsUnresolved (shell : Shell σ) (before : LoopState σ) :
    List Exchange → Statement → Prop where
  | intro (took : shell.nextLine.Runs before taking (.ok (some line)) taken)
      (filled : Text.isBlankLine line = false)
      (unresolved : shell.Unresolved line taken.memory following statement memory) :
      MeetsUnresolved shell before (taking ++ following) statement

/-- A turn reports the statements that no command is found for, and no others. -/
theorem Turn.report_iff (parses : shell.parser.FailsOnlyToParse)
    (turn : shell.Turn before step after) :
    (∃ reported, step.report? = some (statement, reported)) ↔
      shell.MeetsUnresolved before step.called statement := by
  constructor
  · intro ⟨reported, told⟩
    cases turn with
    | unresolved took filled ran =>
      obtain ⟨rfl, rfl⟩ := Prod.mk.inj (Option.some.inj told)
      exact .intro took filled ((runs_notFound_iff parses).mp ran)
    | unread | endOfInput | blank | executed => cases told
  · intro met
    generalize whole : step.called = asked at met
    obtain ⟨took, filled, unresolved⟩ := met
    have missing := (runs_notFound_iff parses).mpr unresolved
    -- Answers fix the line that is taken and what executing it comes to.
    cases turn with
    | unread other =>
      rw [← List.append_nil (LoopStep.called _)] at whole
      obtain ⟨_, impossible, _⟩ := other.unique took whole
      cases impossible
    | endOfInput other met =>
      obtain ⟨_, impossible, _⟩ := other.unique took whole
      cases impossible
    | blank other blank =>
      rw [← List.append_nil (LoopStep.called _)] at whole
      obtain ⟨_, same, _⟩ := other.unique took whole
      cases same
      rw [blank] at filled
      cases filled
    | executed other _ ran found =>
      obtain ⟨rfl, same, rfl⟩ := other.unique took whole
      cases same
      have rest := congrArg (· ++ []) (List.append_cancel_left whole)
      obtain ⟨_, impossible, _⟩ := ran.unique missing rest
      exact absurd impossible (found _)
    | unresolved other _ ran =>
      obtain ⟨rfl, same, rfl⟩ := other.unique took whole
      cases same
      have rest := congrArg (· ++ []) (List.append_cancel_left whole)
      obtain ⟨_, same, _⟩ := ran.unique missing rest
      cases same
      exact ⟨_, rfl⟩

theorem atEndOfInput_of_raised {before : LoopState σ}
    (said : (before.input.source.isInteractive before.memory.client).Runs first (interactive, told))
    (handler : shell.endOfInput = some handle)
    (ran : (handle interactive).Runs told asked (.error broken) client) :
    shell.atEndOfInput.Runs before (first ++ endAnnounced interactive :: asked)
      (.error (.command broken)) { before with memory := { before.memory with client } } :=
  runs_atEndOfInput_iff.mpr (.handled said handler ran)

end Shell

namespace Session

variable {session : Session σ}

/-- A step of the loop is a turn after those before it. If it fails, it is the last. -/
theorem CommandLoop.at_step
    (looped : session.CommandLoop exchanges (front ++ step :: back) ending after) :
    ∃ asked entered reached left,
      LoopHooksRun .preloop session.shell.hooks.preloop session.memory asked (.ok ()) entered ∧
      session.shell.Turns ⟨session.input, entered⟩ front .unfinished reached ∧
      session.shell.Turn reached step left ∧
      ∀ error, step.result = .error error → back = [] ∧ ending = .failed error := by
  generalize whole : front ++ step :: back = steps at looped
  cases looped with
  | preloopFailed => simp at whole
  | unfinished hooked took | failed hooked took =>
    subst whole
    obtain ⟨reached, left, earlier, turn, ends⟩ := took.at_step
    refine ⟨_, _, reached, left, hooked, earlier, turn, ?_⟩
    intro error failed
    exact ends _ (LoopStep.ending?_eq_failed_iff.mpr failed)
  | postloopFailed hooked took | stopped hooked took =>
    subst whole
    obtain ⟨reached, left, earlier, turn, ends⟩ := took.at_step
    refine ⟨_, _, reached, left, hooked, earlier, turn, ?_⟩
    intro error failed
    obtain ⟨_, impossible⟩ := ends _ (LoopStep.ending?_eq_failed_iff.mpr failed)
    cases impossible

/-- All that a run of the loop asks for comes from the hooks before it, from its steps, and from
the hooks after it. -/
theorem CommandLoop.exchanges_eq (looped : session.CommandLoop exchanges steps ending after) :
    ∃ asked last, exchanges =
        asked ++ (steps.flatMap (LoopStep.exchanges session.shell.console) ++ last) ∧
      (∃ ended entered, LoopHooksRun .preloop session.shell.hooks.preloop session.memory asked
        ended entered) ∧
      (last = [] ∨ ∃ memory ended held, LoopHooksRun .postloop session.shell.hooks.postloop memory
        last ended held) := by
  cases looped with
  | preloopFailed hooked => exact ⟨_, [], by simp, ⟨_, _, hooked⟩, .inl rfl⟩
  | unfinished hooked took | failed hooked took =>
    exact ⟨_, [], by simp, ⟨_, _, hooked⟩, .inl rfl⟩
  | postloopFailed hooked took closing | stopped hooked took closing =>
    exact ⟨_, _, rfl, ⟨_, _, hooked⟩, .inr ⟨_, _, _, closing⟩⟩

/-- What hooks, commands and the client's end of input raise comes out wrapped. -/
structure WrapsFailures (session : Session σ) : Prop where
  line : ∀ {line before exchanges broken after},
    (session.shell.execute line).Runs before exchanges (.error (.command broken)) after ↔
      session.shell.Raised line before exchanges broken after
  endOfInput : ∀ {first interactive told handle asked broken client} {before : LoopState σ},
    (before.input.source.isInteractive before.memory.client).Runs first (interactive, told) →
    session.shell.endOfInput = some handle →
    (handle interactive).Runs told asked (.error broken) client →
    session.shell.atEndOfInput.Runs before (first ++ Shell.endAnnounced interactive :: asked)
      (.error (.command broken)) { before with memory := { before.memory with client } }
  preloop : ∀ {turns asked broken entered},
    LoopHooksRun .preloop session.shell.hooks.preloop session.memory asked (.error broken)
      entered →
    (session.run turns).Runs asked
      (.failed (.command broken), session.left ⟨session.input, entered⟩)
  postloop : ∀ {asked entered steps outcome last broken held} {reached : LoopState σ},
    LoopHooksRun .preloop session.shell.hooks.preloop session.memory asked (.ok ()) entered →
    session.shell.Turns ⟨session.input, entered⟩ steps (.stopped outcome) reached →
    LoopHooksRun .postloop session.shell.hooks.postloop reached.memory last (.error broken) held →
    (session.run steps.length).Runs
      (asked ++ (steps.flatMap (LoopStep.exchanges session.shell.console) ++ last))
      (.failed (.command broken), session.left { reached with memory := held })

theorem wrapsFailures (parses : session.shell.parser.FailsOnlyToParse) : session.WrapsFailures where
  line := Shell.runs_raised_iff parses
  endOfInput := Shell.atEndOfInput_of_raised
  preloop hooked := (CommandLoop.preloopFailed hooked).runs ⟨Nat.zero_le _, nofun⟩
  postloop hooked took closing :=
    (CommandLoop.postloopFailed hooked took closing).runs ⟨Nat.le_refl _, nofun⟩

/-- Only the look-up finds no command, and whatever is raised comes out wrapped. So the loop reports
each line that no command is found for, once and in order, and never goes on after a failure. -/
theorem run_reports_unresolved (session : Session σ)
    (parses : session.shell.parser.FailsOnlyToParse) :
    (∀ line before exchanges statement after,
      (session.shell.execute line).Runs before exchanges (.error (.commandNotFound statement))
          after ↔
        session.shell.Unresolved line before exchanges statement after) ∧
    session.WrapsFailures ∧
    ∀ turns exchanges ending after, (session.run turns).Runs exchanges (ending, after) →
      ∃ steps, session.CommandLoop exchanges steps ending after ∧
        (∃ asked last, exchanges = asked ++ ((steps.flatMap fun step =>
            step.called ++ step.reports session.shell.console) ++ last) ∧
          (∃ ended entered, LoopHooksRun .preloop session.shell.hooks.preloop session.memory asked
            ended entered) ∧
          (last = [] ∨ ∃ memory ended held, LoopHooksRun .postloop session.shell.hooks.postloop
            memory last ended held)) ∧
        ∀ front step back, steps = front ++ step :: back →
          ∃ asked entered reached left,
            LoopHooksRun .preloop session.shell.hooks.preloop session.memory asked (.ok ())
              entered ∧
            session.shell.Turns ⟨session.input, entered⟩ front .unfinished reached ∧
            session.shell.Turn reached step left ∧
            (∀ statement, (∃ reported, step.report? = some (statement, reported)) ↔
              session.shell.MeetsUnresolved reached step.called statement) ∧
            ∀ error, step.result = .error error → back = [] ∧ ending = .failed error := by
  refine ⟨?_, wrapsFailures parses, ?_⟩
  · intro line before exchanges statement after
    exact Shell.runs_notFound_iff parses
  · intro turns exchanges ending after ran
    obtain ⟨steps, looped, _⟩ := commandLoop_of_runs ran
    refine ⟨steps, looped, ?_, ?_⟩
    · simp only [← LoopStep.exchanges_eq]
      exact looped.exchanges_eq
    · intro front step back same
      subst same
      obtain ⟨asked, entered, reached, left, hooked, earlier, turn, ends⟩ := looped.at_step
      refine ⟨asked, entered, reached, left, hooked, earlier, turn, ?_, ends⟩
      intro statement
      exact turn.report_iff parses

/-- A command that fails with the missing command of another shell ends the loop. -/
theorem run_reports_unresolved_of_nested :
    let nested : Failure := .context "inner shell" (.shell (.commandNotFound ⟨"ls", ["ls"]⟩))
    let session : Session Unit := {
      shell := { commands := NameTable.insert ∅ "run" (.custom fun _ => throw nested) }
      input := { queue := ["run", "run"] }
      memory := { client := () } }
    session.shell.parser.FailsOnlyToParse ∧
    ∃ exchanges steps after, session.CommandLoop exchanges steps (.failed (.command nested)) after ∧
      after.input.queue = ["run"] := by
  intro nested session
  have parses : session.shell.parser.FailsOnlyToParse := Parser.words_failsOnlyToParse .simple
  obtain ⟨_, _, reported⟩ := run_reports_unresolved session parses
  have ran := Program.runs_run Host.answer (session.run 2) {}
  obtain ⟨steps, looped, _⟩ := reported 2 _ _ _ ran
  exact ⟨parses, _, steps, _, looped, rfl⟩

end Session

end LineShell
