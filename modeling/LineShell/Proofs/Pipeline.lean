import LineShell.Proofs.Runs
import LineShell.Session
/-!
The pipeline of a line, stage by stage: the parser, the hooks on statements, the command that the
statement names, and the hooks on outcomes. Executing a line runs the stages in this order up to
the first that fails.
-/

namespace LineShell

variable {σ κ β : Type}

/-- The exchange that announces a hook. -/
def HookTable.announced (text : String) : Exchange :=
  Action.recorded .trace HookTable.logTarget text

/-- A value handed through hooks, each taking what the one before gave, up to the first that
fails. Every hook is announced with a text of its own. -/
inductive HandedThrough (text : Named κ → β → String)
    (run : κ → β → Action Failure (Memory σ) β) : List (Named κ) → β → Memory σ →
      List Exchange → Except Failure β → Memory σ → Prop where
  | done : HandedThrough text run [] value memory [] (.ok value) memory
  | failed {failure : Failure}
      (ran : (run hook.action value).Runs before asked (.error failure) after) :
      HandedThrough text run (hook :: later) value before
        (HookTable.announced (text hook value) :: asked) (.error failure) after
  | next (ran : (run hook.action value).Runs before asked (.ok given) middle)
      (rest : HandedThrough text run later given middle others ended after) :
      HandedThrough text run (hook :: later) value before
        (HookTable.announced (text hook value) :: (asked ++ others)) ended after

/-- Whatever announces a hook, runs it and goes on with what it gave hands a value through. -/
theorem runs_iff_handedThrough {text : Named κ → β → String}
    {run : κ → β → Action Failure (Memory σ) β}
    (chain : List (Named κ) → β → Action Failure (Memory σ) β)
    (empty : ∀ value, chain [] value = pure value)
    (filled : ∀ hook later value, chain (hook :: later) value = do
      Action.record .trace HookTable.logTarget (text hook value)
      chain later (← run hook.action value)) :
    (chain hooks value).Runs before exchanges ended after ↔
      HandedThrough text run hooks value before exchanges ended after := by
  constructor
  · intro ran
    induction hooks generalizing value before exchanges with
    | nil =>
      rw [empty] at ran
      obtain ⟨rfl, rfl, rfl⟩ := Action.runs_pure_iff.mp ran
      exact .done
    | cons hook later ih =>
      rw [filled] at ran
      obtain ⟨_, announced, rfl⟩ := Action.runs_record_bind_iff.mp ran
      rcases Action.runs_bind_iff.mp announced with
        ⟨failure, failed, rfl⟩ | ⟨asked, given, middle, others, gave, rest, rfl⟩
      · exact .failed failed
      · exact .next gave (ih rest)
  · intro handed
    induction handed with
    | done =>
      rw [empty]
      exact Action.runs_pure_iff.mpr ⟨rfl, rfl, rfl⟩
    | failed ran =>
      rw [filled]
      exact Action.runs_record_bind_iff.mpr ⟨_, ran.bind_error, rfl⟩
    | next ran rest ih =>
      rw [filled]
      exact Action.runs_record_bind_iff.mpr ⟨_, ran.bind ih, rfl⟩

/-- A failure is that of the first hook that fails. The hooks before it have handed the value on,
and those after it play no part. -/
theorem HandedThrough.error_iff {text : Named κ → β → String}
    {run : κ → β → Action Failure (Memory σ) β} {failure : Failure} :
    HandedThrough text run hooks value before exchanges (.error failure) after ↔
      ∃ front hook back asked given middle others, hooks = front ++ hook :: back ∧
        HandedThrough text run front value before asked (.ok given) middle ∧
        (run hook.action given).Runs middle others (.error failure) after ∧
        exchanges = asked ++ HookTable.announced (text hook given) :: others := by
  constructor
  · intro handed
    generalize broken : Except.error failure = ended at handed
    induction handed with
    | done => cases broken
    | failed ran =>
      cases broken
      exact ⟨[], _, _, [], _, _, _, rfl, .done, ran, rfl⟩
    | next ran rest ih =>
      obtain ⟨front, hook, back, asked, given, middle, others, rfl, handed, failed, rfl⟩ := ih broken
      exact ⟨_ :: front, hook, back, _, given, middle, others, rfl, .next ran handed, failed,
        by simp⟩
  · rintro ⟨front, hook, back, asked, given, middle, others, rfl, handed, failed, rfl⟩
    generalize whole : Except.ok given = ended at handed
    induction handed with
    | done =>
      cases whole
      exact .failed failed
    | failed ran => cases whole
    | next ran rest ih =>
      have going := HandedThrough.next ran (ih failed whole)
      simpa using going

namespace HookTable

/-- The text that announces a hook of the loop. -/
def loopText (point : HookPoint) (hook : Named (LoopHook σ)) (_ : Unit) : String :=
  point.name ++ " hook " ++ hook.name

/-- The text that announces a hook on a statement. -/
def statementText (hook : Named (StatementHook σ)) (statement : Statement) : String :=
  "postparse hook " ++ hook.name ++ " on " ++ Text.quoted statement.raw

/-- The text that announces a hook on a statement's outcome. -/
def outcomeText (statement : Statement) (hook : Named (OutcomeHook σ)) (_ : Option Outcome) :
    String :=
  "postexecute hook " ++ hook.name ++ " on " ++ Text.quoted statement.raw

end HookTable

/-- The hooks of the loop at a point, run in order up to the first that fails. -/
def LoopHooksRun (point : HookPoint) (hooks : List (Named (LoopHook σ))) :
    Memory σ → List Exchange → Except Failure Unit → Memory σ → Prop :=
  HandedThrough (HookTable.loopText point) (fun hook _ => hook.run) hooks ()

/-- A statement handed through hooks on statements. -/
def StatementHooksRun (hooks : List (Named (StatementHook σ))) (statement : Statement) :
    Memory σ → List Exchange → Except Failure Statement → Memory σ → Prop :=
  HandedThrough HookTable.statementText (fun hook statement => hook.run statement) hooks statement

/-- An outcome handed through hooks on outcomes, each of which is given the same statement. -/
def OutcomeHooksRun (statement : Statement) (hooks : List (Named (OutcomeHook σ)))
    (outcome : Option Outcome) :
    Memory σ → List Exchange → Except Failure (Option Outcome) → Memory σ → Prop :=
  HandedThrough (HookTable.outcomeText statement) (fun hook outcome => hook.run statement outcome)
    hooks outcome

namespace HookTable

theorem runs_loop_iff {point : HookPoint} {hooks : List (Named (LoopHook σ))} :
    (runLoop point hooks).Runs before exchanges ended after ↔
      LoopHooksRun point hooks before exchanges ended after :=
  runs_iff_handedThrough (fun hooks _ => runLoop point hooks) (fun _ => rfl) fun _ _ _ => rfl

theorem runs_statement_iff {hooks : List (Named (StatementHook σ))} :
    (runStatement hooks statement).Runs before exchanges ended after ↔
      StatementHooksRun hooks statement before exchanges ended after :=
  runs_iff_handedThrough runStatement (fun _ => rfl) fun _ _ _ => rfl

theorem runs_outcome_iff {hooks : List (Named (OutcomeHook σ))} :
    (runOutcome statement hooks outcome).Runs before exchanges ended after ↔
      OutcomeHooksRun statement hooks outcome before exchanges ended after :=
  runs_iff_handedThrough (runOutcome statement) (fun _ => rfl) fun _ _ _ => rfl

end HookTable

namespace Shell

/-- The exchange that announces the command of a statement. -/
def dispatching (statement : Statement) : Exchange :=
  Action.recorded .debug logTarget ("dispatching " ++ Text.quotedList statement.argv)

/-- A line parses, and all hooks on statements succeed and leave the statement that is to be
carried out. -/
inductive Prepared (shell : Shell σ) (line : String) (before : Memory σ) :
    List Exchange → Statement → Memory σ → Prop where
  | intro (parsed : (shell.parser.parse line).Runs before asked (.ok statement) middle)
      (handed : StatementHooksRun shell.hooks.postparse statement middle others (.ok final) after) :
      Prepared shell line before (asked ++ others) final after

/-- A line's statement is prepared, and no command is bound to its first word. -/
structure Unresolved (shell : Shell σ) (line : String) (before : Memory σ)
    (exchanges : List Exchange) (statement : Statement) (after : Memory σ) : Prop where
  prepared : shell.Prepared line before exchanges statement after
  unbound : shell.commands.find? statement.command = none

/-- A hook or the command fails, after all stages of the line before it have succeeded. -/
inductive Raised (shell : Shell σ) (line : String) (before : Memory σ) :
    List Exchange → Failure → Memory σ → Prop where
  | statementHook
      (parsed : (shell.parser.parse line).Runs before asked (.ok statement) middle)
      (hooks : shell.hooks.postparse = front ++ hook :: back)
      (handed : StatementHooksRun front statement middle others (.ok given) memory)
      (failed : (hook.action.run given).Runs memory last (.error broken) after) :
      Raised shell line before
        (asked ++ (others ++ HookTable.announced (HookTable.statementText hook given) :: last))
        broken after
  | command (prepared : shell.Prepared line before asked statement middle)
      (bound : shell.commands.find? statement.command = some command)
      (failed : (command.run statement).Runs middle others (.error broken) after) :
      Raised shell line before (asked ++ dispatching statement :: others) broken after
  | outcomeHook (prepared : shell.Prepared line before asked statement middle)
      (bound : shell.commands.find? statement.command = some command)
      (ran : (command.run statement).Runs middle others (.ok outcome) memory)
      (hooks : shell.hooks.postexecute = front ++ hook :: back)
      (handed : OutcomeHooksRun statement front outcome memory more (.ok given) held)
      (failed : (hook.action.run statement given).Runs held last (.error broken) after) :
      Raised shell line before
        (asked ++ dispatching statement :: (others ++
          (more ++ HookTable.announced (HookTable.outcomeText statement hook given) :: last)))
        broken after

/-- What executing a line comes to: all stages succeed, or one fails after those before it have
succeeded. The exchanges and the memory at the end are those of the stages up to there. -/
inductive Pipeline (shell : Shell σ) (line : String) (before : Memory σ) :
    List Exchange → Except ShellError (Option Outcome) → Memory σ → Prop where
  | parserFailed (parsed : (shell.parser.parse line).Runs before asked (.error error) after) :
      Pipeline shell line before asked (.error error) after
  | notFound (unresolved : shell.Unresolved line before asked statement after) :
      Pipeline shell line before asked (.error (.commandNotFound statement)) after
  | raised (raised : shell.Raised line before asked broken after) :
      Pipeline shell line before asked (.error (.command broken)) after
  | done (prepared : shell.Prepared line before asked statement middle)
      (bound : shell.commands.find? statement.command = some command)
      (ran : (command.run statement).Runs middle others (.ok outcome) memory)
      (handed : OutcomeHooksRun statement shell.hooks.postexecute outcome memory last
        (.ok final) after) :
      Pipeline shell line before (asked ++ dispatching statement :: (others ++ last))
        (.ok final) after

/-- From a prepared statement on, executing its line is a look-up and what follows from it. -/
theorem Prepared.execute {shell : Shell σ}
    (prepared : shell.Prepared line before asked statement middle)
    (dispatched : Action.Runs (match shell.commands.find? statement.command with
      | none => throw (.commandNotFound statement)
      | some command => do
        Action.record .debug logTarget ("dispatching " ++ Text.quotedList statement.argv)
        let outcome ← (command.run statement).mapError .command
        (shell.hooks.runPostexecute statement outcome).mapError .command)
      middle later ended after) :
    (shell.execute line).Runs before (asked ++ later) ended after := by
  cases prepared with
  | intro parsed handed =>
    rw [List.append_assoc]
    refine parsed.bind (Action.Runs.bind ?_ dispatched)
    exact Action.runs_mapError_ok_iff.mpr (HookTable.runs_statement_iff.mpr handed)

private theorem Raised.execute {shell : Shell σ}
    (raised : shell.Raised line before exchanges broken after) :
    (shell.execute line).Runs before exchanges (.error (.command broken)) after := by
  cases raised with
  | statementHook parsed hooks handed failed =>
    have stopped := HandedThrough.error_iff.mpr ⟨_, _, _, _, _, _, _, hooks, handed, failed, rfl⟩
    refine parsed.bind (Action.Runs.bind_error ?_)
    exact Action.runs_mapError_error_iff.mpr ⟨_, HookTable.runs_statement_iff.mpr stopped, rfl⟩
  | command prepared bound failed =>
    refine prepared.execute ?_
    simp only [bound]
    refine Action.runs_record_bind_iff.mpr ⟨_, Action.Runs.bind_error ?_, rfl⟩
    exact Action.runs_mapError_error_iff.mpr ⟨_, failed, rfl⟩
  | outcomeHook prepared bound ran hooks handed failed =>
    have stopped := HandedThrough.error_iff.mpr ⟨_, _, _, _, _, _, _, hooks, handed, failed, rfl⟩
    refine prepared.execute ?_
    simp only [bound]
    refine Action.runs_record_bind_iff.mpr
      ⟨_, (Action.runs_mapError_ok_iff.mpr ran).bind ?_, rfl⟩
    exact Action.runs_mapError_error_iff.mpr ⟨_, HookTable.runs_outcome_iff.mpr stopped, rfl⟩

theorem runs_of_pipeline {shell : Shell σ}
    (pipeline : shell.Pipeline line before exchanges ended after) :
    (shell.execute line).Runs before exchanges ended after := by
  cases pipeline with
  | parserFailed parsed => exact parsed.bind_error
  | notFound unresolved =>
    rw [← List.append_nil exchanges]
    refine unresolved.prepared.execute ?_
    simp only [unresolved.unbound]
    exact Action.runs_throw_iff.mpr ⟨rfl, rfl, rfl⟩
  | raised raised => exact raised.execute
  | done prepared bound ran handed =>
    refine prepared.execute ?_
    simp only [bound]
    refine Action.runs_record_bind_iff.mpr
      ⟨_, (Action.runs_mapError_ok_iff.mpr ran).bind ?_, rfl⟩
    exact Action.runs_mapError_ok_iff.mpr (HookTable.runs_outcome_iff.mpr handed)

theorem pipeline_of_runs {shell : Shell σ}
    (ran : (shell.execute line).Runs before exchanges ended after) :
    shell.Pipeline line before exchanges ended after := by
  rcases Action.runs_bind_iff.mp ran with
    ⟨error, parsed, rfl⟩ | ⟨asked, statement, middle, rest, parsed, onward, rfl⟩
  · exact .parserFailed parsed
  rcases Action.runs_bind_iff.mp onward with
    ⟨error, wrapped, rfl⟩ | ⟨others, final, memory, later, whole, dispatched, rfl⟩
  · obtain ⟨failure, broken, rfl⟩ := Action.runs_mapError_error_iff.mp wrapped
    obtain ⟨front, hook, back, others, given, memory, last, hooks, handed, failed, rfl⟩ :=
      HandedThrough.error_iff.mp (HookTable.runs_statement_iff.mp broken)
    exact .raised (.statementHook parsed hooks handed failed)
  have handed := HookTable.runs_statement_iff.mp (Action.runs_mapError_ok_iff.mp whole)
  have prepared : shell.Prepared line before (asked ++ others) final memory := .intro parsed handed
  rw [← List.append_assoc]
  cases found : shell.commands.find? final.command with
  | none =>
    simp only [found] at dispatched
    obtain ⟨rfl, rfl, rfl⟩ := Action.runs_throw_iff.mp dispatched
    rw [List.append_nil]
    exact .notFound ⟨prepared, found⟩
  | some command =>
    simp only [found] at dispatched
    obtain ⟨_, announced, rfl⟩ := Action.runs_record_bind_iff.mp dispatched
    rcases Action.runs_bind_iff.mp announced with
      ⟨error, wrapped, rfl⟩ | ⟨calls, outcome, held, last, called, hooked, rfl⟩
    · obtain ⟨failure, failed, rfl⟩ := Action.runs_mapError_error_iff.mp wrapped
      exact .raised (.command prepared found failed)
    have returned := Action.runs_mapError_ok_iff.mp called
    cases ended with
    | error error =>
      obtain ⟨failure, broken, rfl⟩ := Action.runs_mapError_error_iff.mp hooked
      obtain ⟨front, hook, back, more, given, kept, last, hooks, handed, failed, rfl⟩ :=
        HandedThrough.error_iff.mp (HookTable.runs_outcome_iff.mp broken)
      exact .raised (.outcomeHook prepared found returned hooks handed failed)
    | ok result =>
      have handed := HookTable.runs_outcome_iff.mp (Action.runs_mapError_ok_iff.mp hooked)
      exact .done prepared found returned handed

/-- Executing a line is running it through the pipeline. -/
theorem runs_execute_iff {shell : Shell σ} :
    (shell.execute line).Runs before exchanges ended after ↔
      shell.Pipeline line before exchanges ended after :=
  ⟨pipeline_of_runs, runs_of_pipeline⟩

end Shell

namespace Session

theorem runs_execute_iff {session : Session σ} {line : String} {after : Session σ} :
    (session.execute line).Runs exchanges (ended, after) ↔
      ∃ memory, (session.shell.execute line).Runs session.memory exchanges ended memory ∧
        after = { session with memory } := by
  refine (Program.runs_mapBoth_iff ((session.shell.execute line).runFrom session.memory) id
    fun memory => { session with memory }).trans ?_
  constructor
  · rintro ⟨outcome, memory, ran, rfl, rfl⟩
    exact ⟨memory, ran, rfl⟩
  · rintro ⟨memory, ran, rfl⟩
    exact ⟨ended, memory, ran, rfl, rfl⟩

end Session

end LineShell
