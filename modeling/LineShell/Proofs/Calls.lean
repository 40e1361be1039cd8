import LineShell.Proofs.Loop
/-!
Calls: what a shell calls while it runs, in order. A run is told once more here, with the memory
that each hook and each command was given and the memory that it left.
-/

namespace LineShell

variable {σ κ β : Type}

/-- What a shell calls, and what it gives it besides the memory. -/
inductive Callee (σ : Type) where
  | parser (parser : Parser σ) (line : String)
  | loopHook (point : HookPoint) (hook : Named (LoopHook σ))
  | statementHook (hook : Named (StatementHook σ)) (statement : Statement)
  | command (command : Command σ) (statement : Statement)
  | outcomeHook (hook : Named (OutcomeHook σ)) (statement : Statement) (outcome : Option Outcome)
  | endOfInput (handle : Bool → Action Failure σ Outcome) (interactive : Bool)

namespace Callee

/-- The exchanges that announce a call. A parser and the client's end of input have none of their
own. -/
def announced : Callee σ → List Exchange
  | parser .. => []
  | loopHook point hook => [HookTable.announced (HookTable.loopText point hook ())]
  | statementHook hook statement => [HookTable.announced (HookTable.statementText hook statement)]
  | command _ statement => [Shell.dispatching statement]
  | outcomeHook hook statement outcome =>
    [HookTable.announced (HookTable.outcomeText statement hook outcome)]
  | endOfInput .. => []

/-- What is called runs, whatever it comes to. -/
def Runs (callee : Callee σ) (before : Memory σ) (asked : List Exchange) (after : Memory σ) : Prop :=
  match callee with
  | .parser rule line => ∃ ended, (rule.parse line).Runs before asked ended after
  | .loopHook _ hook => ∃ ended, hook.action.run.Runs before asked ended after
  | .statementHook hook statement =>
    ∃ ended, (hook.action.run statement).Runs before asked ended after
  | .command bound statement => ∃ ended, (bound.run statement).Runs before asked ended after
  | .outcomeHook hook statement outcome =>
    ∃ ended, (hook.action.run statement outcome).Runs before asked ended after
  | .endOfInput handle interactive =>
    ∃ ended, (handle interactive).ofClient.Runs before asked ended after

end Callee

/-- A call: what was called, the memory it was given, what it asked for, and the memory it left. -/
structure Call (σ : Type) where
  callee : Callee σ
  before : Memory σ
  asked : List Exchange
  after : Memory σ

/-- All exchanges of a call. -/
def Call.exchanges (call : Call σ) : List Exchange :=
  call.callee.announced ++ call.asked

/-- A value handed through hooks, told with the call of each. -/
inductive CallsThrough (callee : Named κ → β → Callee σ)
    (run : κ → β → Action Failure (Memory σ) β) : List (Named κ) → β → Memory σ →
      List (Call σ) → Except Failure β → Memory σ → Prop where
  | done : CallsThrough callee run [] value memory [] (.ok value) memory
  | failed {failure : Failure}
      (ran : (run hook.action value).Runs before asked (.error failure) after) :
      CallsThrough callee run (hook :: later) value before
        [⟨callee hook value, before, asked, after⟩] (.error failure) after
  | next (ran : (run hook.action value).Runs before asked (.ok given) middle)
      (rest : CallsThrough callee run later given middle calls ended after) :
      CallsThrough callee run (hook :: later) value before
        (⟨callee hook value, before, asked, middle⟩ :: calls) ended after

section InRow

variable {callee : Named κ → β → Callee σ} {run : κ → β → Action Failure (Memory σ) β}
  {front back : List (Named κ)}

/-- Hooks one after the other: the first ones fail, or the others go on where they ended. -/
theorem CallsThrough.split
    (called : CallsThrough callee run (front ++ back) value before calls ended after) :
    (∃ failure, ended = .error failure ∧
      CallsThrough callee run front value before calls (.error failure) after) ∨
    ∃ first given middle rest, calls = first ++ rest ∧
      CallsThrough callee run front value before first (.ok given) middle ∧
      CallsThrough callee run back given middle rest ended after := by
  induction front generalizing value before calls with
  | nil => exact .inr ⟨[], value, before, calls, rfl, .done, called⟩
  | cons hook front ih =>
    cases called with
    | failed ran => exact .inl ⟨_, rfl, .failed ran⟩
    | next ran rest =>
      rcases ih rest with ⟨failure, ended, failed⟩ | ⟨first, given, middle, later, rfl, done, onward⟩
      · exact .inl ⟨failure, ended, .next ran failed⟩
      · exact .inr ⟨_ :: first, given, middle, later, rfl, .next ran done, onward⟩

theorem CallsThrough.append
    (called : CallsThrough callee run front value before calls (.ok given) middle)
    (rest : CallsThrough callee run back given middle later ended after) :
    CallsThrough callee run (front ++ back) value before (calls ++ later) ended after := by
  generalize reached : Except.ok given = result at called
  induction called with
  | done =>
    cases reached
    exact rest
  | failed => cases reached
  | next ran _ ih => exact .next ran (ih rest reached)

theorem CallsThrough.append_of_error {failure : Failure}
    (called : CallsThrough callee run front value before calls (.error failure) after) :
    CallsThrough callee run (front ++ back) value before calls (.error failure) after := by
  generalize broken : Except.error failure = result at called ⊢
  induction called with
  | done => cases broken
  | failed ran => exact .failed ran
  | next ran _ ih => exact .next ran (ih broken)

end InRow

theorem handedThrough_iff_calls {text : Named κ → β → String} {callee : Named κ → β → Callee σ}
    {run : κ → β → Action Failure (Memory σ) β}
    (announced : ∀ hook value, (callee hook value).announced = [HookTable.announced (text hook value)]) :
    HandedThrough text run hooks value before exchanges ended after ↔
      ∃ calls, CallsThrough callee run hooks value before calls ended after ∧
        exchanges = calls.flatMap Call.exchanges := by
  constructor
  · intro handed
    induction handed with
    | done => exact ⟨[], .done, rfl⟩
    | failed ran =>
      refine ⟨_, .failed ran, ?_⟩
      simp [Call.exchanges, announced]
    | next ran rest ih =>
      obtain ⟨calls, called, rfl⟩ := ih
      refine ⟨_, .next ran called, ?_⟩
      simp [Call.exchanges, announced]
  · rintro ⟨calls, called, rfl⟩
    induction called with
    | done => exact .done
    | failed ran =>
      simp only [List.flatMap_singleton, Call.exchanges, announced, List.singleton_append]
      exact .failed ran
    | next ran rest ih =>
      simp only [List.flatMap_cons, Call.exchanges, announced, List.cons_append]
      exact .next ran ih

/-- The calls of the hooks of the loop at a point. -/
def LoopHookCalls (point : HookPoint) (hooks : List (Named (LoopHook σ))) :
    Memory σ → List (Call σ) → Except Failure Unit → Memory σ → Prop :=
  CallsThrough (fun hook _ => .loopHook point hook) (fun hook _ => hook.run) hooks ()

/-- The calls of the hooks on statements, for one statement. -/
def StatementHookCalls (hooks : List (Named (StatementHook σ))) (statement : Statement) :
    Memory σ → List (Call σ) → Except Failure Statement → Memory σ → Prop :=
  CallsThrough .statementHook (fun hook statement => hook.run statement) hooks statement

/-- The calls of the hooks on outcomes, for one statement and its outcome. -/
def OutcomeHookCalls (statement : Statement) (hooks : List (Named (OutcomeHook σ)))
    (outcome : Option Outcome) :
    Memory σ → List (Call σ) → Except Failure (Option Outcome) → Memory σ → Prop :=
  CallsThrough (fun hook outcome => .outcomeHook hook statement outcome)
    (fun hook outcome => hook.run statement outcome) hooks outcome

theorem loopHooksRun_iff_calls {point : HookPoint} {hooks : List (Named (LoopHook σ))} :
    LoopHooksRun point hooks before exchanges ended after ↔
      ∃ calls, LoopHookCalls point hooks before calls ended after ∧
        exchanges = calls.flatMap Call.exchanges :=
  handedThrough_iff_calls fun _ _ => rfl

theorem statementHooksRun_iff_calls {hooks : List (Named (StatementHook σ))} :
    StatementHooksRun hooks statement before exchanges ended after ↔
      ∃ calls, StatementHookCalls hooks statement before calls ended after ∧
        exchanges = calls.flatMap Call.exchanges :=
  handedThrough_iff_calls fun _ _ => rfl

theorem outcomeHooksRun_iff_calls {hooks : List (Named (OutcomeHook σ))} :
    OutcomeHooksRun statement hooks outcome before exchanges ended after ↔
      ∃ calls, OutcomeHookCalls statement hooks outcome before calls ended after ∧
        exchanges = calls.flatMap Call.exchanges :=
  handedThrough_iff_calls fun _ _ => rfl

namespace Shell

variable {shell : Shell σ}

/-- The calls that execute a line, up to the first that fails. -/
inductive LineCalls (shell : Shell σ) (line : String) (before : Memory σ) :
    List (Call σ) → Except ShellError (Option Outcome) → Memory σ → Prop where
  | unparsed (parsed : (shell.parser.parse line).Runs before asked (.error error) after) :
      LineCalls shell line before [⟨.parser shell.parser line, before, asked, after⟩]
        (.error error) after
  | refused {failure : Failure}
      (parsed : (shell.parser.parse line).Runs before asked (.ok statement) middle)
      (handed : StatementHookCalls shell.hooks.postparse statement middle calls (.error failure)
        after) :
      LineCalls shell line before (⟨.parser shell.parser line, before, asked, middle⟩ :: calls)
        (.error (.command failure)) after
  | notFound (parsed : (shell.parser.parse line).Runs before asked (.ok statement) middle)
      (handed : StatementHookCalls shell.hooks.postparse statement middle calls (.ok final) after)
      (unbound : shell.commands.find? final.command = none) :
      LineCalls shell line before (⟨.parser shell.parser line, before, asked, middle⟩ :: calls)
        (.error (.commandNotFound final)) after
  | failed {failure : Failure}
      (parsed : (shell.parser.parse line).Runs before asked (.ok statement) middle)
      (handed : StatementHookCalls shell.hooks.postparse statement middle calls (.ok final) memory)
      (bound : shell.commands.find? final.command = some command)
      (ran : (command.run final).Runs memory others (.error failure) after) :
      LineCalls shell line before
        (⟨.parser shell.parser line, before, asked, middle⟩ ::
          (calls ++ [⟨.command command final, memory, others, after⟩]))
        (.error (.command failure)) after
  | finished (parsed : (shell.parser.parse line).Runs before asked (.ok statement) middle)
      (handed : StatementHookCalls shell.hooks.postparse statement middle calls (.ok final) memory)
      (bound : shell.commands.find? final.command = some command)
      (ran : (command.run final).Runs memory others (.ok outcome) held)
      (hooked : OutcomeHookCalls final shell.hooks.postexecute outcome held more ended after) :
      LineCalls shell line before
        (⟨.parser shell.parser line, before, asked, middle⟩ ::
          (calls ++ ⟨.command command final, memory, others, held⟩ :: more))
        (ended.mapError .command) after

theorem LineCalls.runs (calls : shell.LineCalls line before called ended after) :
    (shell.execute line).Runs before (called.flatMap Call.exchanges) ended after := by
  cases calls with
  | unparsed parsed =>
    rw [List.flatMap_singleton]
    exact parsed.bind_error
  | refused parsed handed =>
    have stopped := statementHooksRun_iff_calls.mpr ⟨_, handed, rfl⟩
    rw [List.flatMap_cons]
    refine parsed.bind (Action.Runs.bind_error ?_)
    exact Action.runs_mapError_error_iff.mpr ⟨_, HookTable.runs_statement_iff.mpr stopped, rfl⟩
  | notFound parsed handed unbound =>
    have reached := statementHooksRun_iff_calls.mpr ⟨_, handed, rfl⟩
    rw [List.flatMap_cons]
    exact runs_of_pipeline (.notFound ⟨.intro parsed reached, unbound⟩)
  | failed parsed handed bound ran =>
    have reached := statementHooksRun_iff_calls.mpr ⟨_, handed, rfl⟩
    rw [List.flatMap_cons, List.flatMap_append, List.flatMap_singleton, ← List.append_assoc]
    exact runs_of_pipeline (.raised (.command (.intro parsed reached) bound ran))
  | finished parsed handed bound ran hooked =>
    have reached := statementHooksRun_iff_calls.mpr ⟨_, handed, rfl⟩
    have closing := outcomeHooksRun_iff_calls.mpr ⟨_, hooked, rfl⟩
    rw [List.flatMap_cons, List.flatMap_append, List.flatMap_cons, ← List.append_assoc]
    refine (Prepared.intro parsed reached).execute ?_
    simp only [bound]
    refine Action.runs_record_bind_iff.mpr
      ⟨_, (Action.runs_mapError_ok_iff.mpr ran).bind ?_, rfl⟩
    exact Action.runs_mapError_iff.mpr ⟨_, HookTable.runs_outcome_iff.mpr closing, rfl⟩

theorem lineCalls_of_runs (ran : (shell.execute line).Runs before exchanges ended after) :
    ∃ called, shell.LineCalls line before called ended after ∧
      exchanges = called.flatMap Call.exchanges := by
  rcases Action.runs_bind_iff.mp ran with
    ⟨error, parsed, rfl⟩ | ⟨asked, statement, middle, rest, parsed, onward, rfl⟩
  · exact ⟨_, .unparsed parsed, by rw [List.flatMap_singleton]; rfl⟩
  rcases Action.runs_bind_iff.mp onward with
    ⟨error, wrapped, rfl⟩ | ⟨others, final, memory, later, whole, dispatched, rfl⟩
  · obtain ⟨failure, broken, rfl⟩ := Action.runs_mapError_error_iff.mp wrapped
    obtain ⟨calls, handed, rfl⟩ :=
      statementHooksRun_iff_calls.mp (HookTable.runs_statement_iff.mp broken)
    exact ⟨_, .refused parsed handed, by rw [List.flatMap_cons]; rfl⟩
  obtain ⟨calls, handed, rfl⟩ := statementHooksRun_iff_calls.mp
    (HookTable.runs_statement_iff.mp (Action.runs_mapError_ok_iff.mp whole))
  cases found : shell.commands.find? final.command with
  | none =>
    simp only [found] at dispatched
    obtain ⟨rfl, rfl, rfl⟩ := Action.runs_throw_iff.mp dispatched
    refine ⟨_, .notFound parsed handed found, ?_⟩
    rw [List.flatMap_cons, List.append_nil]
    rfl
  | some command =>
    simp only [found] at dispatched
    obtain ⟨_, announced, rfl⟩ := Action.runs_record_bind_iff.mp dispatched
    rcases Action.runs_bind_iff.mp announced with
      ⟨error, wrapped, rfl⟩ | ⟨_, outcome, held, last, returned, hooked, rfl⟩
    · obtain ⟨failure, failed, rfl⟩ := Action.runs_mapError_error_iff.mp wrapped
      refine ⟨_, .failed parsed handed found failed, ?_⟩
      rw [List.flatMap_cons, List.flatMap_append, List.flatMap_singleton]
      rfl
    · obtain ⟨outcomes, closing, rfl⟩ := Action.runs_mapError_iff.mp hooked
      obtain ⟨more, handedOn, rfl⟩ :=
        outcomeHooksRun_iff_calls.mp (HookTable.runs_outcome_iff.mp closing)
      have finished := LineCalls.finished parsed handed found
        (Action.runs_mapError_ok_iff.mp returned) handedOn
      refine ⟨_, finished, ?_⟩
      rw [List.flatMap_cons, List.flatMap_append, List.flatMap_cons]
      rfl

/-- Executing a line is making its calls. -/
theorem runs_execute_iff_calls :
    (shell.execute line).Runs before exchanges ended after ↔
      ∃ called, shell.LineCalls line before called ended after ∧
        exchanges = called.flatMap Call.exchanges := by
  constructor
  · exact lineCalls_of_runs
  · rintro ⟨called, calls, rfl⟩
    exact calls.runs

/-- One turn of the loop, told with the calls that it makes. -/
inductive TurnCalls (shell : Shell σ) (before : LoopState σ) :
    LoopStep → List (Call σ) → LoopState σ → Prop where
  | unread (took : shell.nextLine.Runs before taking (.error error) after) :
      TurnCalls shell before (.unread taking error) [] after
  | handled (took : shell.nextLine.Runs before taking (.ok none) middle)
      (said : (middle.input.source.isInteractive middle.memory.client).Runs first
        (interactive, told))
      (handler : shell.endOfInput = some handle)
      (ran : (handle interactive).ofClient.Runs { middle.memory with client := told } asked decided
        memory) :
      TurnCalls shell before
        (.endOfInput taking (first ++ endAnnounced interactive :: asked)
          (decided.mapError .command))
        [⟨.endOfInput handle interactive, { middle.memory with client := told }, asked, memory⟩]
        { middle with memory }
  | unhandled (took : shell.nextLine.Runs before taking (.ok none) middle)
      (handler : shell.endOfInput = none)
      (met : shell.EndMet middle following result after) :
      TurnCalls shell before (.endOfInput taking following result) [] after
  | blank (took : shell.nextLine.Runs before taking (.ok (some line)) after)
      (blank : Text.isBlankLine line = true) :
      TurnCalls shell before (.blank taking line) [] after
  | executed (took : shell.nextLine.Runs before taking (.ok (some line)) middle)
      (filled : Text.isBlankLine line = false)
      (ran : shell.LineCalls line middle.memory calls result memory)
      (found : ∀ statement, result ≠ .error (.commandNotFound statement)) :
      TurnCalls shell before (.executed taking (calls.flatMap Call.exchanges) line result) calls
        { middle with memory }
  | unresolved (took : shell.nextLine.Runs before taking (.ok (some line)) middle)
      (filled : Text.isBlankLine line = false)
      (ran : shell.LineCalls line middle.memory calls (.error (.commandNotFound statement))
        memory) :
      TurnCalls shell before
        (.unresolved taking (calls.flatMap Call.exchanges) line statement reported) calls
        { middle with memory }

theorem turn_iff_calls {before after : LoopState σ} :
    shell.Turn before step after ↔ ∃ calls, shell.TurnCalls before step calls after := by
  constructor
  · intro turn
    cases turn with
    | unread took => exact ⟨_, .unread took⟩
    | @endOfInput taking middle following result _ took met =>
      have ended := runs_atEndOfInput_iff.mp met
      cases handler : shell.endOfInput with
      | none => exact ⟨_, .unhandled took handler ended⟩
      | some handle =>
        cases ended with
        | handled said other ran =>
          cases handler.symm.trans other
          exact ⟨_, .handled took said handler (Action.runs_onPart_iff.mpr ⟨_, ran, rfl⟩)⟩
        | person _ unhandled | finished _ unhandled => cases handler.symm.trans unhandled
    | blank took blank => exact ⟨_, .blank took blank⟩
    | executed took filled ran found =>
      obtain ⟨calls, called, rfl⟩ := runs_execute_iff_calls.mp ran
      exact ⟨calls, .executed took filled called found⟩
    | unresolved took filled ran =>
      obtain ⟨calls, called, rfl⟩ := runs_execute_iff_calls.mp ran
      exact ⟨calls, .unresolved took filled called⟩
  · rintro ⟨calls, turn⟩
    cases turn with
    | unread took => exact .unread took
    | handled took said handler ran =>
      obtain ⟨client, worked, rfl⟩ := Action.runs_onPart_iff.mp ran
      exact .endOfInput took (runs_atEndOfInput_iff.mpr (.handled said handler worked))
    | unhandled took handler met => exact .endOfInput took (runs_atEndOfInput_iff.mpr met)
    | blank took blank => exact .blank took blank
    | executed took filled ran found => exact .executed took filled ran.runs found
    | unresolved took filled ran => exact .unresolved took filled ran.runs

/-- Turns of the loop, told with the calls that they make. -/
inductive TurnsCalls (shell : Shell σ) :
    LoopState σ → List LoopStep → List (Call σ) → Ending → LoopState σ → Prop where
  | unfinished : TurnsCalls shell state [] [] .unfinished state
  | last (turn : shell.TurnCalls before step calls after) (ends : step.ending? = some ending) :
      TurnsCalls shell before [step] calls ending after
  | next (turn : shell.TurnCalls before step calls middle) (goesOn : step.ending? = none)
      (rest : TurnsCalls shell middle steps later ending after) :
      TurnsCalls shell before (step :: steps) (calls ++ later) ending after

theorem turns_iff_calls {before after : LoopState σ} :
    shell.Turns before steps ending after ↔
      ∃ calls, shell.TurnsCalls before steps calls ending after := by
  constructor
  · intro took
    induction took with
    | unfinished => exact ⟨[], .unfinished⟩
    | last turn ends =>
      obtain ⟨calls, called⟩ := turn_iff_calls.mp turn
      exact ⟨calls, .last called ends⟩
    | next turn goesOn rest ih =>
      obtain ⟨calls, called⟩ := turn_iff_calls.mp turn
      obtain ⟨later, took⟩ := ih
      exact ⟨calls ++ later, .next called goesOn took⟩
  · intro ⟨calls, took⟩
    induction took with
    | unfinished => exact .unfinished
    | last turn ends => exact .last (turn_iff_calls.mpr ⟨_, turn⟩) ends
    | next turn goesOn rest ih => exact .next (turn_iff_calls.mpr ⟨_, turn⟩) goesOn ih

end Shell

/-- How the loop ends when an outcome has asked to stop and the hooks after it have run. -/
def Ending.closed (outcome : Outcome) : Except Failure Unit → Ending
  | .error failure => .failed (.command failure)
  | .ok _ => .stopped outcome

namespace Session

variable {session after : Session σ}

/-- A run of the loop, told with the calls that it makes: those before it, those of its turns, and
those after it if an outcome has asked to stop. -/
inductive LoopCalls (session : Session σ) :
    List Exchange → List LoopStep → List (Call σ) → Ending → Session σ → Prop where
  | preloopFailed {failure : Failure}
      (before : LoopHookCalls .preloop session.shell.hooks.preloop session.memory first
        (.error failure) entered) :
      LoopCalls session (first.flatMap Call.exchanges) [] first (.failed (.command failure))
        (session.left ⟨session.input, entered⟩)
  | ended
      (before : LoopHookCalls .preloop session.shell.hooks.preloop session.memory first (.ok ())
        entered)
      (took : session.shell.TurnsCalls ⟨session.input, entered⟩ steps calls ending state)
      (going : ∀ outcome, ending ≠ .stopped outcome) :
      LoopCalls session
        (first.flatMap Call.exchanges ++
          steps.flatMap (LoopStep.exchanges session.shell.console))
        steps (first ++ calls) ending (session.left state)
  | closed
      (before : LoopHookCalls .preloop session.shell.hooks.preloop session.memory first (.ok ())
        entered)
      (took : session.shell.TurnsCalls ⟨session.input, entered⟩ steps calls (.stopped outcome)
        state)
      (after : LoopHookCalls .postloop session.shell.hooks.postloop state.memory last closing
        held) :
      LoopCalls session
        (first.flatMap Call.exchanges ++
          (steps.flatMap (LoopStep.exchanges session.shell.console) ++
            last.flatMap Call.exchanges))
        steps (first ++ (calls ++ last)) (.closed outcome closing)
        (session.left { state with memory := held })

theorem commandLoop_iff_calls :
    session.CommandLoop exchanges steps ending after ↔
      ∃ calls, session.LoopCalls exchanges steps calls ending after := by
  constructor
  · intro looped
    cases looped with
    | preloopFailed before =>
      obtain ⟨first, called, rfl⟩ := loopHooksRun_iff_calls.mp before
      exact ⟨_, .preloopFailed called⟩
    | unfinished before took | failed before took =>
      obtain ⟨first, called, rfl⟩ := loopHooksRun_iff_calls.mp before
      obtain ⟨calls, turned⟩ := Shell.turns_iff_calls.mp took
      exact ⟨_, .ended called turned nofun⟩
    | postloopFailed before took after | stopped before took after =>
      obtain ⟨first, called, rfl⟩ := loopHooksRun_iff_calls.mp before
      obtain ⟨calls, turned⟩ := Shell.turns_iff_calls.mp took
      obtain ⟨last, closing, rfl⟩ := loopHooksRun_iff_calls.mp after
      exact ⟨_, .closed called turned closing⟩
  · rintro ⟨calls, looped⟩
    cases looped with
    | preloopFailed before =>
      exact .preloopFailed (loopHooksRun_iff_calls.mpr ⟨_, before, rfl⟩)
    | ended before took going =>
      have hooked := loopHooksRun_iff_calls.mpr ⟨_, before, rfl⟩
      have turned := Shell.turns_iff_calls.mpr ⟨_, took⟩
      cases ending with
      | stopped outcome => exact absurd rfl (going outcome)
      | failed error => exact .failed hooked turned
      | unfinished => exact .unfinished hooked turned
    | @closed _ _ _ _ _ _ _ closing _ before took after =>
      have hooked := loopHooksRun_iff_calls.mpr ⟨_, before, rfl⟩
      have turned := Shell.turns_iff_calls.mpr ⟨_, took⟩
      have finished := loopHooksRun_iff_calls.mpr ⟨_, after, rfl⟩
      cases closing with
      | error failure => exact .postloopFailed hooked turned finished
      | ok _ => exact .stopped hooked turned finished

/-- The loop runs as its calls say, given turns enough for its steps. -/
theorem runs_run_iff_calls {turns : Nat} :
    (session.run turns).Runs exchanges (ending, after) ↔
      ∃ steps calls, session.LoopCalls exchanges steps calls ending after ∧
        Shell.Enough turns steps ending := by
  simp only [runs_run_iff, commandLoop_iff_calls]
  constructor
  · intro ⟨steps, ⟨calls, looped⟩, enough⟩
    exact ⟨steps, calls, looped, enough⟩
  · intro ⟨steps, calls, looped, enough⟩
    exact ⟨steps, ⟨calls, looped⟩, enough⟩

end Session

end LineShell
