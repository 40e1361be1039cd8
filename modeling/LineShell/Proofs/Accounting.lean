import LineShell.Host
import LineShell.Proofs.Frame
import LineShell.Proofs.Loop
import LineShell.Proofs.Reading
/-!
Where the lines of the loop come from: first those of the queue, then those that the source holds,
each once and in order, over any number of runs of the loop.
-/

namespace LineShell

variable {σ : Type}

/-- The lines that wait: those of the queue, and those that the source holds. -/
structure Pending where
  queue : List String
  held : List HeldLine

/-- All lines that wait, those of the queue first. -/
def Pending.lines (pending : Pending) : List HeldLine :=
  pending.queue.map .ok ++ pending.held

/-- The lines that wait for a state of the loop. -/
def LoopState.pending (view : σ → List HeldLine) (state : LoopState σ) : Pending :=
  ⟨state.input.queue, state.input.source.held view state.memory.client⟩

/-- The lines that wait for a session. -/
def Session.pending (view : σ → List HeldLine) (session : Session σ) : Pending :=
  LoopState.pending view ⟨session.input, session.memory⟩

/-- A line is fetched: the first of the queue, which asks for nothing, or what is read from the
source when the queue is empty, after a prompt has been made. -/
inductive Fetches : List Exchange → Pending → Except ShellError (Option String) → Pending → Prop where
  | queued : Fetches [] ⟨line :: queue, held⟩ (.ok (some line)) ⟨queue, held⟩
  | live (took : Takes reading held fetched later) :
      Fetches (asked ++ reading) ⟨[], held⟩ fetched ⟨[], later⟩

namespace LoopStep

/-- The exchanges of a step while it took a line. -/
def taking : LoopStep → List Exchange
  | unread taking _ => taking
  | endOfInput taking _ _ => taking
  | blank taking _ => taking
  | executed taking _ _ _ => taking
  | unresolved taking _ _ _ _ => taking

/-- What a step was given when it took a line. -/
def fetched : LoopStep → Except ShellError (Option String)
  | unread _ error => .error error
  | endOfInput .. => .ok none
  | blank _ line => .ok (some line)
  | executed _ _ line _ => .ok (some line)
  | unresolved _ _ line _ _ => .ok (some line)

end LoopStep

/-- The lines among those that a source held, without the errors. -/
def readable (held : List HeldLine) : List String :=
  held.filterMap Except.toOption

/-- What has been drawn from the lines that wait: the first of the queue and the first that the
source held. From the source, nothing is drawn while the queue has lines. -/
structure Drawn (before : Pending) (queued : List String) (live : List HeldLine)
    (after : Pending) : Prop where
  queue : before.queue = queued ++ after.queue
  held : before.held = live ++ after.held
  order : live ≠ [] → after.queue = []

namespace Drawn

theorem nothing (pending : Pending) : Drawn pending [] [] pending :=
  ⟨rfl, rfl, fun drawn => absurd rfl drawn⟩

theorem queued_eq_nil (first : Drawn before queued live middle) (live_ne : live ≠ [])
    (second : Drawn middle more others after) : more = [] := by
  have emptied := first.order live_ne
  have split := second.queue
  rw [emptied] at split
  exact (List.append_eq_nil_iff.mp split.symm).1

theorem trans (first : Drawn before queued live middle) (second : Drawn middle more others after) :
    Drawn before (queued ++ more) (live ++ others) after where
  queue := by rw [first.queue, second.queue, List.append_assoc]
  held := by rw [first.held, second.held, List.append_assoc]
  order drawn := by
    by_cases earlier : live = []
    · apply second.order
      rwa [earlier, List.nil_append] at drawn
    · have split := second.queue
      rw [first.order earlier] at split
      exact (List.append_eq_nil_iff.mp split.symm).2

/-- The lines drawn one after the other are those of the queue before those of the source. -/
theorem lines_trans (first : Drawn before queued live middle)
    (second : Drawn middle more others after) :
    (queued ++ readable live) ++ (more ++ readable others) =
      (queued ++ more) ++ readable (live ++ others) := by
  by_cases earlier : live = []
  · simp [earlier, readable]
  · simp [first.queued_eq_nil earlier second, readable]

/-- What has been drawn comes before all that still waits. -/
theorem lines_eq (drawn : Drawn before queued live after) :
    before.lines = (queued.map .ok ++ live) ++ after.lines := by
  unfold Pending.lines
  rw [drawn.queue, drawn.held]
  by_cases untouched : live = []
  · simp [untouched]
  · simp [drawn.order untouched]

end Drawn

theorem Fetches.drawn (fetches : Fetches asked before fetched after) :
    ∃ queued live, Drawn before queued live after ∧
      fetched.toOption.join.toList = queued ++ readable live := by
  cases fetches with
  | queued => exact ⟨[_], [], ⟨rfl, rfl, fun drawn => absurd rfl drawn⟩, rfl⟩
  | live took =>
    cases took with
    | line => exact ⟨[], [_], ⟨rfl, rfl, fun _ => rfl⟩, rfl⟩
    | unreadable => exact ⟨[], [_], ⟨rfl, rfl, fun _ => rfl⟩, rfl⟩
    | exhausted => exact ⟨[], [], .nothing _, rfl⟩
    | refused refusal => exact ⟨[], [], .nothing _, rfl⟩

theorem readable_append (front back : List HeldLine) :
    readable (front ++ back) = readable front ++ readable back :=
  List.filterMap_append

theorem readable_ok (lines : List String) : readable (lines.map .ok) = lines := by
  induction lines with
  | nil => rfl
  | cons line rest ih => exact congrArg (line :: ·) ih

/-- Steps of the loop are fed from the lines that wait, one after the other. -/
inductive Fed : List LoopStep → Pending → Pending → Prop where
  | none : Fed [] pending pending
  | step (fetched : Fetches step.taking before step.fetched middle)
      (rest : Fed steps middle after) : Fed (step :: steps) before after

theorem Fed.append (first : Fed front before middle) (second : Fed back middle after) :
    Fed (front ++ back) before after := by
  induction first with
  | none => exact second
  | step fetched rest ih => exact .step fetched (ih second)

theorem LoopStep.line?_eq (step : LoopStep) : step.line? = step.fetched.toOption.join := by
  cases step <;> rfl

theorem Fed.drawn (fed : Fed steps before after) :
    ∃ queued live, Drawn before queued live after ∧
      steps.filterMap LoopStep.line? = queued ++ readable live := by
  induction fed with
  | none => exact ⟨[], [], .nothing _, rfl⟩
  | @step before middle steps after first fetched rest ih =>
    obtain ⟨queued, live, one, line⟩ := fetched.drawn
    obtain ⟨more, others, later, lines⟩ := ih
    refine ⟨queued ++ more, live ++ others, one.trans later, ?_⟩
    calc (first :: steps).filterMap LoopStep.line?
        = first.line?.toList ++ steps.filterMap LoopStep.line? := by
          cases taken : first.line? <;> simp [taken]
      _ = (queued ++ readable live) ++ (more ++ readable others) := by
          rw [first.line?_eq, line, lines]
      _ = (queued ++ more) ++ readable (live ++ others) := one.lines_trans later

namespace Shell

/-- A source of the client's serves the lines that the view shows, and nothing else that is the
client's changes them. A source of the shell's own needs no such promise. -/
def Apart (shell : Shell σ) (view : σ → List HeldLine) (source : Source σ) : Prop :=
  ∀ interactive next, source = .custom interactive next →
    Source.Serves view next ∧ (.ofTotal interactive : Action Empty σ Bool).Leaves view ∧
      shell.LeavesAlone view

variable {shell : Shell σ} {view : σ → List HeldLine}

theorem Apart.leavesAlone {source : Source σ} (apart : shell.Apart view source) :
    shell.LeavesAlone (source.held view) := by
  cases source with
  | empty | buffered | editor => exact shell.leavesAlone_of_const _
  | custom interactive next => exact (apart interactive next rfl).2.2

theorem Apart.isInteractive {source : Source σ} (apart : shell.Apart view source)
    (said : (source.isInteractive before).Runs exchanges (interactive, after)) :
    source.held view after = source.held view before := by
  cases source with
  | empty | buffered | editor => rfl
  | custom asks next => exact (apart asks next rfl).2.1.total said

theorem nextLine_fetches {before after : LoopState σ} (apart : shell.Apart view before.input.source)
    (ran : shell.nextLine.Runs before asked ended after) :
    Fetches asked (before.pending view) ended (after.pending view) ∧
      shell.Apart view after.input.source := by
  obtain ⟨⟨queue, source⟩, memory⟩ := before
  cases queue with
  | cons line queue =>
    obtain ⟨rfl, rfl, rfl⟩ := runs_nextLine_queued_iff.mp ran
    exact ⟨.queued, apart⟩
  | nil =>
    obtain ⟨later, changed, ⟨rendered, read⟩, rfl⟩ := runs_nextLine_live_iff.mp ran
    have reads := Source.reads_of_runs read
    have takes := reads.takes fun _ _ own => (apart _ _ own).1
    rw [apart.leavesAlone.renderPrompt rendered] at takes
    exact ⟨.live takes, fun _ _ own => apart _ _ (reads.custom_of_later own)⟩

theorem EndMet.pending {before after : LoopState σ} (apart : shell.Apart view before.input.source)
    (met : shell.EndMet before exchanges ended after) :
    after.pending view = before.pending view ∧ after.input = before.input := by
  cases met with
  | handled said handler ran =>
    have same := apart.leavesAlone.endOfInput handler _ _ _ _ _ ran
    have told := apart.isInteractive said
    exact ⟨congrArg (Pending.mk before.input.queue) (same.trans told), rfl⟩
  | person said | finished said =>
    exact ⟨congrArg (Pending.mk before.input.queue) (apart.isInteractive said), rfl⟩

theorem execute_pending {before : LoopState σ} (apart : shell.Apart view before.input.source)
    (ran : (shell.execute line).Runs before.memory exchanges ended after) :
    LoopState.pending view { before with memory := after } = before.pending view :=
  congrArg (Pending.mk before.input.queue) (apart.leavesAlone.execute line _ _ _ _ ran)

/-- A turn of the loop fetches one line, and leaves all the others. -/
theorem Turn.fetches {before after : LoopState σ} (apart : shell.Apart view before.input.source)
    (turn : shell.Turn before step after) :
    Fetches step.taking (before.pending view) step.fetched (after.pending view) ∧
      shell.Apart view after.input.source := by
  cases turn with
  | unread took | blank took => exact nextLine_fetches apart took
  | endOfInput took met =>
    obtain ⟨fetches, still⟩ := nextLine_fetches apart took
    obtain ⟨same, input⟩ := EndMet.pending still (runs_atEndOfInput_iff.mp met)
    rw [same, input]
    exact ⟨fetches, still⟩
  | executed took filled ran | unresolved took filled ran =>
    obtain ⟨fetches, still⟩ := nextLine_fetches apart took
    rw [execute_pending still ran]
    exact ⟨fetches, still⟩

theorem Turns.fed {before after : LoopState σ} (apart : shell.Apart view before.input.source)
    (took : shell.Turns before steps ending after) :
    Fed steps (before.pending view) (after.pending view) ∧
      shell.Apart view after.input.source := by
  induction took with
  | unfinished => exact ⟨.none, apart⟩
  | last turn ends =>
    obtain ⟨fetches, still⟩ := turn.fetches apart
    exact ⟨.step fetches .none, still⟩
  | next turn goesOn rest ih =>
    obtain ⟨fetches, still⟩ := turn.fetches apart
    obtain ⟨fed, last⟩ := ih still
    exact ⟨.step fetches fed, last⟩

end Shell

namespace Session

/-- The loop is run any number of times, with nothing in between. Of each run, the steps are kept. -/
inductive Calls : Session σ → List (List LoopStep) → Session σ → Prop where
  | none : Calls session [] session
  | call (ran : (session.run turns).Runs exchanges (ending, middle))
      (looped : session.CommandLoop exchanges steps ending middle)
      (rest : Calls middle later after) : Calls session (steps :: later) after

/-- Runs of the loop account for the lines that waited: each step was fed from them, the lines that
the steps took are the first of them, and all others wait still. -/
structure Accounts (view : σ → List HeldLine) (session : Session σ) (calls : List (List LoopStep))
    (after : Session σ) : Prop where
  fed : Fed calls.flatten (session.pending view) (after.pending view)
  taken : ∃ queued live, Drawn (session.pending view) queued live (after.pending view) ∧
    (session.pending view).lines = (queued.map .ok ++ live) ++ (after.pending view).lines ∧
    calls.flatten.filterMap LoopStep.line? = readable (queued.map .ok ++ live)

variable {session after : Session σ} {view : σ → List HeldLine}

theorem loopHooks_pending {point : HookPoint} {hooks : List (Named (LoopHook σ))}
    {input : Input σ} {before left : Memory σ}
    (ran : LoopHooksRun point hooks before exchanges ended left)
    (custom : ∀ {hook action}, hook ∈ hooks → hook.action = .custom action →
      action.Leaves (input.source.held view)) :
    LoopState.pending view ⟨input, left⟩ = LoopState.pending view ⟨input, before⟩ :=
  congrArg (Pending.mk input.queue) (ran.leaves custom)

/-- A run of the loop feeds its steps, and leaves all lines that they did not take. -/
theorem CommandLoop.fed (apart : session.shell.Apart view session.input.source)
    (looped : session.CommandLoop exchanges steps ending after) :
    Fed steps (session.pending view) (after.pending view) ∧
      after.shell.Apart view after.input.source := by
  cases looped with
  | preloopFailed hooked =>
    have same := loopHooks_pending hooked apart.leavesAlone.preloop
    rw [pending, pending, left, same]
    exact ⟨.none, apart⟩
  | unfinished hooked took | failed hooked took =>
    have same := loopHooks_pending hooked apart.leavesAlone.preloop
    obtain ⟨fed, still⟩ := took.fed apart
    rw [same] at fed
    exact ⟨fed, still⟩
  | postloopFailed hooked took closing | stopped hooked took closing =>
    have same := loopHooks_pending hooked apart.leavesAlone.preloop
    obtain ⟨fed, still⟩ := took.fed apart
    rw [same, ← loopHooks_pending closing still.leavesAlone.postloop] at fed
    exact ⟨fed, still⟩

theorem Calls.split (calls : session.Calls (first ++ later) after) :
    ∃ middle, session.Calls first middle ∧ middle.Calls later after := by
  induction first generalizing session with
  | nil => exact ⟨session, .none, calls⟩
  | cons steps more ih =>
    cases calls with
    | call ran looped rest =>
      obtain ⟨middle, front, back⟩ := ih rest
      exact ⟨middle, .call ran looped front, back⟩

theorem Calls.fed (apart : session.shell.Apart view session.input.source)
    (calls : session.Calls steps after) :
    Fed steps.flatten (session.pending view) (after.pending view) ∧
      after.shell.Apart view after.input.source := by
  induction calls with
  | none => exact ⟨.none, apart⟩
  | call ran looped rest ih =>
    obtain ⟨first, still⟩ := looped.fed apart
    obtain ⟨later, last⟩ := ih still
    exact ⟨first.append later, last⟩

theorem Calls.accounts (apart : session.shell.Apart view session.input.source)
    (calls : session.Calls steps after) : session.Accounts view steps after := by
  obtain ⟨fed, _⟩ := calls.fed apart
  obtain ⟨queued, live, drawn, lines⟩ := fed.drawn
  refine ⟨fed, queued, live, drawn, drawn.lines_eq, ?_⟩
  rw [lines, readable_append, readable_ok]

/-- Any number of runs take the lines of the queue and then those of the source, each once and in
order, and every run goes on with the line after the last one that was taken. A run that fails in
the hooks before the loop takes none. -/
theorem runs_account_for_input (session : Session σ) (view : σ → List HeldLine)
    (apart : session.shell.Apart view session.input.source) :
    (∀ turns exchanges ending after, (session.run turns).Runs exchanges (ending, after) →
      ∃ steps, session.Calls [steps] after) ∧
    (∀ first later after, session.Calls (first ++ later) after →
      ∃ middle, session.Calls first middle ∧ middle.Calls later after ∧
        session.Accounts view first middle ∧ middle.Accounts view later after ∧
        session.Accounts view (first ++ later) after) ∧
    (∀ turns asked broken entered,
      LoopHooksRun .preloop session.shell.hooks.preloop session.memory asked (.error broken)
        entered →
      ∃ after, (session.run turns).Runs asked (.failed (.command broken), after) ∧
        session.Calls [[]] after ∧ after.input = session.input ∧
        after.pending view = session.pending view) := by
  refine ⟨?_, ?_, ?_⟩
  · intro turns exchanges ending after ran
    obtain ⟨steps, looped, _⟩ := commandLoop_of_runs ran
    exact ⟨steps, .call ran looped .none⟩
  · intro first later after calls
    obtain ⟨middle, front, back⟩ := calls.split
    obtain ⟨_, still⟩ := front.fed apart
    exact ⟨middle, front, back, front.accounts apart, back.accounts still, calls.accounts apart⟩
  · intro turns asked broken entered hooked
    have looped := CommandLoop.preloopFailed hooked
    have ran : (session.run turns).Runs asked (.failed (.command broken), _) :=
      looped.runs ⟨Nat.zero_le _, nofun⟩
    have same := loopHooks_pending hooked apart.leavesAlone.preloop
    exact ⟨_, ran, .call ran looped .none, rfl, same⟩

/-- A source of the client's own, read after the queue: what follows the line that ends the loop
waits still. -/
theorem runs_account_for_input_of_list :
    let next : String → ConsoleId → Action ShellError (List String) (Option String) :=
      fun _ _ => .ofFun fun lines => pure (.ok lines.head?, lines.tail)
    let view : List String → List HeldLine := fun lines => lines.map .ok
    let session : Session (List String) := {
      shell := { commands := NameTable.insert ∅ "exit" (.builtin .exit 0) }
      input := { queue := [""], source := .custom (pure false) next }
      memory := { client := ["exit", "echo"] } }
    session.shell.Apart view session.input.source ∧
    ∃ steps after, session.Calls [steps] after ∧
      [steps].flatten.filterMap LoopStep.line? = ["", "exit"] ∧
      (after.pending view).lines = [.ok "echo"] := by
  intro next view session
  have serves : Source.Serves view next := by
    intro prompt console before exchanges ended after ran
    obtain ⟨_, rfl, rfl⟩ := Program.runs_pure_pair_iff.mp ran
    cases before with
    | nil => exact .exhausted
    | cons line rest => exact .line
  have apart : session.shell.Apart view session.input.source := by
    intro interactive other same
    cases same
    have answers : (.ofTotal (pure false) : Action Empty (List String) Bool).Leaves view := by
      intro before exchanges ended after ran
      obtain ⟨_, said, _⟩ := Action.runs_ofTotal_iff.mp ran
      rw [(Program.runs_pure_pair_iff.mp said).2.2]
    refine ⟨serves, answers, nofun, nofun, nofun, nofun, nofun, ?_, nofun, nofun⟩
    intro name action found
    rw [NameTable.find?_insert] at found
    split at found <;> cases found
  obtain ⟨called, accounted, _⟩ := runs_account_for_input session view apart
  have ran := Program.runs_run Host.answer (session.run 2) {}
  obtain ⟨steps, calls⟩ := called 2 _ _ _ ran
  obtain ⟨_, _, _, _, _, accounts⟩ := accounted [] [steps] _ calls
  obtain ⟨queued, live, _, waited, lines⟩ := accounts.taken
  have split : (queued.map .ok ++ live) ++ [.ok "echo"] =
      ([.ok "", .ok "exit"] : List HeldLine) ++ [.ok "echo"] := waited.symm
  have taken := List.append_cancel_right split
  refine ⟨apart, steps, _, calls, ?_, rfl⟩
  rw [← List.nil_append [steps], lines, taken]
  rfl

end Session

end LineShell
