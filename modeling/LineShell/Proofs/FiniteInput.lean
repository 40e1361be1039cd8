import LineShell.Proofs.Accounting
import LineShell.Proofs.BlankLines
import LineShell.Proofs.Endings
/-!
The loop on input that comes to an end: how many lines and ends of input it fetches at most, whatever
becomes of the lines.
-/

namespace LineShell

variable {σ : Type}

/-- What was decided at the end of input, for a step that met it. -/
def LoopStep.decision? : LoopStep → Option (Except ShellError Outcome)
  | unread .. => none
  | endOfInput _ _ decided => some decided
  | blank .. => none
  | executed .. => none
  | unresolved .. => none

/-- What was decided at the ends of input that steps met, in order. -/
def decisions (steps : List LoopStep) : List (Except ShellError Outcome) :=
  steps.filterMap LoopStep.decision?

theorem LoopStep.result_of_decision? {step : LoopStep} (met : step.decision? = some decided) :
    step.result = decided.map some := by
  cases step with
  | endOfInput => exact congrArg (Except.map some) (Option.some.inj met)
  | unread | blank | executed | unresolved => cases met

theorem decisions_cons (step : LoopStep) (steps : List LoopStep) :
    decisions (step :: steps) = step.decision?.toList ++ decisions steps := by
  cases met : step.decision? with
  | none => simp [decisions, met]
  | some decided => simp [decisions, met]

/-- A step that the loop goes on after has taken one of the lines that wait, or has met the end. -/
theorem Fetches.lines_length {step : LoopStep}
    (fetches : Fetches step.taking before step.fetched after)
    (continues : Ending.Continues step.result) :
    after.lines.length + 1 = before.lines.length + step.decision?.toList.length := by
  cases step with
  | unread taking error =>
    rcases continues with none | ⟨_, some, _⟩
    · cases none
    · cases some
  | endOfInput taking following decided =>
    cases fetches with
    | live took =>
      cases took with
      | exhausted => rfl
  | blank | executed | unresolved =>
    cases fetches with
    | queued => rfl
    | live took =>
      cases took with
      | line => rfl

/-- Steps that the loop goes on after are as many as the lines that they took and the ends of input
that they met. -/
theorem Fed.lines_length (fed : Fed steps before after)
    (continues : ∀ step ∈ steps, Ending.Continues step.result) :
    after.lines.length + steps.length = before.lines.length + (decisions steps).length := by
  induction fed with
  | none => rfl
  | @step before middle steps after first fetched rest ih =>
    have one := fetched.lines_length (continues first List.mem_cons_self)
    have others := ih fun step member => continues step (List.mem_cons_of_mem _ member)
    rw [decisions_cons, List.length_append, List.length_cons]
    omega

namespace Shell

variable {shell : Shell σ} {before after : LoopState σ}

theorem Turns.continues (took : shell.Turns before steps .unfinished after) :
    ∀ step ∈ steps, Ending.Continues step.result := by
  intro step member
  obtain ⟨front, back, rfl⟩ := List.append_of_mem member
  obtain ⟨_, _, _, _, ends⟩ := took.at_step
  apply LoopStep.ending?_eq_none_iff.mp
  cases ending : step.ending? with
  | none => rfl
  | some ended =>
    obtain ⟨_, rfl⟩ := ends ended ending
    exact absurd ending (Ending.ofResult?_ne_unfinished _)

/-- If each turn that goes on from the end of input uses up some of a store, the loop goes on from
there no more often than the store allows. -/
theorem Turns.decisions_le (holds : LoopState σ → Prop) (store : LoopState σ → Nat)
    (uses : ∀ {before step after}, holds before → shell.Turn before step after →
      Ending.Continues step.result →
        store after + step.decision?.toList.length ≤ store before ∧ holds after)
    (took : shell.Turns before steps ending after) (unfinished : ending = .unfinished)
    (start : holds before) : store after + (decisions steps).length ≤ store before := by
  induction took with
  | unfinished => exact Nat.le_refl _
  | last turn ends =>
    subst unfinished
    exact absurd ends (Ending.ofResult?_ne_unfinished _)
  | next turn goesOn rest ih =>
    obtain ⟨first, still⟩ := uses start turn (LoopStep.ending?_eq_none_iff.mp goesOn)
    have later := ih unfinished still
    rw [decisions_cons, List.length_append]
    omega

/-- Turns are no more than the lines that wait and the ends of input that the loop goes on from,
with one more that ends it. -/
theorem Turns.length_le {view : σ → List HeldLine} {times : Nat}
    (apart : shell.Apart view before.input.source)
    (resumes : ∀ front reached, shell.Turns before front .unfinished reached →
      (decisions front).length ≤ times)
    (took : shell.Turns before steps ending after) :
    steps.length ≤ (before.pending view).lines.length + times + 1 ∧
      (ending = .unfinished → steps.length ≤ (before.pending view).lines.length + times) := by
  have among : ∀ front reached, shell.Turns before front .unfinished reached →
      front.length ≤ (before.pending view).lines.length + times := by
    intro front reached first
    have counted := (first.fed apart).1.lines_length first.continues
    have few := resumes front reached first
    omega
  by_cases unfinished : ending = .unfinished
  · subst unfinished
    have all := among steps after took
    exact ⟨Nat.le_succ_of_le all, fun _ => all⟩
  · obtain ⟨front, final, rfl, _⟩ := took.ended unfinished
    obtain ⟨reached, _, first, _⟩ := took.at_step
    have earlier := among front reached first
    refine ⟨?_, fun same => absurd same unfinished⟩
    rw [List.length_append]
    exact Nat.succ_le_succ earlier

theorem nextLine_unattended (unattended : before.input.source.Unattended)
    (ran : shell.nextLine.Runs before asked ended after) : after.input.source.Unattended := by
  obtain ⟨⟨_ | ⟨line, queue⟩, source⟩, memory⟩ := before
  · obtain ⟨later, client, ⟨_, reading⟩, rfl⟩ := runs_nextLine_live_iff.mp ran
    exact (Source.reads_of_runs reading).unattended unattended
  · obtain ⟨_, _, rfl⟩ := runs_nextLine_queued_iff.mp ran
    exact unattended

theorem Turn.decision?_eq_none (unhandled : shell.endOfInput = none)
    (unattended : before.input.source.Unattended) (turn : shell.Turn before step after)
    (continues : Ending.Continues step.result) :
    step.decision? = none ∧ after.input.source.Unattended := by
  cases turn with
  | unread took | blank took => exact ⟨rfl, nextLine_unattended unattended took⟩
  | executed took | unresolved took =>
    have still := nextLine_unattended unattended took
    exact ⟨rfl, still⟩
  | endOfInput took met =>
    have still := nextLine_unattended unattended took
    cases runs_atEndOfInput_iff.mp met with
    | handled _ handler => cases unhandled.symm.trans handler
    | person said => cases still _ _ _ _ said
    | finished =>
      rcases continues with none | ⟨_, some, going⟩
      · cases none
      · cases some
        cases going

/-- The client counts down the ends of input that the loop may still go on from: its handler lowers
the count or does not let the loop go on, and nothing else that is the client's changes it. -/
structure CountsDown (shell : Shell σ) (source : Source σ) (left : σ → Nat) : Prop where
  handler : ∃ handle, shell.endOfInput = some handle ∧
    ∀ interactive before asked outcome after,
      (handle interactive).Runs before asked (.ok outcome) after → outcome.stop = false →
        left after < left before
  others : { shell with endOfInput := none }.LeavesAlone left
  source : ∀ interactive next, source = .custom interactive next →
    (.ofTotal interactive : Action Empty σ Bool).Leaves left ∧
      ∀ prompt console, (next prompt console).Leaves left

variable {left : σ → Nat}

theorem CountsDown.nextLine (counts : shell.CountsDown before.input.source left)
    (ran : shell.nextLine.Runs before asked ended after) :
    left after.memory.client = left before.memory.client ∧
      shell.CountsDown after.input.source left := by
  obtain ⟨⟨_ | ⟨line, queue⟩, source⟩, memory⟩ := before
  · obtain ⟨later, client, ⟨rendered, reading⟩, rfl⟩ := runs_nextLine_live_iff.mp ran
    have reads := Source.reads_of_runs reading
    have prompted : left _ = left memory.client := counts.others.renderPrompt rendered
    refine ⟨?_, counts.handler, counts.others, ?_⟩
    · cases reads with
      | empty | unshown | shown | piped | editor => exact prompted
      | custom ran => exact ((counts.source _ _ rfl).2 _ _ _ _ _ _ ran).trans prompted
    · intro interactive next own
      exact counts.source interactive next (reads.custom_of_later own)
  · obtain ⟨_, _, rfl⟩ := runs_nextLine_queued_iff.mp ran
    exact ⟨rfl, counts⟩

theorem CountsDown.isInteractive {source : Source σ} (counts : shell.CountsDown source left)
    (said : (source.isInteractive client).Runs asked (interactive, changed)) :
    left changed = left client := by
  cases source with
  | empty | buffered | editor =>
    obtain ⟨_, _, rfl⟩ := Program.runs_pure_pair_iff.mp said
    rfl
  | custom => exact (counts.source _ _ rfl).1.total said

/-- A turn that the loop goes on after lowers the count when it met the end of input. -/
theorem CountsDown.turn (counts : shell.CountsDown before.input.source left)
    (turn : shell.Turn before step after) (continues : Ending.Continues step.result) :
    left after.memory.client + step.decision?.toList.length ≤ left before.memory.client ∧
      shell.CountsDown after.input.source left := by
  cases turn with
  | unread took | blank took =>
    obtain ⟨same, still⟩ := counts.nextLine took
    exact ⟨Nat.le_of_eq same, still⟩
  | executed took filled ran | unresolved took filled ran =>
    obtain ⟨same, still⟩ := counts.nextLine took
    have executed := counts.others.execute _ _ _ _ _ ran
    exact ⟨Nat.le_of_eq (executed.trans same), still⟩
  | endOfInput took met =>
    obtain ⟨same, still⟩ := counts.nextLine took
    obtain ⟨handle, handled, lowers⟩ := counts.handler
    cases runs_atEndOfInput_iff.mp met with
    | person _ unhandled | finished _ unhandled => cases unhandled.symm.trans handled
    | @handled _ _ _ other _ decided _ said handler ran =>
      obtain rfl := Option.some.inj (handled.symm.trans handler)
      cases decided with
      | error failure =>
        rcases continues with none | ⟨_, some, _⟩
        · cases none
        · cases some
      | ok outcome =>
        rcases continues with none | ⟨_, some, going⟩
        · cases none
        · cases some
          have told := still.isInteractive said
          exact ⟨Nat.le_trans (lowers _ _ _ _ _ ran going) (Nat.le_of_eq (told.trans same)), still⟩

end Shell

namespace Session

variable {session : Session σ} {view : σ → List HeldLine}

/-- The loop comes to an end, whatever it is answered: no run fetches more than a number of times,
and one that is given as many turns has ended, and stays the same with more. -/
structure EndsWithin (session : Session σ) (bound : Nat) : Prop where
  fetches : ∀ exchanges steps ending after, session.CommandLoop exchanges steps ending after →
    steps.length ≤ bound
  ends : ∀ {τ : Type} (answer : (asked : Request) → τ → asked.Answer × τ) (surroundings : τ) turns,
    bound ≤ turns → ((session.run turns).run answer surroundings).1.1 ≠ .unfinished ∧
      (session.run turns).run answer surroundings = (session.run bound).run answer surroundings

/-- In every run, the loop ends with the end of input that is met after a number of earlier ones. -/
def StopsAfter (session : Session σ) (earlier : Nat) : Prop :=
  ∀ exchanges steps ending after, session.CommandLoop exchanges steps ending after →
    ∀ decided, (decisions steps)[earlier]? = some decided → ¬ Ending.Continues (decided.map some)

/-- No run of the loop goes on from the end of input more than a number of times. -/
def Resumes (session : Session σ) (times : Nat) : Prop :=
  ∀ exchanges steps after, session.CommandLoop exchanges steps .unfinished after →
    (decisions steps).length ≤ times

theorem StopsAfter.resumes {earlier : Nat} (stops : session.StopsAfter earlier) :
    session.Resumes earlier := by
  intro exchanges steps after looped
  apply Nat.le_of_not_lt
  intro within
  have found := List.getElem?_eq_getElem within
  obtain ⟨step, member, met⟩ := List.mem_filterMap.mp (List.getElem_mem within)
  refine stops _ _ _ _ looped _ found ?_
  cases looped with
  | unfinished _ took =>
    rw [← LoopStep.result_of_decision? met]
    exact took.continues step member

theorem resumes_of_unattended (unhandled : session.shell.endOfInput = none)
    (unattended : session.input.source.Unattended) : session.Resumes 0 := by
  intro exchanges steps after looped
  cases looped with
  | unfinished _ took =>
    refine Nat.le_trans (Nat.le_add_left _ _) (took.decisions_le
      (fun state => state.input.source.Unattended) (fun _ => 0) ?_ rfl unattended)
    intro before step after unattended turn continues
    obtain ⟨none, still⟩ := turn.decision?_eq_none unhandled unattended continues
    rw [none]
    exact ⟨Nat.le_refl 0, still⟩

theorem resumes_of_countsDown {left : σ → Nat}
    (counts : session.shell.CountsDown session.input.source left) :
    session.Resumes (left session.memory.client) := by
  intro exchanges steps after looped
  cases looped with
  | unfinished before took =>
    have entered := before.leaves counts.others.preloop
    have lowered := took.decisions_le
      (fun state => session.shell.CountsDown state.input.source left)
      (fun state => left state.memory.client) Shell.CountsDown.turn rfl counts
    rw [← entered]
    exact Nat.le_trans (Nat.le_add_left _ _) lowered

theorem preloop_pending (apart : session.shell.Apart view session.input.source)
    (before : LoopHooksRun .preloop session.shell.hooks.preloop session.memory asked ended entered) :
    LoopState.pending view ⟨session.input, entered⟩ = session.pending view :=
  loopHooks_pending before apart.leavesAlone.preloop

/-- A run of the loop is no longer than the lines that wait and the ends of input it goes on from. -/
theorem CommandLoop.length_le {times : Nat} (apart : session.shell.Apart view session.input.source)
    (resumes : session.Resumes times)
    (looped : session.CommandLoop exchanges steps ending after) :
    steps.length ≤ (session.pending view).lines.length + times + 1 ∧
      (ending = .unfinished → steps.length ≤ (session.pending view).lines.length + times) := by
  cases looped with
  | preloopFailed => exact ⟨Nat.zero_le _, nofun⟩
  | unfinished before took =>
    rw [← preloop_pending apart before]
    exact took.length_le apart fun front reached first => resumes _ front _ (.unfinished before first)
  | failed before took | postloopFailed before took | stopped before took =>
    rw [← preloop_pending apart before]
    have bounded := took.length_le apart fun front reached first =>
      resumes _ front _ (.unfinished before first)
    exact ⟨bounded.1, nofun⟩

theorem Resumes.endsWithin {times : Nat} (resumes : session.Resumes times)
    (apart : session.shell.Apart view session.input.source) :
    session.EndsWithin ((session.pending view).lines.length + times + 1) where
  fetches _ _ _ _ looped := (looped.length_le apart resumes).1
  ends answer surroundings turns enough := by
    have ended : ∀ more, (session.pending view).lines.length + times + 1 ≤ more →
        ((session.run more).run answer surroundings).1.1 ≠ .unfinished := by
      intro more within unfinished
      have ran := Program.runs_run_pair answer (session.run more) surroundings
      obtain ⟨steps, looped, _, all⟩ := runs_run_iff.mp ran
      have few := (looped.length_le apart resumes).2 unfinished
      have used := all unfinished
      omega
    exact ⟨ended turns enough, (run_of_le enough (ended _ (Nat.le_refl _))).1⟩

/-- Runs of the loop come to an end when their input does. Each step fetches once, from the queue or
from the source. With input that no person types and no handler, there is one fetch at most for each
line that waits and one more for the end. A handler that ends the loop when it is called after a
number of earlier calls adds as many fetches as there are of these, and so does one that counts its
calls down. -/
theorem run_ends_on_finite_input (session : Session σ) (view : σ → List HeldLine)
    (apart : session.shell.Apart view session.input.source) :
    let waiting := session.input.queue.length +
      (session.input.source.held view session.memory.client).length
    (∀ exchanges steps ending after, session.CommandLoop exchanges steps ending after →
      Fed steps (session.pending view) (after.pending view)) ∧
    (session.shell.endOfInput = none → session.input.source.Unattended →
      session.EndsWithin (waiting + 1)) ∧
    (∀ earlier, session.StopsAfter earlier → session.EndsWithin (waiting + (earlier + 1))) ∧
    ∀ left, session.shell.CountsDown session.input.source left →
      session.EndsWithin (waiting + (left session.memory.client + 1)) := by
  intro waiting
  have whole : (session.pending view).lines.length = waiting := by
    simp [waiting, pending, LoopState.pending, Pending.lines]
  have ends : ∀ times, session.Resumes times → session.EndsWithin (waiting + (times + 1)) := by
    intro times resumes
    rw [← whole]
    exact resumes.endsWithin apart
  refine ⟨?fed, ?unhandled, ?stops, ?counts⟩
  case fed =>
    intro exchanges steps ending after looped
    exact (looped.fed apart).1
  case unhandled =>
    intro unhandled unattended
    exact ends 0 (resumes_of_unattended unhandled unattended)
  case stops =>
    intro earlier stops
    exact ends earlier stops.resumes
  case counts =>
    intro left counts
    exact ends _ (resumes_of_countsDown counts)

/-- A blank line and one that no command is found for, and a handler that ends the loop when it is
called again. -/
theorem run_ends_on_finite_input_of_handler :
    let handle : Bool → Action Failure Nat Outcome := fun _ =>
      .ofFun fun left => pure (.ok (if left = 0 then .stopWith 4 else .success), left - 1)
    let session : Session Nat := {
      shell := { endOfInput := some handle }
      input := { queue := [""], source := .buffered true (.ofLines ["nope"]) }
      memory := { client := 1 } }
    session.shell.Apart (fun _ => []) session.input.source ∧
    session.shell.CountsDown session.input.source id ∧ session.EndsWithin 4 ∧
      ((session.run 4).runOn {}).1.1 = .stopped (.stopWith 4) := by
  intro handle session
  have apart : session.shell.Apart (fun _ => []) session.input.source := nofun
  have counts : session.shell.CountsDown session.input.source id := by
    refine ⟨⟨handle, rfl, ?_⟩, ⟨nofun, nofun, nofun, nofun, nofun, nofun, nofun, nofun⟩, nofun⟩
    intro interactive before asked outcome after ran going
    obtain ⟨_, same, rfl⟩ := Program.runs_pure_pair_iff.mp ran
    cases before with
    | zero =>
      cases same
      cases going
    | succ left => exact Nat.lt_succ_self left
  obtain ⟨_, _, _, counted⟩ := run_ends_on_finite_input session (fun _ => []) apart
  exact ⟨apart, counts, counted id counts, rfl⟩

end Session

end LineShell
