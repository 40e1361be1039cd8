import LineShell.Proofs.Attaching
import LineShell.Proofs.BlankLines
import LineShell.Proofs.Printing
import LineShell.Proofs.Unlogged
/-!
The hook that fills in missing outcomes, behind all others. A loop goes on without an outcome as it
does with a success, so for the loop the hook makes no difference but its own calls. A line that is
executed by itself is left with a success where it was left with no outcome.
-/

namespace LineShell

variable {σ α κ β : Type}

open LineShell.Action

/-- The hook that fills in missing outcomes. -/
def Module.fillingHook : Named (OutcomeHook σ) :=
  ⟨Module.defaultOutcomeHook, .defaultOutcome⟩

/-- The shell with that hook behind its others, and with the hook's module counted. -/
def Shell.filling (shell : Shell σ) : Shell σ :=
  { shell with
    hooks := { shell.hooks with postexecute := shell.hooks.postexecute ++ [Module.fillingHook] }
    modules := shell.modules.insert (Module.defaultOutcome : Module σ).name () }

def Session.filling (session : Session σ) : Session σ :=
  { session with shell := session.shell.filling }

/-- A missing outcome is made a success. -/
def filled : Except ShellError (Option Outcome) → Except ShellError (Option Outcome) :=
  Except.map fun outcome => some (outcome.getD .success)

/-- The call of that hook: it asks for nothing and leaves the memory as it was. -/
def Call.Fills (call : Call σ) : Prop :=
  ∃ statement outcome memory,
    call = ⟨.outcomeHook Module.fillingHook statement outcome, memory, [], memory⟩

/-- The exchange that announces that hook. -/
def Exchange.AnnouncesFilling (exchange : Exchange) : Prop :=
  ∃ raw, exchange = HookTable.announced
    ("postexecute hook " ++ Module.defaultOutcomeHook ++ " on " ++ Text.quoted raw)

theorem Call.Fills.exchanges {call : Call σ} (fills : call.Fills) :
    ∃ announced, call.exchanges = [announced] ∧ announced.AnnouncesFilling := by
  obtain ⟨statement, outcome, memory, rfl⟩ := fills
  exact ⟨_, rfl, statement.raw, rfl⟩

theorem LeavesOut.exchanges {told calls : List (Call σ)} (leaves : LeavesOut Call.Fills told calls) :
    LeavesOut Exchange.AnnouncesFilling (told.flatMap Call.exchanges)
      (calls.flatMap Call.exchanges) := by
  induction leaves with
  | nil => exact .nil
  | kept _ ih =>
    rw [List.flatMap_cons, List.flatMap_cons]
    exact (LeavesOut.refl _).append ih
  | gone fills _ ih =>
    obtain ⟨announced, same, announces⟩ := fills.exchanges
    rw [List.flatMap_cons, same]
    exact .gone announces ih

theorem outcomeHookCalls_filling_iff {memory : Memory σ} :
    OutcomeHookCalls statement [Module.fillingHook] outcome memory calls ended after ↔
      calls = [⟨.outcomeHook Module.fillingHook statement outcome, memory, [], memory⟩] ∧
        ended = .ok (some (outcome.getD .success)) ∧ after = memory := by
  constructor
  · intro called
    cases called with
    | failed ran => cases (runs_pure_iff.mp ran).2.1
    | next ran rest =>
      obtain ⟨rfl, same, rfl⟩ := runs_pure_iff.mp ran
      cases same
      cases rest
      exact ⟨rfl, rfl, rfl⟩
  · rintro ⟨rfl, rfl, rfl⟩
    exact .next (runs_pure_iff.mpr ⟨rfl, rfl, rfl⟩) .done

namespace Shell

variable {shell : Shell σ} {memory : Memory σ}

/-- With the hook, a line is executed with the same calls, but for one of the hook's at the end. -/
theorem LineCalls.filling (told : shell.LineCalls line before calls ended after) :
    ∃ others, shell.filling.LineCalls line before others (filled ended) after ∧
      LeavesOut Call.Fills others calls := by
  cases told with
  | unparsed parsed => exact ⟨_, .unparsed parsed, .refl _⟩
  | refused parsed handed => exact ⟨_, .refused parsed handed, .refl _⟩
  | notFound parsed handed unbound => exact ⟨_, .notFound parsed handed unbound, .refl _⟩
  | failed parsed handed bound ran => exact ⟨_, .failed parsed handed bound ran, .refl _⟩
  | @finished _ _ _ _ final _ _ _ _ _ _ closed _ parsed handed bound ran hooked =>
    have started : (shell.filling.parser.parse line).Runs _ _ _ _ := parsed
    -- The hook is reached only if none of those before it fails.
    cases closed with
    | error failure =>
      have closing : OutcomeHookCalls final shell.filling.hooks.postexecute _ _ _ _ _ :=
        hooked.append_of_error
      exact ⟨_, .finished started handed bound ran closing, .refl _⟩
    | ok given =>
      have closing : OutcomeHookCalls final shell.filling.hooks.postexecute _ _ _ _ _ :=
        hooked.append (outcomeHookCalls_filling_iff.mpr ⟨rfl, rfl, rfl⟩)
      refine ⟨_, .finished started handed bound ran closing, ?_⟩
      exact .kept ((LeavesOut.refl _).append (.kept (.concat ⟨final, given, _, rfl⟩ _)))

/-- A line that is executed with the hook is executed without it in the same way. -/
theorem LineCalls.of_filling (told : shell.filling.LineCalls line before others ended after) :
    ∃ calls result, shell.LineCalls line before calls result after ∧ ended = filled result ∧
      LeavesOut Call.Fills others calls := by
  cases told with
  | unparsed parsed => exact ⟨_, _, .unparsed parsed, rfl, .refl _⟩
  | refused parsed handed => exact ⟨_, _, .refused parsed handed, rfl, .refl _⟩
  | notFound parsed handed unbound => exact ⟨_, _, .notFound parsed handed unbound, rfl, .refl _⟩
  | failed parsed handed bound ran => exact ⟨_, _, .failed parsed handed bound ran, rfl, .refl _⟩
  | finished parsed handed bound ran hooked =>
    rcases CallsThrough.split hooked with
      ⟨failure, rfl, failed⟩ | ⟨first, given, middle, rest, rfl, closing, last⟩
    · exact ⟨_, _, .finished parsed handed bound ran failed, rfl, .refl _⟩
    · obtain ⟨rfl, rfl, rfl⟩ := outcomeHookCalls_filling_iff.mp last
      refine ⟨_, _, .finished parsed handed bound ran closing, rfl, ?_⟩
      exact .kept ((LeavesOut.refl _).append (.kept (.concat ⟨_, given, _, rfl⟩ _)))

end Shell

/-- For the loop, a success in place of no outcome makes no difference. -/
theorem Ending.ofResult?_filled (result : Except ShellError (Option Outcome)) :
    ofResult? (filled result) = ofResult? result := by
  rcases result with error | outcome | outcome <;> rfl

theorem filled_eq_error_iff {result : Except ShellError (Option Outcome)} {error : ShellError} :
    filled result = .error error ↔ result = .error error := by
  cases result <;> simp [filled, Except.map]

/-- Steps take the same lines, and they and their calls differ by calls of that hook only. -/
structure FillsOnly (console : ConsoleId) (others steps : List LoopStep)
    (told calls : List (Call σ)) : Prop where
  lines : others.map LoopStep.line? = steps.map LoopStep.line?
  calls : LeavesOut Call.Fills told calls
  exchanges : LeavesOut Exchange.AnnouncesFilling
    (others.flatMap (LoopStep.exchanges console)) (steps.flatMap (LoopStep.exchanges console))

namespace FillsOnly

variable {console : ConsoleId} {others steps : List LoopStep} {told calls : List (Call σ)}

theorem refl (steps : List LoopStep) (calls : List (Call σ)) :
    FillsOnly console steps steps calls calls :=
  ⟨rfl, .refl _, .refl _⟩

theorem append (first : FillsOnly console others steps told calls)
    (second : FillsOnly console more rest last later) :
    FillsOnly console (others ++ more) (steps ++ rest) (told ++ last) (calls ++ later) where
  lines := by rw [List.map_append, List.map_append, first.lines, second.lines]
  calls := first.calls.append second.calls
  exchanges := by
    rw [List.flatMap_append, List.flatMap_append]
    exact first.exchanges.append second.exchanges

theorem within (only : FillsOnly console others steps told calls) :
    FillsOnly console others steps (first ++ told) (first ++ calls) :=
  { only with calls := (LeavesOut.refl _).append only.calls }

theorem followed (only : FillsOnly console others steps told calls) :
    FillsOnly console others steps (told ++ last) (calls ++ last) :=
  { only with calls := only.calls.append (.refl _) }

theorem executed (taking : List Exchange) (line : String)
    (result : Except ShellError (Option Outcome)) (leaves : LeavesOut Call.Fills told calls) :
    FillsOnly console [.executed taking (told.flatMap Call.exchanges) line (filled result)]
      [.executed taking (calls.flatMap Call.exchanges) line result] told calls where
  lines := rfl
  calls := leaves
  exchanges := by
    rw [List.flatMap_singleton, List.flatMap_singleton]
    exact (LeavesOut.refl _).append leaves.exchanges

theorem unresolved (taking : List Exchange) (line : String) (statement : Statement)
    (reported : Except DeviceError Unit) (leaves : LeavesOut Call.Fills told calls) :
    FillsOnly console [.unresolved taking (told.flatMap Call.exchanges) line statement reported]
      [.unresolved taking (calls.flatMap Call.exchanges) line statement reported] told calls where
  lines := rfl
  calls := leaves
  exchanges := by
    rw [List.flatMap_singleton, List.flatMap_singleton]
    exact (LeavesOut.refl _).append (leaves.exchanges.append (.refl _))

end FillsOnly

namespace Shell

variable {shell : Shell σ} {before after : LoopState σ}

theorem endMet_filling_iff :
    shell.filling.EndMet before exchanges ended after ↔ shell.EndMet before exchanges ended after := by
  constructor
  · intro met
    cases met with
    | handled said handler ran => exact .handled said handler ran
    | person said unhandled => exact .person said unhandled
    | finished said unhandled => exact .finished said unhandled
  · intro met
    cases met with
    | handled said handler ran => exact .handled said handler ran
    | person said unhandled => exact .person said unhandled
    | finished said unhandled => exact .finished said unhandled

/-- With the hook, a turn ends or goes on as it does without, and makes the same other calls. -/
theorem TurnCalls.filling (turn : shell.TurnCalls before step calls after) :
    ∃ other told, shell.filling.TurnCalls before other told after ∧
      other.ending? = step.ending? ∧ FillsOnly shell.console [other] [step] told calls := by
  cases turn with
  | unread took => exact ⟨_, _, .unread took, rfl, .refl _ _⟩
  | handled took said handler ran => exact ⟨_, _, .handled took said handler ran, rfl, .refl _ _⟩
  | unhandled took unhandled met =>
    exact ⟨_, _, .unhandled took unhandled (endMet_filling_iff.mpr met), rfl, .refl _ _⟩
  | blank took blank => exact ⟨_, _, .blank took blank, rfl, .refl _ _⟩
  | @executed _ line _ _ result _ took nonblank ran found =>
    obtain ⟨others, told, leaves⟩ := ran.filling
    have resolved : ∀ statement, filled result ≠ .error (.commandNotFound statement) :=
      fun statement => mt filled_eq_error_iff.mp (found statement)
    exact ⟨_, _, .executed took nonblank told resolved, Ending.ofResult?_filled _,
      .executed _ _ _ leaves⟩
  | unresolved took nonblank ran =>
    obtain ⟨others, told, leaves⟩ := ran.filling
    exact ⟨_, _, .unresolved took nonblank told, rfl, .unresolved _ _ _ _ leaves⟩

theorem TurnCalls.of_filling (turn : shell.filling.TurnCalls before other told after) :
    ∃ step calls, shell.TurnCalls before step calls after ∧
      other.ending? = step.ending? ∧ FillsOnly shell.console [other] [step] told calls := by
  cases turn with
  | unread took => exact ⟨_, _, .unread took, rfl, .refl _ _⟩
  | handled took said handler ran => exact ⟨_, _, .handled took said handler ran, rfl, .refl _ _⟩
  | unhandled took unhandled met =>
    exact ⟨_, _, .unhandled took unhandled (endMet_filling_iff.mp met), rfl, .refl _ _⟩
  | blank took blank => exact ⟨_, _, .blank took blank, rfl, .refl _ _⟩
  | executed took nonblank ran found =>
    obtain ⟨calls, result, plain, rfl, leaves⟩ := ran.of_filling
    have resolved : ∀ statement, result ≠ .error (.commandNotFound statement) :=
      fun statement => mt filled_eq_error_iff.mpr (found statement)
    exact ⟨_, _, .executed took nonblank plain resolved, Ending.ofResult?_filled _,
      .executed _ _ _ leaves⟩
  | unresolved took nonblank ran =>
    obtain ⟨calls, result, plain, same, leaves⟩ := ran.of_filling
    rw [filled_eq_error_iff.mp same.symm] at plain
    exact ⟨_, _, .unresolved took nonblank plain, rfl, .unresolved _ _ _ _ leaves⟩

theorem TurnsCalls.filling (took : shell.TurnsCalls before steps calls ending after) :
    ∃ others told, shell.filling.TurnsCalls before others told ending after ∧
      FillsOnly shell.console others steps told calls := by
  -- A turn ends alike with the hook and without, so both loops take another one or neither does.
  induction took with
  | unfinished => exact ⟨_, _, .unfinished, .refl _ _⟩
  | last turn ends =>
    obtain ⟨other, told, turned, same, only⟩ := turn.filling
    exact ⟨_, _, .last turned (same.trans ends), only⟩
  | next turn goesOn rest ih =>
    obtain ⟨other, told, turned, same, only⟩ := turn.filling
    obtain ⟨others, more, took, onward⟩ := ih
    exact ⟨_, _, .next turned (same.trans goesOn) took, only.append onward⟩

theorem TurnsCalls.of_filling (took : shell.filling.TurnsCalls before others told ending after) :
    ∃ steps calls, shell.TurnsCalls before steps calls ending after ∧
      FillsOnly shell.console others steps told calls := by
  induction took with
  | unfinished => exact ⟨_, _, .unfinished, .refl _ _⟩
  | last turn ends =>
    obtain ⟨step, calls, turned, same, only⟩ := turn.of_filling
    exact ⟨_, _, .last turned (same.symm.trans ends), only⟩
  | next turn goesOn rest ih =>
    obtain ⟨step, calls, turned, same, only⟩ := turn.of_filling
    obtain ⟨steps, later, took, onward⟩ := ih
    exact ⟨_, _, .next turned (same.symm.trans goesOn) took, only.append onward⟩

end Shell

theorem LeavesOut.written_eq {more exchanges : List Exchange}
    (leaves : LeavesOut Exchange.AnnouncesFilling more exchanges) (place : ConsoleId)
    (channel : Channel) : written place channel more = written place channel exchanges := by
  refine leaves.filterMap_eq ?_
  rintro _ ⟨raw, rfl⟩
  rfl

namespace Session

variable {session after : Session σ}

theorem LoopCalls.filling (looped : session.LoopCalls exchanges steps calls ending after) :
    ∃ more others told, session.filling.LoopCalls more others told ending after.filling ∧
      FillsOnly session.shell.console others steps told calls ∧
      LeavesOut Exchange.AnnouncesFilling more exchanges := by
  cases looped with
  | preloopFailed before => exact ⟨_, _, _, .preloopFailed before, .refl _ _, .refl _⟩
  | ended before took going =>
    obtain ⟨others, told, turned, only⟩ := took.filling
    refine ⟨_, _, _, .ended before turned going, only.within, ?_⟩
    exact (LeavesOut.refl _).append only.exchanges
  | closed before took closing =>
    obtain ⟨others, told, turned, only⟩ := took.filling
    have looped : session.filling.LoopCalls _ _ _ _ _ := .closed before turned closing
    refine ⟨_, _, _, looped, only.followed.within, ?_⟩
    exact (LeavesOut.refl _).append (only.exchanges.append (.refl _))

theorem LoopCalls.of_filling (looped : session.filling.LoopCalls more others told ending after) :
    ∃ exchanges steps calls before, session.LoopCalls exchanges steps calls ending before ∧
      after = before.filling ∧ FillsOnly session.shell.console others steps told calls ∧
      LeavesOut Exchange.AnnouncesFilling more exchanges := by
  cases looped with
  | preloopFailed before => exact ⟨_, _, _, _, .preloopFailed before, rfl, .refl _ _, .refl _⟩
  | ended before took going =>
    obtain ⟨steps, calls, turned, only⟩ := took.of_filling
    refine ⟨_, _, _, _, .ended before turned going, rfl, only.within, ?_⟩
    exact (LeavesOut.refl _).append only.exchanges
  | closed before took closing =>
    obtain ⟨steps, calls, turned, only⟩ := took.of_filling
    refine ⟨_, _, _, _, .closed before turned closing, rfl, only.followed.within, ?_⟩
    exact (LeavesOut.refl _).append (only.exchanges.append (.refl _))

end Session

theorem LeavesOut.spoken_eq {more exchanges : List Exchange}
    (leaves : LeavesOut Exchange.AnnouncesFilling more exchanges) :
    more.filterMap Exchange.spoken? = exchanges.filterMap Exchange.spoken? := by
  refine leaves.filterMap_eq ?_
  rintro _ ⟨raw, rfl⟩
  rfl

namespace Session

variable {session : Session σ}

/-- The loop asks for the same with the hook as without, and ends the same. -/
theorem unlogged_run_filling (session : Session σ) (turns : Nat) :
    (session.filling.run turns).unlogged =
      (session.run turns >>= fun ran => pure (ran.1, ran.2.filling)).unlogged := by
  refine Program.unlogged_eq_of_runs ?_
  rintro more ⟨ending, after⟩ ran
  obtain ⟨others, told, looped, enough⟩ := runs_run_iff_calls.mp ran
  obtain ⟨exchanges, steps, calls, before, plain, rfl, only, leaves⟩ := looped.of_filling
  have count : others.length = steps.length := by simpa using congrArg List.length only.lines
  have bound : Shell.Enough turns steps ending := by rwa [Shell.Enough, ← count]
  have ran : (session.run turns).Runs exchanges (ending, before) :=
    runs_run_iff_calls.mpr ⟨steps, calls, plain, bound⟩
  exact ⟨exchanges, (Program.runs_map_iff _ _).mpr ⟨_, ran, rfl⟩, leaves.spoken_eq⟩

/-- Executing a line asks for the same, and makes a missing outcome a success. -/
theorem unlogged_execute_filling (session : Session σ) (line : String) :
    (session.filling.execute line).unlogged =
      (session.execute line >>= fun ran => pure (filled ran.1, ran.2.filling)).unlogged := by
  refine Program.unlogged_eq_of_runs ?_
  rintro more ⟨ended, after⟩ ran
  obtain ⟨memory, executed, rfl⟩ := runs_execute_iff.mp ran
  obtain ⟨told, lined, rfl⟩ := Shell.runs_execute_iff_calls.mp executed
  obtain ⟨calls, result, plain, rfl, leaves⟩ := Shell.LineCalls.of_filling lined
  have ran : (session.execute line).Runs (calls.flatMap Call.exchanges)
      (result, { session with memory }) := runs_execute_iff.mpr ⟨memory, plain.runs, rfl⟩
  exact ⟨_, (Program.runs_map_iff _ _).mpr ⟨_, ran, rfl⟩, leaves.exchanges.spoken_eq⟩

/-- Loading the module of that hook puts the hook behind the others, unless it has been loaded. -/
theorem load_defaultOutcome {after : Session σ}
    (ran : (loadModule Module.defaultOutcome).Runs session asked ended after) :
    ended = .ok () ∧ after =
      if session.hasModule (Module.defaultOutcome : Module σ).name then session
      else session.filling := by
  cases loads_of_runs ran with
  | already counted => exact ⟨rfl, (if_pos counted).symm⟩
  | failed _ failed => cases (runs_modify_iff.mp failed).2.1
  | attached uncounted loaded =>
    obtain ⟨_, _, rfl⟩ := runs_modify_iff.mp loaded
    refine ⟨rfl, ?_⟩
    rw [uncounted]
    rfl

/-- Whatever a session is made of, loading the hook that fills in missing outcomes behind its other
hooks changes nothing of a run of its loop but that hook's own calls: the run has the same ending, takes
the same lines and leaves the same input and memory, calls the same otherwise, writes the same and asks
for the same but for records of the log. A line that is executed by itself comes to the same, but that a
missing outcome becomes a success. -/
theorem default_outcome_is_neutral (session : Session σ) :
    (∀ asked ended after, (loadModule Module.defaultOutcome).Runs session asked ended after →
      ended = .ok () ∧ after =
        if session.hasModule (Module.defaultOutcome : Module σ).name then session
        else session.filling) ∧
    (∀ exchanges steps calls ending after, session.LoopCalls exchanges steps calls ending after →
      ∃ more others told, session.filling.LoopCalls more others told ending after.filling ∧
        FillsOnly session.shell.console others steps told calls ∧
        ∀ place channel, written place channel more = written place channel exchanges) ∧
    (∀ more others told ending after, session.filling.LoopCalls more others told ending after →
      ∃ exchanges steps calls before, session.LoopCalls exchanges steps calls ending before ∧
        after = before.filling ∧ FillsOnly session.shell.console others steps told calls ∧
        ∀ place channel, written place channel more = written place channel exchanges) ∧
    (∀ turns, (session.filling.run turns).unlogged =
      (session.run turns >>= fun ran => pure (ran.1, ran.2.filling)).unlogged) ∧
    ∀ line, (session.filling.execute line).unlogged =
      (session.execute line >>= fun ran => pure (filled ran.1, ran.2.filling)).unlogged := by
  refine ⟨fun _ _ _ ran => load_defaultOutcome ran, ?added, ?taken, unlogged_run_filling session,
    unlogged_execute_filling session⟩
  case added =>
    intro exchanges steps calls ending after looped
    obtain ⟨more, others, told, filling, only, leaves⟩ := looped.filling
    exact ⟨more, others, told, filling, only, leaves.written_eq⟩
  case taken =>
    intro more others told ending after looped
    obtain ⟨exchanges, steps, calls, before, plain, same, only, leaves⟩ := looped.of_filling
    exact ⟨exchanges, steps, calls, before, plain, same, only, leaves.written_eq⟩

/-- A session of the client's own `quiet`, which leaves no outcome, and of `exit`. -/
def quietly : Session Unit where
  shell := {
    commands := NameTable.insert
      (NameTable.insert ∅ "quiet" (.custom fun _ => pure none)) "exit" (.builtin .exit 0) }
  input := { queue := ["quiet", "exit", "quiet"] }
  memory := { client := () }

/-- With the hook the loop still goes on after `quiet` and is stopped by `exit`. `quiet` comes to a
success. -/
theorem default_outcome_is_neutral_of_quiet :
    let answer := fun (asked : Request) (_ : Unit) => (asked.anyAnswer, ())
    (∃ asked, (loadModule Module.defaultOutcome).Runs quietly asked (.ok ()) quietly.filling) ∧
      (∃ exchanges steps calls after more others told,
        quietly.LoopCalls exchanges steps calls (.stopped (.stopWith 0)) after ∧
          after.input.queue = ["quiet"] ∧
          quietly.filling.LoopCalls more others told (.stopped (.stopWith 0)) after.filling ∧
          FillsOnly 0 others steps told calls) ∧
      ((quietly.execute "quiet").run answer ()).1.1 = .ok none ∧
      ((quietly.filling.execute "quiet").unlogged.run answer ()).1.1 = .ok (some .success) := by
  intro answer
  obtain ⟨load, added, _, _, execute⟩ := default_outcome_is_neutral quietly
  refine ⟨?loaded, ?looped, by rfl, ?executed⟩
  case loaded =>
    have ran := Program.runs_run_pair answer
      ((loadModule (Module.defaultOutcome : Module Unit)).runFrom quietly) ()
    obtain ⟨ended, after⟩ := load _ _ _ ran
    have absent : quietly.hasModule (Module.defaultOutcome : Module Unit).name = false := by rfl
    rw [absent, if_neg Bool.false_ne_true] at after
    exact ⟨_, after ▸ ended ▸ ran⟩
  case looped =>
    have ran := Program.runs_run_pair answer (quietly.run 2) ()
    have stopped : ((quietly.run 2).run answer ()).1.1 = .stopped (.stopWith 0) := by rfl
    have left : ((quietly.run 2).run answer ()).1.2.input.queue = ["quiet"] := by rfl
    obtain ⟨steps, calls, looped, _⟩ := runs_run_iff_calls.mp ran
    rw [stopped] at looped
    obtain ⟨more, others, told, filling, only, _⟩ := added _ _ _ _ _ looped
    exact ⟨_, steps, calls, _, more, others, told, looped, left, filling, only⟩
  case executed =>
    rw [execute]
    rfl

end Session

end LineShell
