import Mathlib.Data.List.DropRight
import LineShell.Proofs.Calls
import LineShell.Proofs.Remembering
/-!
The history as a log that nothing is ever left out of. Some calls record a line, clear the log or put
the lines of the history's file in front of it; what the history holds is always the end of the log.
-/

namespace LineShell

variable {σ κ β : Type}

open LineShell.Action

/-- What can happen to the log. -/
inductive HistoryEvent where
  | recorded (line : String)
  | cleared
  /-- The lines of the history's file are put in front, none when it is missing. -/
  | restored (lines : List String)
  deriving DecidableEq, Repr

namespace HistoryEvent

def apply (log : List String) : HistoryEvent → List String
  | recorded line => log ++ [line]
  | cleared => []
  | restored lines => lines ++ log

def isRestored : HistoryEvent → Bool
  | restored _ => true
  | _ => false

/-- What the event does to a history. -/
def change (history : History) : HistoryEvent → History
  | recorded line => history.push line
  | cleared => history.clear
  | restored lines => history.restore lines

end HistoryEvent

namespace History

/-- What reading the history's file puts in front, unless it cannot be read. -/
def restored? : List Exchange → Option HistoryEvent
  | ⟨.load _, .error .notFound⟩ :: _ => some (.restored [])
  | ⟨.load _, .ok bytes⟩ :: _ => (Bytes.toText? bytes).map fun text => .restored (entriesOfText text)
  | _ => none

end History

/-- What a call does to the log: the recorder records a line, an accepted `hist -c` clears the log,
and the file is put in front when it is read. -/
def Call.historyEvent? (call : Call σ) : Option HistoryEvent :=
  match call.callee with
  | .statementHook ⟨_, .recordHistory⟩ statement => some (.recorded statement.raw)
  | .command (.builtin .hist _) statement =>
    match Builtin.histArguments statement.arguments with
    | .ok { clear := true, .. } => some .cleared
    | _ => none
  | .loopHook _ ⟨_, .restoreHistory _⟩ => History.restored? call.asked
  | _ => none

namespace History

/-- What has happened to the log in some calls. -/
def events (calls : List (Call σ)) : List HistoryEvent :=
  calls.filterMap Call.historyEvent?

/-- The log after some calls. It starts empty, and nothing is ever left out of it. -/
def log (calls : List (Call σ)) : List String :=
  (events calls).foldl HistoryEvent.apply []

/-- What a limit leaves of a log: its last entries, or all of them when the limit is zero. -/
def lastOf (limit : Nat) (log : List String) : List String :=
  if limit = 0 then log else log.rtake limit

theorem trim_eq_lastOf (limit : Nat) (entries : List String) :
    trim limit entries = lastOf limit entries := rfl

theorem trim_append_trim_right (limit : Nat) (earlier later : List String) :
    trim limit (earlier ++ trim limit later) = trim limit (earlier ++ later) := by
  unfold trim
  split
  · rfl
  · rename_i bounded
    rcases Nat.le_total later.length limit with short | long
    · simp [Nat.sub_eq_zero_of_le short]
    · have dropped : (earlier ++ later).length - limit = earlier.length + (later.length - limit) := by
        rw [List.length_append]
        omega
      have kept : (later.drop (later.length - limit)).length = limit := by
        rw [List.length_drop]
        omega
      have whole : (earlier ++ later.drop (later.length - limit)).length - limit = earlier.length := by
        rw [List.length_append, kept, Nat.add_sub_cancel]
      rw [dropped, whole, List.drop_left, ← List.drop_drop, List.drop_left]

theorem trim_trim (limit : Nat) (entries : List String) :
    trim limit (trim limit entries) = trim limit entries := by
  simpa using trim_append_trim limit entries []

end History

namespace HistoryEvent

/-- Leaving entries out at every event or once at the end comes to the same. -/
theorem trim_apply_trim (limit : Nat) (log : List String) (event : HistoryEvent) :
    History.trim limit (event.apply (History.trim limit log)) =
      History.trim limit (event.apply log) := by
  cases event with
  | recorded line => exact History.trim_append_trim limit log [line]
  | cleared => rfl
  | restored lines => exact History.trim_append_trim_right limit lines log

@[simp] theorem limit_change (history : History) (event : HistoryEvent) :
    (event.change history).limit = history.limit := by
  cases event <;> rfl

@[simp] theorem entries_change (history : History) (event : HistoryEvent) :
    (event.change history).entries =
      History.trim history.limit (event.apply history.entries) := by
  cases event with
  | recorded line => rfl
  | cleared => simp [change, apply, History.clear, History.trim]
  | restored lines => rfl

@[simp] theorem restored_change (history : History) (event : HistoryEvent) :
    (event.change history).restored = (history.restored || event.isRestored) := by
  cases event <;> simp [change, isRestored, History.push, History.clear, History.restore]

end HistoryEvent

/-- The history after an event, or the same when there is none. -/
def History.changed (history : History) (event? : Option HistoryEvent) : History :=
  event?.elim history (HistoryEvent.change history)

theorem History.Restores.changed {path : String} {before after : Memory σ}
    (restores : Restores path before asked ended after)
    (kept : trim before.history.limit before.history.entries = before.history.entries) :
    after.history = before.history.changed (restored? asked) := by
  cases restores with
  | already => rfl
  | missing =>
    have same : before.history.restore [] = { before.history with restored := true } := by
      rw [restore, List.nil_append, kept]
    exact same.symm
  | unreadable _ other =>
    unfold loaded restored?
    split
    · rename_i same
      cases same
      exact absurd rfl other
    · rename_i same
      cases same
    · rfl
  | invalid _ invalid => simp [loaded, restored?, invalid, History.changed]
  | read _ valid => simp [loaded, restored?, valid, History.changed, HistoryEvent.change]

theorem LoopHook.changed {hook : Named (LoopHook σ)} {before after : Memory σ} (point : HookPoint)
    (ran : hook.action.run.Runs before asked ended after)
    (kept : History.trim before.history.limit before.history.entries = before.history.entries) :
    after.history =
      before.history.changed (Call.historyEvent? ⟨.loopHook point hook, before, asked, after⟩) := by
  obtain ⟨name, action⟩ := hook
  cases action with
  | restoreHistory path => exact (History.runs_restoreFrom_iff.mp ran).changed kept
  | saveHistory path =>
    obtain ⟨_, _, _, rfl⟩ := History.runs_saveTo_iff.mp ran
    rfl
  | custom action => exact leaves_ofClient_history _ _ _ _ _ ran

theorem StatementHook.changed {hook : Named (StatementHook σ)} {before after : Memory σ}
    (ran : (hook.action.run statement).Runs before asked ended after) :
    after.history = before.history.changed
      (Call.historyEvent? ⟨.statementHook hook statement, before, asked, after⟩) := by
  obtain ⟨name, action⟩ := hook
  cases action with
  | recordHistory =>
    have pushed := runs_modify_bind_iff.mp ran
    obtain ⟨_, _, rfl⟩ := runs_pure_iff.mp pushed
    rfl
  | custom action => exact leaves_ofClient_history _ _ _ _ _ ran

theorem Command.changed {command : Command σ} {before after : Memory σ}
    (ran : (command.run statement).Runs before asked ended after) :
    after.history = before.history.changed
      (Call.historyEvent? ⟨.command command statement, before, asked, after⟩) := by
  cases command with
  | custom action => exact leaves_ofClient_history _ _ _ _ _ ran
  | builtin which console =>
    obtain ⟨_, worked, _⟩ := runs_map_iff.mp ran
    cases which with
    | exit => exact Builtin.leaves_history .exit nofun _ _ _ _ _ _ worked
    | echo => exact Builtin.leaves_history .echo nofun _ _ _ _ _ _ worked
    | hist =>
      simp only [Call.historyEvent?]
      cases accepted : Builtin.histArguments statement.arguments with
      | error refusal =>
        simp only [Builtin.run, accepted] at worked
        exact Builtin.leaves_refuse _ _ _ Memory.history _ _ _ _ worked
      | ok hist =>
        obtain ⟨clear, count⟩ := hist
        cases clear with
        | true =>
          obtain ⟨_, rfl⟩ := Builtin.runs_hist_clear accepted worked
          rfl
        | false =>
          obtain ⟨_, rfl⟩ := Builtin.runs_hist_list accepted worked
          rfl

/-- A call changes the history as its event says, and not at all if it has none. -/
theorem Callee.Runs.changed {callee : Callee σ} {before after : Memory σ}
    (ran : callee.Runs before asked after)
    (kept : History.trim before.history.limit before.history.entries = before.history.entries) :
    after.history =
      before.history.changed (Call.historyEvent? ⟨callee, before, asked, after⟩) := by
  cases callee with
  | parser rule line =>
    obtain ⟨ended, ran⟩ := ran
    exact rule.leaves_history line _ _ _ _ ran
  | loopHook point hook =>
    obtain ⟨ended, ran⟩ := ran
    exact LoopHook.changed point ran kept
  | statementHook hook statement =>
    obtain ⟨ended, ran⟩ := ran
    exact StatementHook.changed ran
  | command command statement =>
    obtain ⟨ended, ran⟩ := ran
    exact Command.changed ran
  | outcomeHook hook statement outcome =>
    obtain ⟨ended, ran⟩ := ran
    exact hook.action.leaves_history statement outcome _ _ _ _ ran
  | endOfInput handle interactive =>
    obtain ⟨ended, ran⟩ := ran
    exact leaves_ofClient_history _ _ _ _ _ ran

/-- The file is put in front only by a history that has not been restored. -/
theorem Callee.Runs.first {callee : Callee σ} {before after : Memory σ}
    (ran : callee.Runs before asked after)
    (event : Call.historyEvent? ⟨callee, before, asked, after⟩ = some event')
    (restored : event'.isRestored = true) : before.history.restored = false := by
  unfold Call.historyEvent? at event
  split at event
  · cases event
    cases restored
  · split at event
    · cases event
      cases restored
    · cases event
  · rename_i same
    cases same
    obtain ⟨ended, ran⟩ := ran
    cases History.runs_restoreFrom_iff.mp ran with
    | already => cases event
    | missing first | unreadable first | invalid first | read first => exact first
  · cases event

namespace History

variable {history : History}

theorem events_append (front back : List (Call σ)) :
    events (front ++ back) = events front ++ events back :=
  List.filterMap_append

theorem log_append_event (front : List (Call σ)) (call : Call σ) :
    log (front ++ [call]) = call.historyEvent?.elim (log front) (HistoryEvent.apply (log front)) := by
  rw [log, log, events_append, List.foldl_append]
  cases event : call.historyEvent? <;> simp [events, event]

/-- The history holds what its limit leaves of the log, and knows whether the file has been put in
front of it, which has happened once at most. -/
structure Reflects (bound : Nat) (history : History) (calls : List (Call σ)) : Prop where
  limit : history.limit = bound
  entries : history.entries = trim bound (log calls)
  restored : history.restored = (events calls).any HistoryEvent.isRestored
  once : (events calls).countP HistoryEvent.isRestored ≤ 1

theorem reflects_ofLimit (bound : Nat) : (ofLimit bound).Reflects bound ([] : List (Call σ)) where
  limit := rfl
  entries := by simp [ofLimit, log, events, trim]
  restored := rfl
  once := Nat.zero_le 1

theorem Reflects.call {front : List (Call σ)} {call : Call σ}
    (reflects : call.before.history.Reflects bound front)
    (ran : call.callee.Runs call.before call.asked call.after) :
    call.after.history.Reflects bound (front ++ [call]) := by
  have kept : trim call.before.history.limit call.before.history.entries =
      call.before.history.entries := by
    rw [reflects.limit, reflects.entries, trim_trim]
  have changed := ran.changed kept
  have events_eq : events (front ++ [call]) = events front ++ call.historyEvent?.toList := by
    rw [events_append]
    cases event : call.historyEvent? <;> simp [events, event]
  cases event : call.historyEvent? with
  | none =>
    have same : call.after.history = call.before.history := by rw [changed, event]; rfl
    rw [event, Option.toList_none, List.append_nil] at events_eq
    rw [same]
    refine ⟨reflects.limit, ?_, ?_, ?_⟩
    · rw [log_append_event, event]
      exact reflects.entries
    · rw [events_eq]
      exact reflects.restored
    · rw [events_eq]
      exact reflects.once
  | some happened =>
    have now : call.after.history = happened.change call.before.history := by rw [changed, event]; rfl
    rw [event, Option.toList_some] at events_eq
    rw [now]
    refine ⟨?_, ?_, ?_, ?_⟩
    · rw [HistoryEvent.limit_change, reflects.limit]
    · rw [HistoryEvent.entries_change, reflects.limit, reflects.entries,
        HistoryEvent.trim_apply_trim, log_append_event, event]
      rfl
    · rw [HistoryEvent.restored_change, reflects.restored, events_eq]
      simp
    · rw [events_eq, List.countP_append]
      by_cases restored : happened.isRestored = true
      · have first := ran.first event restored
        rw [reflects.restored] at first
        have none : (events front).countP HistoryEvent.isRestored = 0 := by
          rw [List.countP_eq_zero]
          intro other member counted
          have found : (events front).any HistoryEvent.isRestored = true :=
            List.any_eq_true.mpr ⟨other, member, counted⟩
          rw [first] at found
          cases found
        simp [none, restored]
      · have other : happened.isRestored = false := by simpa using restored
        simpa [other] using reflects.once

end History

/-- Calls made one after the other, each given the history that the one before it left. -/
inductive History.Passes : History → List (Call σ) → History → Prop where
  | none : Passes history [] history
  | call (given : call.before.history = before)
      (ran : call.callee.Runs call.before call.asked call.after)
      (rest : Passes call.after.history later after) : Passes before (call :: later) after

namespace History

variable {front back calls : List (Call σ)} {before middle after : History}

theorem Passes.append (first : Passes before front middle) (second : Passes middle back after) :
    Passes before (front ++ back) after := by
  induction first with
  | none => exact second
  | call given ran rest ih => exact .call given ran (ih second)

theorem Passes.at_call {call : Call σ} (passes : Passes before (front ++ call :: back) after) :
    Passes before front call.before.history ∧
      call.callee.Runs call.before call.asked call.after := by
  induction front generalizing before with
  | nil =>
    cases passes with
    | call given ran rest =>
      subst given
      exact ⟨.none, ran⟩
  | cons first more ih =>
    cases passes with
    | call given ran rest =>
      obtain ⟨reached, made⟩ := ih rest
      exact ⟨.call given ran reached, made⟩

theorem Passes.reflects {earlier : List (Call σ)} (passes : Passes before calls after)
    (reflects : before.Reflects bound earlier) : after.Reflects bound (earlier ++ calls) := by
  induction passes generalizing earlier with
  | none => simpa using reflects
  | call given ran rest ih =>
    subst given
    have later := ih (reflects.call ran)
    simpa using later

end History

theorem CallsThrough.passes {callee : Named κ → β → Callee σ}
    {run : κ → β → Action Failure (Memory σ) β} {hooks : List (Named κ)}
    (called : CallsThrough callee run hooks value before calls ended after)
    (runs : ∀ hook given before asked ended after,
      (run hook.action given).Runs before asked ended after →
        (callee hook given).Runs before asked after) :
    History.Passes before.history calls after.history := by
  induction called with
  | done => exact .none
  | failed ran => exact .call rfl (runs _ _ _ _ _ _ ran) .none
  | next ran rest ih => exact .call rfl (runs _ _ _ _ _ _ ran) ih

theorem CallsThrough.call_of_mem {callee : Named κ → β → Callee σ}
    {run : κ → β → Action Failure (Memory σ) β} {hooks : List (Named κ)} {last : β}
    (called : CallsThrough callee run hooks value before calls (.ok last) after)
    (member : hook ∈ hooks) :
    ∃ front call back given result, calls = front ++ call :: back ∧ call.callee = callee hook given ∧
      (run hook.action given).Runs call.before call.asked (.ok result) call.after := by
  generalize whole : Except.ok last = ended at called
  induction called with
  | done => cases member
  | failed ran => cases whole
  | next ran rest ih =>
    rcases List.mem_cons.mp member with rfl | later
    · exact ⟨[], _, _, _, _, rfl, rfl, ran⟩
    · obtain ⟨front, call, back, given, result, rfl, called, found⟩ := ih later whole
      exact ⟨_ :: front, call, back, given, result, rfl, called, found⟩

theorem LoopHookCalls.passes {point : HookPoint} {hooks : List (Named (LoopHook σ))}
    (called : LoopHookCalls point hooks before calls ended after) :
    History.Passes before.history calls after.history :=
  CallsThrough.passes called fun _ _ _ _ ended _ ran => ⟨ended, ran⟩

theorem StatementHookCalls.passes {hooks : List (Named (StatementHook σ))}
    (called : StatementHookCalls hooks statement before calls ended after) :
    History.Passes before.history calls after.history :=
  CallsThrough.passes called fun _ _ _ _ ended _ ran => ⟨ended, ran⟩

theorem OutcomeHookCalls.passes {hooks : List (Named (OutcomeHook σ))}
    (called : OutcomeHookCalls statement hooks outcome before calls ended after) :
    History.Passes before.history calls after.history :=
  CallsThrough.passes called fun _ _ _ _ ended _ ran => ⟨ended, ran⟩

namespace Shell

variable {shell : Shell σ}

theorem LineCalls.passes {before after : Memory σ}
    (calls : shell.LineCalls line before called ended after) :
    History.Passes before.history called after.history := by
  cases calls with
  | unparsed parsed => exact .call rfl ⟨_, parsed⟩ .none
  | refused parsed handed | notFound parsed handed => exact .call rfl ⟨_, parsed⟩ handed.passes
  | failed parsed handed bound ran =>
    exact .call rfl ⟨_, parsed⟩ (handed.passes.append (.call rfl ⟨_, ran⟩ .none))
  | finished parsed handed bound ran hooked =>
    exact .call rfl ⟨_, parsed⟩ (handed.passes.append (.call rfl ⟨_, ran⟩ hooked.passes))

theorem nextLine_history {before after : LoopState σ}
    (took : shell.nextLine.Runs before taking ended after) :
    after.memory.history = before.memory.history := by
  obtain ⟨⟨queue, source⟩, memory⟩ := before
  cases queue with
  | cons line later =>
    obtain ⟨_, _, rfl⟩ := runs_nextLine_queued_iff.mp took
    rfl
  | nil =>
    obtain ⟨_, _, _, rfl⟩ := runs_nextLine_live_iff.mp took
    rfl

theorem TurnCalls.passes {before after : LoopState σ}
    (turn : shell.TurnCalls before step calls after) :
    History.Passes before.memory.history calls after.memory.history := by
  cases turn with
  | unread took | blank took =>
    rw [nextLine_history took]
    exact .none
  | handled took said handler ran =>
    rw [← nextLine_history took]
    exact .call rfl ⟨_, ran⟩ .none
  | unhandled took handler met =>
    rw [← nextLine_history took]
    cases met with
    | handled said other ran => cases handler.symm.trans other
    | person | finished => exact .none
  | executed took filled ran | unresolved took filled ran =>
    rw [← nextLine_history took]
    exact ran.passes

theorem TurnsCalls.passes {before after : LoopState σ}
    (took : shell.TurnsCalls before steps calls ending after) :
    History.Passes before.memory.history calls after.memory.history := by
  induction took with
  | unfinished => exact .none
  | last turn ends => exact turn.passes
  | next turn goesOn rest ih => exact turn.passes.append ih

end Shell

namespace Session

variable {session middle after : Session σ}

theorem LoopCalls.passes (looped : session.LoopCalls exchanges steps calls ending after) :
    History.Passes session.memory.history calls after.memory.history := by
  cases looped with
  | preloopFailed before => exact before.passes
  | ended before took => exact before.passes.append took.passes
  | closed before took closing => exact before.passes.append (took.passes.append closing.passes)

end Session

end LineShell
