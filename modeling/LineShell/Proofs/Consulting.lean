import LineShell.Proofs.HistoryRefinement
import LineShell.Proofs.Sparing
/-!
Reading the history's file. A shell that keeps its history in a file comes to reading it at the start
of the loop, unless a hook of the client's fails in front of that, and goes on only when it knows what
is in the file.
-/

namespace LineShell

variable {σ κ β : Type}

open LineShell.Action

def LoopHook.IsClients (hook : LoopHook σ) : Prop :=
  ∃ action, hook = .custom action

/-- The hook that reads the history's file. -/
def History.reader (path : String) : Named (LoopHook σ) :=
  ⟨Module.historyHook, .restoreHistory path⟩

/-- Why the loop fails when the history's file cannot be read. -/
def History.unreadable (path : String) (error : DeviceError) : Failure :=
  .context ("hist: can't read " ++ path) (.device error)

/-- A shell that keeps its history in a file, behind some hooks of the client's. All other hooks before
and after the loop are the client's too, and the client's code spares the file. -/
structure Shell.Remembers (path : String) (front : List (Named (LoopHook σ))) (shell : Shell σ) :
    Prop where
  preloop : ∃ back, shell.hooks.preloop = front ++ History.reader path :: back ∧
    ∀ hook ∈ front ++ back, hook.action.IsClients
  postloop : ∀ hook ∈ shell.hooks.postloop,
    hook.action.IsClients ∨ hook.action = .saveHistory path
  client : shell.ClientAsks (Request.Spares path)

/-- The call reads the history's file, or finds that there is none. -/
def Call.Consults (path : String) (call : Call σ) : Prop :=
  call.callee = .loopHook .preloop (History.reader path) ∧
    ∃ answer later, call.asked = History.loaded path answer :: later ∧
      (answer = .error .notFound ∨
        ∃ bytes text, answer = .ok bytes ∧ Bytes.toText? bytes = some text)

/-- What a shell calls while it runs lines and the loop. -/
def Callee.OfShell (shell : Shell σ) (callee : Callee σ) : Prop :=
  callee.OfTurn shell ∨ (∃ hook ∈ shell.hooks.preloop, callee = .loopHook .preloop hook) ∨
    ∃ hook ∈ shell.hooks.postloop, callee = .loopHook .postloop hook

theorem Session.LoopCalls.ofShell {session after : Session σ}
    (told : session.LoopCalls exchanges steps calls ending after) :
    ∀ call ∈ calls, call.callee.OfShell session.shell := by
  have opening : ∀ {before made result left},
      LoopHookCalls .preloop session.shell.hooks.preloop before made result left →
        ∀ call ∈ made, call.callee.OfShell session.shell := by
    intro before made result left called call member
    obtain ⟨hook, among, _, same⟩ := CallsThrough.callee_of_mem called call member
    exact .inr (.inl ⟨hook, among, same⟩)
  have turned : ∀ {state steps made result left},
      session.shell.TurnsCalls state steps made result left →
        ∀ call ∈ made, call.callee.OfShell session.shell :=
    fun took call member => .inl (took.ofTurn call member)
  cases told with
  | preloopFailed before => exact opening before
  | ended before took => exact List.forall_mem_append.mpr ⟨opening before, turned took⟩
  | closed before took closing =>
    refine List.forall_mem_append.mpr ⟨opening before, ?_⟩
    refine List.forall_mem_append.mpr ⟨turned took, fun call member => ?_⟩
    obtain ⟨hook, among, _, same⟩ := CallsThrough.callee_of_mem closing call member
    exact .inr (.inr ⟨hook, among, same⟩)

theorem Call.not_restored_of_ofTurn {shell : Shell σ} {call : Call σ}
    (ofTurn : call.callee.OfTurn shell) (event : call.historyEvent? = some happened) :
    happened.isRestored = false := by
  unfold Call.historyEvent? at event
  split at event
  · cases event
    rfl
  · split at event
    · cases event
      rfl
    · cases event
  · rename_i called
    rw [called] at ofTurn
    cases ofTurn
  · cases event

namespace Shell.Remembers

variable {shell : Shell σ} {path : String} {front : List (Named (LoopHook σ))}

theorem preloop_cases (remembers : shell.Remembers path front) {hook : Named (LoopHook σ)}
    (among : hook ∈ shell.hooks.preloop) : hook.action.IsClients ∨ hook = History.reader path := by
  obtain ⟨back, whole, clients⟩ := remembers.preloop
  rw [whole] at among
  rcases List.mem_append.mp among with first | later
  · exact .inl (clients hook (List.mem_append_left back first))
  rcases List.mem_cons.mp later with same | last
  · exact .inr same
  · exact .inl (clients hook (List.mem_append_right front last))

theorem asks_preloop (remembers : shell.Remembers path front) :
    ∀ hook ∈ shell.hooks.preloop, hook.action.run.Asks (Request.Spares path) := by
  intro hook among
  apply (Request.spares_lenient path).asks_loopHook
  · intro action custom
    exact remembers.client.preloop among custom
  · intro file saves
    rcases remembers.preloop_cases among with ⟨action, custom⟩ | same
    · cases saves.symm.trans custom
    · rw [same] at saves
      cases saves

/-- What puts the file in front of the log has read it or found that there is none. -/
theorem consults (remembers : shell.Remembers path front) {call : Call σ}
    (ofShell : call.callee.OfShell shell)
    (ran : call.callee.Runs call.before call.asked call.after)
    (event : call.historyEvent? = some happened) (restored : happened.isRestored = true) :
    call.Consults path := by
  obtain ⟨callee, before, asked, after⟩ := call
  rcases ofShell with ofTurn | ⟨hook, among, called⟩ | ⟨hook, among, called⟩
  · cases (Call.not_restored_of_ofTurn ofTurn event).symm.trans restored
  · rcases remembers.preloop_cases among with ⟨action, custom⟩ | same
    · obtain ⟨name, action⟩ := hook
      cases custom
      cases called
      cases event
    · cases called
      rw [same] at ran event ⊢
      obtain ⟨ended, ran⟩ := ran
      have read : History.restored? asked = some happened := event
      have restores : History.Restores path before asked ended after :=
        History.runs_restoreFrom_iff.mp ran
      refine ⟨rfl, ?_⟩
      cases restores with
      | already => cases read
      | missing => exact ⟨_, _, rfl, .inl rfl⟩
      | unreadable _ other =>
        unfold History.loaded History.restored? at read
        split at read
        · rename_i same
          cases same
          exact absurd rfl other
        · rename_i same
          cases same
        · cases read
      | invalid _ invalid =>
        rw [History.loaded, History.restored?, invalid] at read
        cases read
      | read _ valid => exact ⟨_, _, rfl, .inr ⟨_, _, rfl, valid⟩⟩
  · obtain ⟨name, action⟩ := hook
    rcases remembers.postloop _ among with ⟨custom, rfl⟩ | rfl
    · cases called
      cases event
    · cases called
      cases event

end Shell.Remembers

/-- Calls of hooks that come to one of them, or to a failure in front of it. -/
theorem CallsThrough.reach {callee : Named κ → β → Callee σ}
    {run : κ → β → Action Failure (Memory σ) β} {front back : List (Named κ)} {hook : Named κ}
    (called : CallsThrough callee run (front ++ hook :: back) value before calls ended after) :
    (∃ failure, ended = .error failure ∧
      CallsThrough callee run front value before calls (.error failure) after) ∨
    ∃ first given middle asked result left rest,
      calls = first ++ ⟨callee hook given, middle, asked, left⟩ :: rest ∧
      CallsThrough callee run front value before first (.ok given) middle ∧
      (run hook.action given).Runs middle asked result left ∧
      ∀ failure, result = .error failure → rest = [] ∧ ended = .error failure ∧ after = left := by
  rcases called.split with broken | ⟨first, given, middle, rest, rfl, reached, onward⟩
  · exact .inl broken
  right
  cases onward with
  | failed ran =>
    refine ⟨first, given, middle, _, _, _, [], rfl, reached, ran, fun failure same => ?_⟩
    exact ⟨rfl, same, rfl⟩
  | next ran rest => exact ⟨first, given, middle, _, _, _, _, rfl, reached, ran, nofun⟩

theorem LoopHookCalls.history {point : HookPoint} {hooks : List (Named (LoopHook σ))}
    (called : LoopHookCalls point hooks before calls ended after)
    (clients : ∀ hook ∈ hooks, hook.action.IsClients) : after.history = before.history := by
  unfold LoopHookCalls at called
  generalize () = given at called
  induction called with
  | done => rfl
  | failed ran =>
    obtain ⟨action, custom⟩ := clients _ List.mem_cons_self
    rw [custom] at ran
    exact leaves_ofClient_history action _ _ _ _ ran
  | next ran rest ih =>
    obtain ⟨action, custom⟩ := clients _ List.mem_cons_self
    rw [custom] at ran
    have first := leaves_ofClient_history action _ _ _ _ ran
    have later := ih fun hook member => clients hook (List.mem_cons_of_mem _ member)
    exact later.trans first

theorem Host.read_of_answered {host reached : Host} {path text : String}
    (answered : Program.Answered Host.answer host
      (HookTable.announced text :: History.loaded path found :: later) reached)
    (log : host.LogSpares path) : host.files.read path = found := by
  cases answered with
  | next given rest =>
    have kept := Host.keeps_record log { level := .trace, target := HookTable.logTarget, text }
    obtain ⟨_, rfl⟩ := Prod.mk.inj given
    cases rest with
    | next loaded others =>
      obtain ⟨read, _⟩ := Prod.mk.inj loaded
      rw [← read]
      exact kept.same.symm

namespace Shell.Remembers

variable {shell : Shell σ} {path : String} {front : List (Named (LoopHook σ))} {host reached : Host}

/-- What the hooks before the loop come to as long as the file has not been read: one of the client's
fails in front of the reader, or the file cannot be read and that is the failure, or else the file can
be read or there is none. -/
theorem reads (remembers : shell.Remembers path front)
    (called : LoopHookCalls .preloop shell.hooks.preloop before calls ended entered)
    (answered : Program.Answered Host.answer host (calls.flatMap Call.exchanges ++ more) reached)
    (log : host.LogSpares path) (unread : before.history.restored = false) :
    (∃ failure, ended = .error failure ∧
      LoopHookCalls .preloop front before calls (.error failure) entered ∧
      entered.history = before.history) ∨
    (∃ error, host.files.readText path = .error error ∧ error ≠ .notFound ∧
      ended = .error (History.unreadable path error) ∧ entered.history = before.history) ∨
    host.files.Readable path := by
  have spares := remembers.asks_preloop
  obtain ⟨back, whole, clients⟩ := remembers.preloop
  have inFront : ∀ hook ∈ front, hook.action.IsClients :=
    fun hook among => clients hook (List.mem_append_left back among)
  rw [LoopHookCalls, whole] at called
  rcases called.reach with ⟨failure, broken, failed⟩ |
    ⟨first, _, middle, asked, result, left, rest, rfl, fronts, ran, failing⟩
  · exact .inl ⟨failure, broken, failed, LoopHookCalls.history failed inFront⟩
  have same : middle.history = before.history := LoopHookCalls.history fronts inFront
  rw [List.flatMap_append, List.append_assoc] at answered
  obtain ⟨there, asking, onward⟩ := answered.split
  have kept : host.Keeps path there := by
    apply Host.keeps_of_answered asking _ log
    apply LoopHookCalls.asks fronts _ (Request.spares_lenient path)
    intro hook among
    exact spares hook (whole ▸ List.mem_append_left _ among)
  have restores : History.Restores path middle asked result left :=
    History.runs_restoreFrom_iff.mp ran
  rw [← same] at unread
  -- The reader is told what was in the file all along, as nothing in front of it touches the file.
  cases restores with
  | already again => cases unread.symm.trans again
  | missing =>
    have read := (Host.read_of_answered onward kept.log).symm.trans kept.same
    exact .inr (.inr (Files.readable_of_missing read.symm))
  | @unreadable error _ other =>
    have read := (Host.read_of_answered onward kept.log).symm.trans kept.same
    obtain ⟨_, ended, rfl⟩ := failing _ rfl
    exact .inr (.inl ⟨error, Files.readText_of_error read.symm, other, ended, same⟩)
  | invalid _ invalid =>
    have read := (Host.read_of_answered onward kept.log).symm.trans kept.same
    obtain ⟨_, ended, rfl⟩ := failing _ rfl
    exact .inr (.inl ⟨_, Files.readText_of_invalid read.symm invalid, nofun, ended, same⟩)
  | read _ valid =>
    have read := (Host.read_of_answered onward kept.log).symm.trans kept.same
    exact .inr (.inr (Files.readable_of_valid read.symm valid))

end Shell.Remembers

/-- A history that knows what was in the file still knows it after more calls. -/
theorem History.Reflects.restored_append {earlier later : History} {front back : List (Call σ)}
    (whole : later.Reflects bound (front ++ back)) (part : earlier.Reflects bound front)
    (restored : earlier.restored = true) : later.restored = true := by
  rw [whole.restored, History.events_append, List.any_append, ← part.restored, restored,
    Bool.true_or]

theorem History.Restores.restored {path : String} {before after : Memory σ}
    (restores : Restores path before asked (.ok ()) after) : after.history.restored = true := by
  cases restores with
  | already again => exact again
  | missing => rfl
  | read => rfl

/-- The hooks before the loop succeed only with a history that knows what was in the file. -/
theorem LoopHookCalls.restored {path : String} {hooks : List (Named (LoopHook σ))}
    {earlier : List (Call σ)} (called : LoopHookCalls .preloop hooks before calls (.ok ()) entered)
    (member : History.reader path ∈ hooks) (reflects : before.history.Reflects bound earlier) :
    entered.history.restored = true := by
  have last := called.passes.reflects reflects
  have passes := called.passes
  obtain ⟨front, call, back, _, _, rfl, _, ran⟩ := CallsThrough.call_of_mem called member
  obtain ⟨reached, made⟩ := passes.at_call
  have restores : History.Restores path call.before call.asked (.ok ()) call.after :=
    History.runs_restoreFrom_iff.mp ran
  have known := (reached.reflects reflects).call made
  have whole : earlier ++ (front ++ call :: back) = (earlier ++ front ++ [call]) ++ back := by simp
  rw [whole] at last
  exact last.restored_append known restores.restored

namespace Session

variable {session after : Session σ} {path : String} {front : List (Named (LoopHook σ))}
  {host reached : Host}

/-- A run of the loop begins with the hooks before it, and ends with them if they fail. -/
theorem LoopCalls.opening (told : session.LoopCalls exchanges steps calls ending after) :
    ∃ first ended entered more later,
      LoopHookCalls .preloop session.shell.hooks.preloop session.memory first ended entered ∧
      exchanges = first.flatMap Call.exchanges ++ more ∧ calls = first ++ later ∧
      ∀ failure, ended = .error failure → steps = [] ∧ later = [] ∧
        ending = .failed (.command failure) ∧ after = session.left ⟨session.input, entered⟩ := by
  cases told with
  | preloopFailed before =>
    refine ⟨_, _, _, [], [], before, (List.append_nil _).symm, (List.append_nil _).symm, ?_⟩
    intro failure same
    cases same
    exact ⟨rfl, rfl, rfl, rfl⟩
  | ended before | closed before => exact ⟨_, _, _, _, _, before, rfl, rfl, nofun⟩

end Session

end LineShell
