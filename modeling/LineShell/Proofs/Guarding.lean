import Mathlib
import LineShell.Proofs.Consulting
/-!
The history's file is never overwritten unread. Whatever lines and loops a session runs that keeps its
history in a file, the file is saved only after it has been read, or found missing; as long as it
cannot be read, the loop fails before its first turn and the file stays as it is.
-/

namespace LineShell

variable {σ : Type}

open LineShell.Action

/-- What is done with a session on a host, told with all calls: lines are executed and the loop is
run. In between the client may rearrange the session, and the host may change, as long as that touches
neither the history nor its file. -/
inductive Session.UsedOn (path : String) (front : List (Named (LoopHook σ))) :
    Session σ → Host → List (Call σ) → Session σ → Host → Prop where
  | none : UsedOn path front session host [] session host
  | execute (told : session.shell.LineCalls line session.memory calls ended kept)
      (answered : Program.Answered Host.answer host (calls.flatMap Call.exchanges) reached)
      (rest : UsedOn path front { session with memory := kept } reached later after last) :
      UsedOn path front session host (calls ++ later) after last
  | loop (told : session.LoopCalls exchanges steps calls ending middle)
      (answered : Program.Answered Host.answer host exchanges reached)
      (rest : UsedOn path front middle reached later after last) :
      UsedOn path front session host (calls ++ later) after last
  | arrange (remembers : middle.shell.Remembers path front)
      (source : middle.input.source.ClientAsks (Request.Spares path))
      (history : middle.memory.history = session.memory.history) (kept : host.Keeps path reached)
      (rest : UsedOn path front middle reached calls after last) :
      UsedOn path front session host calls after last

theorem Named.mem_of_other {κ : Type} {hooks : List (Named κ)} {last hook : Named κ} {action : κ}
    (member : hook ∈ hooks ++ [last]) (acts : hook.action = action) (other : last.action ≠ action) :
    hook ∈ hooks := by
  rcases List.mem_append.mp member with old | new
  · exact old
  · rw [List.mem_singleton.mp new] at acts
    exact absurd acts other

/-- No turn reads the history's file. -/
theorem History.Passes.restored_of_ofTurn {shell : Shell σ} {earlier calls : List (Call σ)}
    {before after : History} (passes : Passes before calls after)
    (reflects : before.Reflects bound earlier)
    (ofTurn : ∀ call ∈ calls, call.callee.OfTurn shell) : after.restored = before.restored := by
  have last := passes.reflects reflects
  have none : (events calls).any HistoryEvent.isRestored = false := by
    rw [List.any_eq_false]
    intro event happened
    obtain ⟨call, made, found⟩ := List.mem_filterMap.mp happened
    rw [Call.not_restored_of_ofTurn (ofTurn call made) found]
    nofun
  rw [last.restored, reflects.restored, events_append, List.any_append, none, Bool.or_false]

/-- The hook is the client's and spares the file, or it saves the history there. -/
def LoopHook.Closes (path : String) (hook : LoopHook σ) : Prop :=
  hook.IsClients ∧ hook.run.Asks (Request.Spares path) ∨ hook = .saveHistory path

theorem Shell.Remembers.closes {shell : Shell σ} {front : List (Named (LoopHook σ))}
    (remembers : shell.Remembers path front) :
    ∀ hook ∈ shell.hooks.postloop, hook.action.Closes path := by
  intro hook among
  rcases remembers.postloop hook among with ⟨action, custom⟩ | saves
  · have asks := (remembers.client.postloop among custom).ofClient
    rw [custom]
    exact .inl ⟨⟨action, rfl⟩, asks⟩
  · exact .inr saves

/-- A hook after the loop leaves the history alone. It spares the file, or puts text into it. -/
theorem LoopHook.Closes.saves {hook : LoopHook σ} {before after : Memory σ} {host reached : Host}
    {path text : String} (closes : hook.Closes path)
    (ran : hook.run.Runs before asked ended after)
    (answered : Program.Answered Host.answer host (HookTable.announced text :: asked) reached)
    (log : host.LogSpares path) :
    after.history = before.history ∧ reached.LogSpares path ∧
      (host.files.Readable path → reached.files.Readable path) := by
  have both : Program.Answered Host.answer host ([HookTable.announced text] ++ asked) reached :=
    answered
  obtain ⟨there, announced, onward⟩ := both.split
  have kept : host.Keeps path there := by
    apply Host.keeps_of_answered announced _ log
    exact List.forall_mem_singleton.mpr ((Request.spares_lenient path).record _)
  rcases closes with ⟨⟨action, rfl⟩, asks⟩ | rfl
  · have later := Host.keeps_of_answered onward (asks.of_runs ran) kept.log
    have whole := kept.trans later
    exact ⟨leaves_ofClient_history action _ _ _ _ ran, whole.log, fun readable =>
      readable.of_same whole.same⟩
  · obtain ⟨saved, rfl, _, rfl⟩ := History.runs_saveTo_iff.mp ran
    cases onward with
    | next given rest =>
      cases rest
      have stored := Host.answer_save kept.log (Bytes.ofText after.history.fileText)
      rw [given] at stored
      obtain ⟨still, same | holds⟩ := stored
      · exact ⟨rfl, still, fun readable => (readable.of_same kept.same).of_same same⟩
      · exact ⟨rfl, still, fun _ => Files.readable_of_valid holds (Bytes.toText?_ofText _)⟩

theorem LoopHookCalls.saves {hooks : List (Named (LoopHook σ))} {host reached : Host}
    {path : String} (called : LoopHookCalls .postloop hooks before calls ended after)
    (closes : ∀ hook ∈ hooks, hook.action.Closes path)
    (answered : Program.Answered Host.answer host (calls.flatMap Call.exchanges) reached)
    (log : host.LogSpares path) :
    after.history = before.history ∧ reached.LogSpares path ∧
      (host.files.Readable path → reached.files.Readable path) := by
  unfold LoopHookCalls at called
  generalize () = given at called
  induction called generalizing host with
  | done =>
    cases answered
    exact ⟨rfl, log, id⟩
  | failed ran =>
    rw [List.flatMap_singleton] at answered
    exact (closes _ List.mem_cons_self).saves ran answered log
  | next ran rest ih =>
    rw [List.flatMap_cons] at answered
    obtain ⟨there, first, onward⟩ := answered.split
    obtain ⟨same, still, readable⟩ := (closes _ List.mem_cons_self).saves ran first log
    have others := fun hook member => closes hook (List.mem_cons_of_mem _ member)
    obtain ⟨last, kept, later⟩ := ih others onward still
    exact ⟨last.trans same, kept, later ∘ readable⟩

namespace Session

variable {session middle after fresh : Session σ} {path : String}
  {front : List (Named (LoopHook σ))} {host reached start : Host} {earlier calls more : List (Call σ)}

/-- A session on a host, with a history kept in a file. Once the history knows what was in the file,
there is text in it, or none at all. -/
structure Guards (path : String) (front : List (Named (LoopHook σ))) (session : Session σ)
    (host : Host) : Prop where
  shell : session.shell.Remembers path front
  source : session.input.source.ClientAsks (Request.Spares path)
  log : host.LogSpares path
  known : session.memory.history.restored = true → host.files.Readable path

namespace Guards

theorem execute (guards : session.Guards path front host)
    (reflects : session.memory.history.Reflects bound earlier)
    (told : session.shell.LineCalls line session.memory calls ended kept)
    (answered : Program.Answered Host.answer host (calls.flatMap Call.exchanges) reached) :
    host.Keeps path reached ∧ Guards path front { session with memory := kept } reached := by
  have spares := told.asks guards.shell.client (Request.spares_lenient path)
  have keeps := Host.keeps_of_answered answered spares guards.log
  have restored := told.passes.restored_of_ofTurn reflects told.ofTurn
  refine ⟨keeps, guards.shell, guards.source, keeps.log, fun known => ?_⟩
  exact (guards.known (restored.symm.trans known)).of_same keeps.same

/-- The hooks before the loop spare the file, and have read it when the history knows it. -/
theorem opening (guards : session.Guards path front host)
    (called : LoopHookCalls .preloop session.shell.hooks.preloop session.memory calls ended entered)
    (answered : Program.Answered Host.answer host (calls.flatMap Call.exchanges ++ later) reached) :
    ∃ there, host.Keeps path there ∧ Program.Answered Host.answer there later reached ∧
      (entered.history.restored = true → there.files.Readable path) := by
  obtain ⟨there, asking, onward⟩ := answered.split
  have spares := called.asks guards.shell.asks_preloop (Request.spares_lenient path)
  have keeps := Host.keeps_of_answered asking spares guards.log
  refine ⟨there, keeps, onward, fun known => ?_⟩
  by_cases before : session.memory.history.restored = true
  · exact (guards.known before).of_same keeps.same
  have unread : session.memory.history.restored = false := by simpa using before
  rcases guards.shell.reads called answered guards.log unread with
    ⟨_, _, _, same⟩ | ⟨_, _, _, _, same⟩ | readable
  · rw [same, unread] at known
    cases known
  · rw [same, unread] at known
    cases known
  · exact readable.of_same keeps.same

theorem turns (shell : session.shell.Remembers path front)
    (source : session.input.source.ClientAsks (Request.Spares path)) (log : host.LogSpares path)
    (took : session.shell.TurnsCalls ⟨session.input, entered⟩ steps calls ending state)
    (answered : Program.Answered Host.answer host
      (steps.flatMap (LoopStep.exchanges session.shell.console)) reached) :
    host.Keeps path reached ∧ state.input.source.ClientAsks (Request.Spares path) := by
  obtain ⟨spares, kept⟩ := took.asks shell.client (Request.spares_lenient path) source
  exact ⟨Host.keeps_of_answered answered spares log, kept⟩

/-- Running the loop, whatever comes of it, leaves a session that guards its file. -/
theorem loop (guards : session.Guards path front host)
    (reflects : session.memory.history.Reflects bound earlier)
    (told : session.LoopCalls exchanges steps calls ending after)
    (answered : Program.Answered Host.answer host exchanges reached) :
    after.Guards path front reached := by
  cases told with
  | preloopFailed before =>
    rw [← List.append_nil (List.flatMap _ _)] at answered
    obtain ⟨there, keeps, ended, known⟩ := guards.opening before answered
    cases ended
    exact ⟨guards.shell, guards.source, keeps.log, known⟩
  | ended before took =>
    obtain ⟨there, keeps, onward, known⟩ := guards.opening before answered
    obtain ⟨still, source⟩ := turns guards.shell guards.source keeps.log took onward
    have restored := took.passes.restored_of_ofTurn (before.passes.reflects reflects) took.ofTurn
    refine ⟨guards.shell, source, still.log, fun last => ?_⟩
    exact (known (restored.symm.trans last)).of_same still.same
  | closed before took closing =>
    obtain ⟨there, keeps, onward, known⟩ := guards.opening before answered
    obtain ⟨later, turned, last⟩ := onward.split
    obtain ⟨still, source⟩ := turns guards.shell guards.source keeps.log took turned
    have restored := took.passes.restored_of_ofTurn (before.passes.reflects reflects) took.ofTurn
    obtain ⟨same, log, readable⟩ := closing.saves guards.shell.closes last still.log
    refine ⟨guards.shell, source, log, fun held => readable ?_⟩
    have kept := (congrArg History.restored same).symm.trans held
    exact (known (restored.symm.trans kept)).of_same still.same

end Guards

namespace UsedOn

theorem append (first : UsedOn path front session start calls middle host)
    (second : UsedOn path front middle host more after reached) :
    UsedOn path front session start (calls ++ more) after reached := by
  induction first with
  | none => exact second
  | execute told answered rest ih =>
    rw [List.append_assoc]
    exact .execute told answered (ih second)
  | loop told answered rest ih =>
    rw [List.append_assoc]
    exact .loop told answered (ih second)
  | arrange remembers source history kept rest ih =>
    exact .arrange remembers source history kept (ih second)

theorem passes (used : UsedOn path front session start calls after host) :
    History.Passes session.memory.history calls after.memory.history := by
  induction used with
  | none => exact .none
  | execute told answered rest ih => exact told.passes.append ih
  | loop told answered rest ih => exact told.passes.append ih
  | arrange remembers source history kept rest ih => exact history ▸ ih

/-- Whatever is done with a session that guards its file, it does so still. -/
theorem guards (used : UsedOn path front session start calls after host)
    (guarded : session.Guards path front start)
    (reflects : session.memory.history.Reflects bound earlier) : after.Guards path front host := by
  induction used generalizing earlier with
  | none => exact guarded
  | execute told answered rest ih =>
    exact ih (guarded.execute reflects told answered).2 (told.passes.reflects reflects)
  | loop told answered rest ih =>
    exact ih (guarded.loop reflects told answered) (told.passes.reflects reflects)
  | arrange remembers source history kept rest ih =>
    rw [← history] at reflects
    have known := guarded.known
    rw [← history] at known
    exact ih ⟨remembers, source, kept.log, fun held => (known held).of_same kept.same⟩ reflects

end UsedOn

/-- A session that a history on a file has just been attached to guards the file. -/
theorem guards_of_loadModule {base : Session σ}
    (clients : ∀ hook ∈ base.shell.hooks.preloop ++ base.shell.hooks.postloop, hook.action.IsClients)
    (client : base.shell.ClientAsks (Request.Spares path))
    (source : base.input.source.ClientAsks (Request.Spares path))
    (unloaded : base.hasModule (Module.history limit (some path) : Module σ).name = false)
    (loaded : (loadModule (.history limit (some path))).Runs base asked (.ok ()) fresh)
    (log : start.LogSpares path) :
    fresh.Guards path base.shell.hooks.preloop start ∧
      fresh.memory.history = .ofLimit limit := by
  obtain ⟨modules, rfl⟩ := loadModule_history_eq unloaded loaded
  refine ⟨⟨⟨⟨[], rfl, ?_⟩, ?_, ?_⟩, source, log, nofun⟩, rfl⟩
  · intro hook member
    rw [List.append_nil] at member
    exact clients hook (List.mem_append_left _ member)
  · intro hook member
    rcases List.mem_append.mp member with old | new
    · exact .inl (clients hook (List.mem_append_right _ old))
    · rw [List.mem_singleton.mp new]
      exact .inr rfl
  · refine { client with preloop := ?_, postloop := ?_, postparse := ?_, command := ?_ }
    · intro hook action member custom
      exact client.preloop (Named.mem_of_other member custom nofun) custom
    · intro hook action member custom
      exact client.postloop (Named.mem_of_other member custom nofun) custom
    · intro hook action member custom
      exact client.postparse (Named.mem_of_other member custom nofun) custom
    · intro name action found
      rw [NameTable.find?_insert] at found
      split at found
      · cases found
      · exact client.command found

end Session

end LineShell
