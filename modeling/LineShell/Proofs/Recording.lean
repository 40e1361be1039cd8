import LineShell.Proofs.Accounting
import LineShell.Proofs.Failures
import LineShell.Proofs.Requests
/-!
Which lines a shell records. What the history holds after some calls was in it before, or a call has
brought it; and a turn of the loop brings the line that it took and no other, unless the client's code
puts another line in its place.
-/

namespace LineShell

variable {σ : Type}

open LineShell.Action

/-- What an event can bring into the log. -/
def HistoryEvent.Brings (entry : String) : HistoryEvent → Prop
  | recorded line => entry = line
  | cleared => False
  | restored lines => entry ∈ lines

theorem HistoryEvent.mem_apply {event : HistoryEvent} {log : List String}
    (member : entry ∈ event.apply log) : entry ∈ log ∨ event.Brings entry := by
  cases event with
  | recorded line =>
    rcases List.mem_append.mp member with old | new
    · exact .inl old
    · exact .inr (List.mem_singleton.mp new)
  | cleared => cases member
  | restored lines =>
    rcases List.mem_append.mp member with new | old
    · exact .inr new
    · exact .inl old

/-- What a history holds after some calls it held before them, or one of them has brought it. -/
theorem History.Passes.mem_entries {before after : History} {calls : List (Call σ)}
    (passes : Passes before calls after) (kept : trim before.limit before.entries = before.entries)
    (member : entry ∈ after.entries) :
    entry ∈ before.entries ∨
      ∃ call ∈ calls, ∃ event, call.historyEvent? = some event ∧ event.Brings entry := by
  induction passes with
  | none => exact .inl member
  | @call _ later _ call given ran rest ih =>
    subst given
    have changed := ran.changed kept
    cases happened : call.historyEvent? with
    | none =>
      have same : call.after.history = call.before.history := by
        rw [changed, happened]
        rfl
      rw [same] at ih
      rcases ih kept member with old | ⟨other, among, brought⟩
      · exact .inl old
      · exact .inr ⟨other, List.mem_cons_of_mem call among, brought⟩
    | some event =>
      have now : call.after.history = event.change call.before.history := by
        rw [changed, happened]
        rfl
      rw [now, HistoryEvent.limit_change, HistoryEvent.entries_change, trim_trim] at ih
      rcases ih rfl member with old | ⟨other, among, brought⟩
      · rcases HistoryEvent.mem_apply ((trim_suffix _ _).subset old) with older | new
        · exact .inl older
        · exact .inr ⟨call, List.mem_cons_self, event, happened, new⟩
      · exact .inr ⟨other, List.mem_cons_of_mem call among, brought⟩

/-- The client's hooks that come before a recorder hand on the line that a statement came from. -/
def KeepsRaw (hooks : List (Named (StatementHook σ))) : Prop :=
  ∀ front hook back action, hooks = front ++ hook :: back → hook.action = .custom action →
    (∃ recorder ∈ back, recorder.action = .recordHistory) →
      ∀ statement client asked given changed,
        (action statement).Runs client asked (.ok given) changed → given.raw = statement.raw

/-- The lines that the shell records are those that it executes: neither the client's parser nor a
hook before a recorder puts another one in their place. -/
structure Shell.RecordsLines (shell : Shell σ) : Prop where
  parser : ∀ {parse}, shell.parser = .custom parse → ∀ line client asked statement changed,
    (parse line).Runs client asked (.ok statement) changed → statement.raw = line
  postparse : KeepsRaw shell.hooks.postparse

theorem KeepsRaw.tail {hook : Named (StatementHook σ)} {later : List (Named (StatementHook σ))}
    (keeps : KeepsRaw (hook :: later)) : KeepsRaw later :=
  fun front other back action whole => keeps (hook :: front) other back action (by rw [whole]; rfl)

theorem StatementHook.raw_of_runs {hook : Named (StatementHook σ)} {before after : Memory σ}
    {later : List (Named (StatementHook σ))} (keeps : KeepsRaw (hook :: later))
    (records : ∃ recorder ∈ later, recorder.action = .recordHistory)
    (ran : (hook.action.run statement).Runs before asked (.ok given) after) :
    given.raw = statement.raw := by
  cases acts : hook.action with
  | recordHistory =>
    rw [acts] at ran
    have handedOn : (pure statement : Action Failure (Memory σ) Statement).Runs _ _ _ _ :=
      runs_modify_bind_iff.mp ran
    obtain ⟨_, same, _⟩ := runs_pure_iff.mp handedOn
    rw [Except.ok.inj same]
  | custom action =>
    rw [acts] at ran
    obtain ⟨_, worked, _⟩ := runs_onPart_iff.mp ran
    exact keeps [] hook later action rfl acts records _ _ _ _ _ worked

/-- A hook on statements brings a line into the log only as a recorder, and only the statement's. -/
theorem StatementHook.recorded_of_event {hook : Named (StatementHook σ)} {before after : Memory σ}
    (event : Call.historyEvent? ⟨.statementHook hook statement, before, asked, after⟩ = some happened) :
    hook.action = .recordHistory ∧ happened = .recorded statement.raw := by
  obtain ⟨name, action⟩ := hook
  cases action with
  | recordHistory => exact ⟨rfl, (Option.some.inj event).symm⟩
  | custom action => cases event

theorem StatementHookCalls.recorded {hooks : List (Named (StatementHook σ))}
    (called : StatementHookCalls hooks statement before calls ended after) (keeps : KeepsRaw hooks) :
    ∀ call ∈ calls, ∀ event, call.historyEvent? = some event →
      event = .recorded statement.raw := by
  unfold StatementHookCalls at called
  induction called with
  | done => nofun
  | failed ran =>
    intro call member event happened
    obtain rfl := List.mem_singleton.mp member
    exact (StatementHook.recorded_of_event happened).2
  | next ran rest ih =>
    intro call member event happened
    rcases List.mem_cons.mp member with rfl | further
    · exact (StatementHook.recorded_of_event happened).2
    · obtain ⟨recorder, among, value, called⟩ := rest.callee_of_mem call further
      have records : recorder.action = .recordHistory := by
        obtain ⟨callee, _, _, _⟩ := call
        obtain rfl : callee = .statementHook recorder value := called
        exact (StatementHook.recorded_of_event happened).1
      rw [← StatementHook.raw_of_runs keeps ⟨recorder, among, records⟩ ran]
      exact ih keeps.tail call further event happened

namespace Shell

variable {shell : Shell σ}

theorem RecordsLines.raw_of_parse {before after : Memory σ} (records : shell.RecordsLines)
    (parsed : (shell.parser.parse line).Runs before asked (.ok statement) after) :
    statement.raw = line := by
  cases chosen : shell.parser with
  | words rule =>
    rw [chosen] at parsed
    obtain ⟨_, accepted, _⟩ := Parser.runs_words_iff.mp parsed
    exact WordRule.raw_of_parse accepted.symm
  | custom parse =>
    rw [chosen] at parsed
    obtain ⟨_, worked, _⟩ := runs_onPart_iff.mp parsed
    exact records.parser chosen _ _ _ _ _ worked

/-- No command and no hook on outcomes brings anything into the log. -/
theorem not_brings_of_command {command : Command σ} {before after : Memory σ}
    (happened : Call.historyEvent? ⟨.command command statement, before, asked, after⟩ = some event) :
    ¬event.Brings entry := by
  unfold Call.historyEvent? at happened
  split at happened
  · rename_i impossible
    cases impossible
  · split at happened
    · cases happened
      exact id
    · cases happened
  · rename_i impossible
    cases impossible
  · cases happened

theorem LineCalls.recorded {before after : Memory σ}
    (told : shell.LineCalls line before calls ended after) (records : shell.RecordsLines) :
    ∀ call ∈ calls, ∀ event, call.historyEvent? = some event → event.Brings entry → entry = line := by
  have handedOn : ∀ {statement middle made result left parsed asked},
      (shell.parser.parse line).Runs before asked (.ok statement) parsed →
      StatementHookCalls shell.hooks.postparse statement middle made result left →
        ∀ call ∈ made, ∀ event, call.historyEvent? = some event → event.Brings entry →
          entry = line := by
    intro statement middle made result left parsed asked parses handed call member event happened brings
    rw [handed.recorded records.postparse call member event happened] at brings
    exact brings.trans (records.raw_of_parse parses)
  cases told with
  | unparsed parsed => exact List.forall_mem_singleton.mpr nofun
  | refused parsed handed | notFound parsed handed =>
    exact List.forall_mem_cons.mpr ⟨nofun, handedOn parsed handed⟩
  | failed parsed handed bound ran =>
    refine List.forall_mem_cons.mpr ⟨nofun, List.forall_mem_append.mpr ⟨handedOn parsed handed, ?_⟩⟩
    refine List.forall_mem_singleton.mpr fun event happened brings => ?_
    exact absurd brings (not_brings_of_command happened)
  | finished parsed handed bound ran hooked =>
    refine List.forall_mem_cons.mpr ⟨nofun, List.forall_mem_append.mpr ⟨handedOn parsed handed, ?_⟩⟩
    refine List.forall_mem_cons.mpr ⟨fun event happened brings => ?_, ?_⟩
    · exact absurd brings (not_brings_of_command happened)
    · intro call member event happened
      obtain ⟨callee, _, _, _⟩ := call
      obtain ⟨hook, _, given, same⟩ := hooked.callee_of_mem _ member
      obtain rfl : callee = .outcomeHook hook _ given := same
      cases happened

/-- Turns bring nothing into the log but lines that they took, and no blank ones. -/
theorem TurnCalls.recorded {before after : LoopState σ}
    (turn : shell.TurnCalls before step calls after) (records : shell.RecordsLines) :
    ∀ call ∈ calls, ∀ event, call.historyEvent? = some event → event.Brings entry →
      step.line? = some entry ∧ Text.isBlankLine entry = false := by
  cases turn with
  | unread | unhandled | blank => nofun
  | handled => exact List.forall_mem_singleton.mpr nofun
  | executed took filled ran | unresolved took filled ran =>
    intro call member event happened brings
    obtain rfl := ran.recorded records call member event happened brings
    exact ⟨rfl, filled⟩

theorem TurnsCalls.recorded {before after : LoopState σ}
    (took : shell.TurnsCalls before steps calls ending after) (records : shell.RecordsLines) :
    ∀ call ∈ calls, ∀ event, call.historyEvent? = some event → event.Brings entry →
      (∃ step ∈ steps, step.line? = some entry) ∧ Text.isBlankLine entry = false := by
  induction took with
  | unfinished => nofun
  | last turn ends =>
    intro call member event happened brings
    obtain ⟨line, filled⟩ := turn.recorded records call member event happened brings
    exact ⟨⟨_, List.mem_cons_self, line⟩, filled⟩
  | next turn goesOn rest ih =>
    intro call member event happened brings
    rcases List.mem_append.mp member with now | later
    · obtain ⟨line, filled⟩ := turn.recorded records call now event happened brings
      exact ⟨⟨_, List.mem_cons_self, line⟩, filled⟩
    · obtain ⟨⟨step, among, line⟩, filled⟩ := ih call later event happened brings
      exact ⟨⟨step, List.mem_cons_of_mem _ among, line⟩, filled⟩

end Shell

end LineShell
