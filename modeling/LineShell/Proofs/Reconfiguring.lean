import LineShell.Proofs.Applying
import LineShell.Proofs.WholeLoads
/-!
Settings applied one after the other, with lines executed in between. The last ones decide about the
prompt and the word rule. The first ones that ask for a history decide about that, and it stays.
-/

namespace LineShell

variable {σ : Type}

open LineShell.Action

/-- What is done with a session: settings are applied, or calls are made for lines. -/
inductive SettingsDeed (σ : Type) where
  | applied (settings : Settings) (ended : Except ShellError Unit)
  | called (calls : List (Call σ))

namespace SettingsDeed

def isApplied : SettingsDeed σ → Bool
  | applied .. => true
  | called _ => false

/-- Whether settings are applied that ask for a history. -/
def enables : SettingsDeed σ → Bool
  | applied settings _ => settings.history.enabled
  | called _ => false

def calls : SettingsDeed σ → List (Call σ)
  | applied .. => []
  | called calls => calls

theorem first_cases (deeds : List (SettingsDeed σ)) :
    (∀ deed ∈ deeds, deed.enables = false) ∨
    ∃ front first ended back, deeds = front ++ .applied first ended :: back ∧
      (∀ deed ∈ front, deed.enables = false) ∧ first.history.enabled = true := by
  cases asked : deeds.find? enables with
  | none => exact .inl (by simpa using asked)
  | some deed =>
    obtain ⟨enabled, front, back, rfl, unasked⟩ := List.find?_eq_some_iff_append.mp asked
    cases deed with
    | applied first ended =>
      exact .inr ⟨front, first, ended, back, rfl, by simpa using unasked, enabled⟩
    | called => cases enabled

end SettingsDeed

namespace Session

/-- Settings are applied, lines are executed and the loop is run, and nothing else is changed. -/
inductive Reconfigured : Session σ → List (SettingsDeed σ) → Session σ → Prop where
  | none : Reconfigured session [] session
  | apply (ran : (applySettings settings).Runs session asked ended middle)
      (rest : Reconfigured middle later after) :
      Reconfigured session (.applied settings ended :: later) after
  | execute (told : session.shell.LineCalls line session.memory calls ended kept)
      (rest : Reconfigured { session with memory := kept } later after) :
      Reconfigured session (.called calls :: later) after
  | loop (told : session.LoopCalls exchanges steps calls ending middle)
      (rest : Reconfigured middle later after) :
      Reconfigured session (.called calls :: later) after

/-- Whether the history has been attached to the session. -/
def remembers (session : Session σ) : Bool :=
  session.hasModule (Settings.remembering {}).name

variable {session base middle after : Session σ} {settings : Settings}
  {deeds front back : List (SettingsDeed σ)}

theorem hasModule_remembering (session : Session σ) (settings : Settings) :
    session.hasModule settings.remembering.name = session.remembers := rfl

theorem Reconfigured.append (first : session.Reconfigured front middle)
    (second : middle.Reconfigured back after) : session.Reconfigured (front ++ back) after := by
  induction first with
  | none => exact second
  | apply ran _ ih => exact .apply ran (ih second)
  | execute told _ ih => exact .execute told (ih second)
  | loop told _ ih => exact .loop told (ih second)

theorem Reconfigured.parts (done : session.Reconfigured (front ++ back) after) :
    ∃ middle, session.Reconfigured front middle ∧ middle.Reconfigured back after := by
  induction front generalizing session with
  | nil => exact ⟨session, .none, done⟩
  | cons deed front ih =>
    cases done with
    | apply ran rest =>
      obtain ⟨middle, ahead, behind⟩ := ih rest
      exact ⟨middle, .apply ran ahead, behind⟩
    | execute told rest =>
      obtain ⟨middle, ahead, behind⟩ := ih rest
      exact ⟨middle, .execute told ahead, behind⟩
    | loop told rest =>
      obtain ⟨middle, ahead, behind⟩ := ih rest
      exact ⟨middle, .loop told ahead, behind⟩

theorem applySettings_steady (steady : session.remembers = true ∨ settings.history.enabled = false)
    (ran : (applySettings settings).Runs session asked ended after) :
    ended = .ok () ∧ after = session.styled settings := by
  rcases applySettings_cases ran with ⟨_, rfl, rfl⟩ | ⟨refuses, _⟩
  · refine ⟨rfl, ?_⟩
    rcases steady with there | off
    · simp [settled, hasModule_remembering, there]
    · simp [settled, off]
  · have new : session.remembers = false := refuses.new
    rcases steady with there | off
    · cases new.symm.trans there
    · cases off.symm.trans refuses.enabled

/-- Settings that ask for the first history attach it, where the name of its command is free. -/
theorem applySettings_first (new : session.remembers = false)
    (free : session.shell.commands.contains Builtin.hist.name = false)
    (enabled : settings.history.enabled = true)
    (ran : (applySettings settings).Runs session asked ended after) :
    ended = .ok () ∧ settings.remembering.Gained (session.styled settings) after := by
  rcases applySettings_cases ran with ⟨_, rfl, rfl⟩ | ⟨refuses, _⟩
  · refine ⟨rfl, ?_⟩
    simp only [settled, hasModule_remembering, new, enabled, Bool.not_false, Bool.and_self, ↓reduceIte]
    exact settings.remembering.gained_attach _
  · cases free.symm.trans refuses.taken

theorem remembers_settled (session : Session σ) (settings : Settings) :
    (session.settled settings).remembers = (session.remembers || settings.history.enabled) := by
  have counted : ((settings.remembering.attach (session.styled settings)).counting
      settings.remembering.name).remembers = true := by
    simp [← hasModule_remembering _ settings]
  have kept : (session.styled settings).remembers = session.remembers := rfl
  rw [settled, hasModule_remembering]
  cases settings.history.enabled <;> cases there : session.remembers <;>
    simp [counted, kept, there]

/-- Applying the same settings again changes nothing more. -/
theorem applySettings_again (first : (applySettings settings).Runs session asked (.ok ()) middle)
    (again : (applySettings settings).Runs middle others ended after) :
    ended = .ok () ∧ after = middle := by
  rcases applySettings_cases first with ⟨_, _, rfl⟩ | ⟨_, impossible, _⟩
  · have steady : (session.settled settings).remembers = true ∨ settings.history.enabled = false := by
      rw [remembers_settled]
      cases settings.history.enabled <;> simp
    obtain ⟨rfl, rfl⟩ := applySettings_steady steady again
    refine ⟨rfl, styled_eq_self_iff.mpr ?_⟩
    unfold settled
    split <;> exact ⟨rfl, rfl⟩
  · cases impossible

end Session

/-- A shell is another one but for the prompt and the word rule. -/
def Shell.Restyled (before after : Shell σ) : Prop :=
  after = { before with prompt := after.prompt, parser := after.parser }

theorem Shell.Restyled.trans {first second third : Shell σ} (one : first.Restyled second)
    (other : second.Restyled third) : first.Restyled third := by
  unfold Restyled at *
  rw [other, one]

theorem Shell.restyled_of_eq {before after : Shell σ} (same : after = before) :
    before.Restyled after := by
  rw [same, Restyled]

namespace Session

variable {session base middle after : Session σ} {settings : Settings}
  {deeds front back : List (SettingsDeed σ)}

theorem remembers_of_restyled (restyled : session.shell.Restyled after.shell) :
    after.remembers = session.remembers := by
  rw [remembers, hasModule, restyled]
  rfl

/-- What is done with a session that has no history to attach: all settings are applied, and nothing
but the prompt and the word rule of the shell is changed. -/
structure Steady (session : Session σ) (deeds : List (SettingsDeed σ)) (after : Session σ) : Prop where
  succeeded : ∀ settings ended, .applied settings ended ∈ deeds → ended = .ok ()
  restyled : session.shell.Restyled after.shell
  passes : History.Passes session.memory.history (deeds.flatMap SettingsDeed.calls)
    after.memory.history

theorem Steady.called (steady : middle.Steady deeds after) (shell : middle.shell = session.shell)
    (told : History.Passes session.memory.history calls middle.memory.history) :
    session.Steady (.called calls :: deeds) after where
  succeeded settings ended member := steady.succeeded settings ended (by simpa using member)
  restyled := shell ▸ steady.restyled
  passes := told.append steady.passes

theorem Steady.applied (steady : (session.styled settings).Steady deeds after) :
    session.Steady (.applied settings (.ok ()) :: deeds) after where
  succeeded settings ended member := by
    rcases List.mem_cons.mp member with same | later
    · cases same
      rfl
    · exact steady.succeeded settings ended later
  restyled := by
    have once : session.shell.Restyled (session.styled settings).shell := rfl
    exact once.trans steady.restyled
  passes := steady.passes

theorem unasked_tail {deed : SettingsDeed σ}
    (settled : session.remembers = true ∨ ∀ other ∈ deed :: deeds, other.enables = false) :
    session.remembers = true ∨ ∀ other ∈ deeds, other.enables = false :=
  settled.imp_right fun unasked other member => unasked other (List.mem_cons_of_mem _ member)

theorem Reconfigured.steady (done : session.Reconfigured deeds after)
    (settled : session.remembers = true ∨ ∀ deed ∈ deeds, deed.enables = false) :
    session.Steady deeds after := by
  induction done with
  | none => exact ⟨nofun, rfl, .none⟩
  | apply ran _ ih =>
    obtain ⟨rfl, rfl⟩ := applySettings_steady
      (settled.imp_right fun unasked => unasked _ List.mem_cons_self) ran
    exact (ih (unasked_tail settled)).applied
  | execute told _ ih =>
    have later := ih (unasked_tail settled)
    exact later.called rfl told.passes
  | loop told _ ih =>
    rw [← remembers_of_restyled (Shell.restyled_of_eq told.shell_eq)] at settled
    have later := ih (unasked_tail settled)
    exact later.called told.shell_eq told.passes

theorem Reconfigured.shell_eq (done : session.Reconfigured deeds after)
    (others : ∀ deed ∈ deeds, deed.isApplied = false) : after.shell = session.shell := by
  induction done with
  | none => rfl
  | apply => exact absurd (others _ List.mem_cons_self) (by simp [SettingsDeed.isApplied])
  | execute _ _ ih => exact ih fun deed member => others deed (List.mem_cons_of_mem _ member)
  | loop told _ ih =>
    exact (ih fun deed member => others deed (List.mem_cons_of_mem _ member)).trans told.shell_eq

end Session

/-- A shell is another one with the command, the hooks and the module of the history that settings ask
for, and is otherwise the same but for the prompt and the word rule. -/
structure Settings.Equips (settings : Settings) (before after : Shell σ) : Prop where
  commands : ∀ name, after.commands.find? name =
    if name = Builtin.hist.name then some (.builtin .hist before.console)
    else before.commands.find? name
  hooks : ∀ point, after.hooks.hooksAt point =
    before.hooks.hooksAt point ++ settings.remembering.hooksFor point
  modules : ∀ name, after.modules.contains name =
    (before.modules.contains name || decide (name = settings.remembering.name))
  otherwise : after = { before with
    commands := after.commands
    hooks := after.hooks
    modules := after.modules
    prompt := after.prompt
    parser := after.parser }

namespace Settings

variable {settings : Settings} {before middle after : Shell σ}

theorem equips_of_gained {session after : Session σ}
    (gained : settings.remembering.Gained session after) :
    settings.Equips session.shell after.shell where
  commands name := by
    rw [gained.commands, command?_remembering]
    by_cases same : name = Builtin.hist.name
    · simp [same, remembering, Stock.builtin?]
    · simp [same, Ne.symm same]
  hooks := gained.hooks
  modules := gained.modules
  otherwise := by
    rw [gained.otherwise]

theorem Equips.remembers {session after : Session σ}
    (equips : settings.Equips session.shell after.shell) : after.remembers = true := by
  rw [← Session.hasModule_remembering _ settings, Session.hasModule, equips.modules]
  simp

theorem Equips.restyled (equips : settings.Equips before middle) (restyled : middle.Restyled after) :
    settings.Equips before after := by
  unfold Shell.Restyled at restyled
  rw [restyled]
  refine ⟨equips.commands, equips.hooks, equips.modules, ?_⟩
  rw [equips.otherwise]

theorem Equips.of_restyled (restyled : before.Restyled middle) (equips : settings.Equips middle after) :
    settings.Equips before after := by
  unfold Shell.Restyled at restyled
  rw [restyled] at equips
  exact ⟨equips.commands, equips.hooks, equips.modules, equips.otherwise⟩

end Settings

namespace Session

variable {session base middle after : Session σ} {first : Settings}
  {deeds front back : List (SettingsDeed σ)}

/-- What has been done with a session whose first history was asked for by some settings: that history
is there, and has recorded all lines since. -/
theorem Reconfigured.of_first
    (done : base.Reconfigured (front ++ .applied first ended :: back) after)
    (new : base.remembers = false) (free : base.shell.commands.contains Builtin.hist.name = false)
    (unasked : ∀ deed ∈ front, deed.enables = false) (enabled : first.history.enabled = true) :
    (∀ settings result, .applied settings result ∈ front ++ .applied first ended :: back →
      result = .ok ()) ∧
    first.Equips base.shell after.shell ∧
    after.memory.history.Reflects first.history.limit (back.flatMap SettingsDeed.calls) := by
  -- Ahead of the first history none is asked for, and behind it there is one already.
  obtain ⟨middle, ahead, behind⟩ := done.parts
  have earlier := ahead.steady (.inr unasked)
  have fresh : middle.remembers = false := (remembers_of_restyled earlier.restyled).trans new
  have unbound : middle.shell.commands.contains Builtin.hist.name = false := by
    rw [earlier.restyled]
    exact free
  cases behind with
  | apply ran rest =>
    obtain ⟨rfl, gained⟩ := applySettings_first fresh unbound enabled ran
    have equipped := Settings.equips_of_gained gained
    have later := rest.steady (.inl equipped.remembers)
    refine ⟨fun settings result member => ?succeeded, ?equips, ?reflects⟩
    case succeeded =>
      rcases List.mem_append.mp member with old | new
      · exact earlier.succeeded settings result old
      · rcases List.mem_cons.mp new with same | more
        · cases same
          rfl
        · exact later.succeeded settings result more
    case equips =>
      have styled : middle.shell.Restyled (middle.styled first).shell := rfl
      exact (equipped.of_restyled (earlier.restyled.trans styled)).restyled later.restyled
    case reflects =>
      have passes := later.passes
      rw [gained.history] at passes
      exact passes.reflects (History.reflects_ofLimit _)

/-- The last settings that were applied decide about the prompt and the word rule. -/
theorem Reconfigured.of_last {last : Settings}
    (done : base.Reconfigured (front ++ .applied last ended :: back) after)
    (others : ∀ deed ∈ back, deed.isApplied = false) :
    after.shell.prompt = last.prompt ∧ after.shell.parser = .words last.parser := by
  obtain ⟨middle, _, behind⟩ := done.parts
  cases behind with
  | apply ran rest =>
    rw [rest.shell_eq others]
    rcases applySettings_cases ran with ⟨_, _, rfl⟩ | ⟨_, _, rfl⟩
    · unfold settled
      split <;> exact ⟨rfl, rfl⟩
    · exact ⟨rfl, rfl⟩

/-- What settings that were applied to a session with lines in between have made of it. -/
structure Configured (base : Session σ) (deeds : List (SettingsDeed σ)) (after : Session σ) : Prop where
  succeeded : ∀ settings ended, .applied settings ended ∈ deeds → ended = .ok ()
  styled : ∀ front last ended back, deeds = front ++ .applied last ended :: back →
    (∀ deed ∈ back, deed.isApplied = false) →
      after.shell.prompt = last.prompt ∧ after.shell.parser = .words last.parser
  remembers : after.remembers = true ↔ ∃ deed ∈ deeds, deed.enables = true
  without : (∀ deed ∈ deeds, deed.enables = false) → base.shell.Restyled after.shell
  equipped : ∀ front first ended back, deeds = front ++ .applied first ended :: back →
    (∀ deed ∈ front, deed.enables = false) → first.history.enabled = true →
      first.Equips base.shell after.shell ∧
        after.memory.history.Reflects first.history.limit (back.flatMap SettingsDeed.calls)

theorem Reconfigured.configured (done : base.Reconfigured deeds after) (new : base.remembers = false)
    (free : base.shell.commands.contains Builtin.hist.name = false) : base.Configured deeds after := by
  refine ⟨?succeeded, ?styled, ?remembers, ?without, ?equipped⟩
  case styled =>
    rintro front last ended back rfl others
    exact done.of_last others
  case without =>
    intro unasked
    exact (done.steady (.inr unasked)).restyled
  case equipped =>
    rintro front first ended back rfl unasked enabled
    exact (done.of_first new free unasked enabled).2
  case succeeded =>
    intro settings ended member
    rcases SettingsDeed.first_cases deeds with unasked | ⟨_, _, _, _, rfl, unasked, enabled⟩
    · exact (done.steady (.inr unasked)).succeeded settings ended member
    · exact (done.of_first new free unasked enabled).1 settings ended member
  case remembers =>
    rcases SettingsDeed.first_cases deeds with unasked | ⟨_, _, _, _, rfl, unasked, enabled⟩
    · have absent := (remembers_of_restyled (done.steady (.inr unasked)).restyled).trans new
      refine iff_of_false (by simp [absent]) ?_
      rintro ⟨deed, member, asks⟩
      cases (unasked deed member).symm.trans asks
    · have equipped := (done.of_first new free unasked enabled).2.1
      exact iff_of_true equipped.remembers ⟨_, List.mem_append_right _ List.mem_cons_self, enabled⟩

/-- Settings may be applied to a session without a history any number of times, with lines executed in
between, as long as the name of the history's command is free at the beginning. They are never refused.
The last ones decide about the prompt and the word rule. The history is there once settings have asked for
it, with the limit and the file that the first such settings name; it is attached once, and what it has
recorded is kept. Applying the same settings again changes nothing. -/
theorem settings_in_sequence (base : Session σ) (new : base.remembers = false)
    (free : base.shell.commands.contains Builtin.hist.name = false)
    (deeds : List (SettingsDeed σ)) (session : Session σ) (done : base.Reconfigured deeds session) :
    base.Configured deeds session ∧
    (∀ settings,
      (∀ {τ : Type} (answer : (asked : Request) → τ → asked.Answer × τ) (surroundings : τ),
        ∃ asked after, (applySettings settings).Runs session asked (.ok ()) after ∧
          (((applySettings settings).runFrom session).run answer surroundings).1 = (.ok (), after)) ∧
      ∀ asked ended after, (applySettings settings).Runs session asked ended after →
        base.Reconfigured (deeds ++ [.applied settings ended]) after ∧
        (session.remembers = true → after.memory = session.memory) ∧
        ∀ others again last, (applySettings settings).Runs after others again last →
          again = .ok () ∧ last = after) ∧
    (∀ line exchanges ended after, (session.execute line).Runs exchanges (ended, after) →
      ∃ calls, base.Reconfigured (deeds ++ [.called calls]) after ∧
        exchanges = calls.flatMap Call.exchanges) ∧
    ∀ turns exchanges ending after, (session.run turns).Runs exchanges (ending, after) →
      ∃ calls, base.Reconfigured (deeds ++ [.called calls]) after := by
  have applied {settings asked ended after}
      (ran : (applySettings settings).Runs session asked ended after) :
      base.Reconfigured (deeds ++ [.applied settings ended]) after :=
    done.append (.apply ran .none)
  have succeeds {settings asked ended after}
      (ran : (applySettings settings).Runs session asked ended after) : ended = .ok () :=
    ((applied ran).configured new free).succeeded settings ended
      (List.mem_append_right _ List.mem_cons_self)
  refine ⟨done.configured new free, fun settings => ⟨?succeeds, ?applies⟩, ?lines, ?loops⟩
  case succeeds =>
    intro τ answer surroundings
    have ran := Program.runs_run_pair answer ((applySettings settings).runFrom session) surroundings
    have worked := succeeds ran
    rw [worked] at ran
    exact ⟨_, _, ran, Prod.ext worked rfl⟩
  case applies =>
    intro asked ended after ran
    obtain rfl := succeeds ran
    refine ⟨applied ran, fun there => ?_, fun _ _ _ again => applySettings_again ran again⟩
    obtain ⟨_, rfl⟩ := applySettings_steady (.inl there) ran
    rfl
  case lines =>
    intro line exchanges ended after ran
    obtain ⟨memory, executed, rfl⟩ := runs_execute_iff.mp ran
    obtain ⟨calls, told, asked⟩ := Shell.runs_execute_iff_calls.mp executed
    exact ⟨calls, done.append (.execute told .none), asked⟩
  case loops =>
    intro turns exchanges ending after ran
    obtain ⟨steps, calls, told, _⟩ := runs_run_iff_calls.mp ran
    exact ⟨calls, done.append (.loop told .none)⟩

/-- Four settings, with lines in between. The history is the second one's; the prompt is the fourth one's,
which wants no history. -/
theorem settings_in_sequence_of_four :
    let base : Session Unit := { memory := { client := () } }
    base.remembers = false ∧ base.shell.commands.contains Builtin.hist.name = false ∧
    ∃ deeds session, base.Reconfigured deeds session ∧ base.Configured deeds session ∧
      session.shell.prompt = "four " ∧ session.shell.hooks.names .postloop = [Module.historyHook] ∧
      session.memory.history.limit = 2 := by
  intro base
  have law := settings_in_sequence base rfl (by decide +kernel)
  have apply {deeds session} (done : base.Reconfigured deeds session) (settings : Settings) :
      ∃ after, base.Reconfigured (deeds ++ [.applied settings (.ok ())]) after := by
    obtain ⟨_, applies, _⟩ := law deeds session done
    obtain ⟨succeeds, applied⟩ := applies settings
    obtain ⟨asked, after, ran, _⟩ := succeeds Host.answer {}
    exact ⟨after, (applied _ _ _ ran).1⟩
  have execute {deeds session} (done : base.Reconfigured deeds session) (line : String) :
      ∃ calls after, base.Reconfigured (deeds ++ [.called calls]) after := by
    obtain ⟨_, _, lines, _⟩ := law deeds session done
    obtain ⟨calls, told, _⟩ :=
      lines line _ _ _ (Program.runs_run_pair Host.answer (session.execute line) {})
    exact ⟨calls, _, told⟩
  obtain ⟨_, one⟩ := apply .none { prompt := "one ", history := { enabled := false } }
  obtain ⟨_, two⟩ := apply one { history := { limit := 2, file := some "log" } }
  obtain ⟨calls, _, line⟩ := execute two "hist"
  obtain ⟨_, three⟩ := apply line { history := { limit := 5 } }
  obtain ⟨session, four⟩ := apply three { prompt := "four ", history := { enabled := false } }
  obtain ⟨configured, _⟩ := law _ _ four
  obtain ⟨prompt, _⟩ := configured.styled _ _ _ [] rfl nofun
  obtain ⟨equips, reflects⟩ :=
    configured.equipped [_] _ _ [_, _, _] rfl (by simp [SettingsDeed.enables]) rfl
  refine ⟨rfl, by decide +kernel, _, session, four, configured, prompt, ?_, reflects.limit⟩
  rw [HookTable.names_eq, equips.hooks]
  rfl

end Session

end LineShell
