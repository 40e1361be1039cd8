import LineShell.Host
import LineShell.Proofs.Attaching
import LineShell.Settings
/-!
Applying settings to a session. The history is attached as a whole or not at all, but the prompt and
the word rule have been changed by the time that it is refused.
-/

namespace LineShell

variable {σ : Type}

open LineShell.Action

/-- The history that settings ask for. -/
def Settings.remembering (settings : Settings) : Stock :=
  .history settings.history.limit settings.history.file

@[simp] theorem Settings.command?_remembering (settings : Settings) :
    settings.remembering.command? = some Builtin.hist.name := rfl

namespace Session

variable {session after : Session σ} {settings : Settings}

/-- The session with the prompt and the word rule of settings. -/
def styled (session : Session σ) (settings : Settings) : Session σ :=
  { session with shell := { session.shell with
    prompt := settings.prompt
    parser := .words settings.parser } }

@[simp] theorem hasModule_styled (session : Session σ) (settings : Settings) :
    (session.styled settings).hasModule = session.hasModule := rfl

@[simp] theorem commands_styled (session : Session σ) (settings : Settings) :
    (session.styled settings).shell.commands = session.shell.commands := rfl

theorem styled_eq_self_iff :
    session.styled settings = session ↔
      session.shell.prompt = settings.prompt ∧ session.shell.parser = .words settings.parser := by
  constructor
  · intro same
    rw [← same]
    exact ⟨rfl, rfl⟩
  · intro ⟨prompt, parser⟩
    rw [styled, ← prompt, ← parser]

/-- The settings ask for a history that cannot be attached: there is none yet, and its command's name
is taken. -/
structure Refuses (session : Session σ) (settings : Settings) : Prop where
  enabled : settings.history.enabled = true
  new : session.hasModule settings.remembering.name = false
  taken : session.shell.commands.contains Builtin.hist.name = true

/-- The session that settings are to make of a session: the prompt, the word rule and, if it is wanted
and not there yet, the history. -/
def settled (session : Session σ) (settings : Settings) : Session σ :=
  if settings.history.enabled && !session.hasModule settings.remembering.name then
    (settings.remembering.attach (session.styled settings)).counting settings.remembering.name
  else session.styled settings

/-- After the prompt and the word rule, the history is all that is left to apply. -/
theorem runs_applySettings_iff :
    (applySettings settings).Runs session asked ended after ↔
      (if settings.history.enabled then loadModule settings.remembering.module else pure ()).Runs
        (session.styled settings) asked ended after :=
  runs_modify_bind_iff

/-- Applying settings makes of a session what they ask for or, if the history is refused, sets no more
than the prompt and the word rule. -/
theorem applySettings_cases (ran : (applySettings settings).Runs session asked ended after) :
    (¬session.Refuses settings ∧ ended = .ok () ∧ after = session.settled settings) ∨
    (session.Refuses settings ∧
      ended = .error (.moduleLoad settings.remembering.name (.shell (.alreadyBound Builtin.hist.name))) ∧
      after = session.styled settings) := by
  have onward := runs_applySettings_iff.mp ran
  cases enabled : settings.history.enabled with
  | false =>
    simp only [enabled, Bool.false_eq_true, ↓reduceIte] at onward
    obtain ⟨_, rfl, rfl⟩ := runs_pure_iff.mp onward
    have unwanted : ¬session.Refuses settings := fun refuses =>
      Bool.false_ne_true (enabled.symm.trans refuses.enabled)
    exact .inl ⟨unwanted, rfl, by simp [settled, enabled]⟩
  | true =>
    simp only [enabled, ↓reduceIte] at onward
    cases loads_of_runs onward with
    | already counted =>
      rw [Stock.name_module, hasModule_styled] at counted
      have there : ¬session.Refuses settings := fun refuses =>
        Bool.false_ne_true (refuses.new.symm.trans counted)
      exact .inl ⟨there, rfl, by simp [settled, counted]⟩
    | failed uncounted broke =>
      rw [Stock.name_module] at uncounted ⊢
      rcases Stock.load_cases broke with ⟨_, impossible, _⟩ | ⟨command, clash, same, rfl⟩
      · cases impossible
      · obtain ⟨binds, taken⟩ := Stock.clash?_eq_some_iff.mp clash
        obtain rfl : Builtin.hist.name = command := Option.some.inj binds
        cases same
        exact .inr ⟨⟨enabled, uncounted, taken⟩, rfl, rfl⟩
    | attached uncounted worked =>
      rw [Stock.name_module] at uncounted ⊢
      rcases Stock.load_cases worked with ⟨free, _, rfl⟩ | ⟨_, _, impossible, _⟩
      · have unbound : ¬session.Refuses settings := fun refuses => by
          have clash : settings.remembering.clash? (session.styled settings) = some Builtin.hist.name :=
            Stock.clash?_eq_some_iff.mpr ⟨rfl, refuses.taken⟩
          rw [free] at clash
          cases clash
        have new : session.hasModule settings.remembering.name = false := uncounted
        exact .inl ⟨unbound, rfl, by simp [settled, enabled, new]⟩
      · cases impossible

/-- Settings are applied as a whole unless they ask for a history that is refused. Then the commands,
the hooks, the modules and the memory are as before; the prompt and the word rule are not, unless they
were those of the settings already. -/
theorem settings_applied_or_refused (session : Session σ) (settings : Settings) :
    (∀ {τ : Type} (answer : (asked : Request) → τ → asked.Answer × τ) (surroundings : τ),
      ∃ asked ended after, (applySettings settings).Runs session asked ended after ∧
        (((applySettings settings).runFrom session).run answer surroundings).1 = (ended, after)) ∧
    ∀ asked ended after, (applySettings settings).Runs session asked ended after →
      (¬session.Refuses settings ∧ ended = .ok () ∧ after = session.settled settings) ∨
      (session.Refuses settings ∧
        ended = .error
          (.moduleLoad settings.remembering.name (.shell (.alreadyBound Builtin.hist.name))) ∧
        after = session.styled settings ∧
        (after = session ↔
          session.shell.prompt = settings.prompt ∧
            session.shell.parser = .words settings.parser)) := by
  constructor
  · intro τ answer surroundings
    exact ⟨_, _, _, Program.runs_run_pair answer _ surroundings, rfl⟩
  · intro asked ended after ran
    rcases applySettings_cases ran with done | ⟨refuses, failed, rfl⟩
    · exact .inl done
    · exact .inr ⟨refuses, failed, rfl, styled_eq_self_iff⟩

/-- The name of the history's command is taken, and the settings bring another prompt and another
word rule: both are set, and nothing is done about the history. -/
theorem settings_applied_or_refused_of_taken :
    let custom : Command Unit := .custom fun _ => pure none
    let session : Session Unit := {
      shell := { commands := NameTable.insert ∅ "hist" custom }
      memory := { client := () } }
    let settings : Settings := { prompt := "$ ", parser := .posix }
    session.Refuses settings ∧
    ∃ asked error after, (applySettings settings).Runs session asked (.error error) after ∧
      after.shell.prompt = "$ " ∧ after.shell.commands.names = ["hist"] ∧
      after.shell.modules.names = [] ∧ after.shell.hooks.isEmpty = true := by
  intro custom session settings
  have refuses : session.Refuses settings := ⟨rfl, by decide +kernel, by decide +kernel⟩
  obtain ⟨runs, cases⟩ := settings_applied_or_refused session settings
  obtain ⟨asked, ended, after, ran, _⟩ := runs Host.answer {}
  rcases cases asked ended after ran with ⟨unrefused, _⟩ | ⟨_, rfl, rfl, _⟩
  · exact absurd refuses unrefused
  · exact ⟨refuses, asked, _, _, ran, rfl, rfl, rfl, rfl⟩

/-- Settings that are refused leave a prompt and a word rule that the session did not have. -/
theorem refused_settings_leave_prompt :
    let custom : Command Unit := .custom fun _ => pure none
    let session : Session Unit := {
      shell := { commands := NameTable.insert ∅ "hist" custom }
      memory := { client := () } }
    let settings : Settings := { prompt := "$ ", parser := .posix }
    ¬∀ asked ended after, (applySettings settings).Runs session asked ended after →
      ended = .ok () ∨ (after.shell.prompt = session.shell.prompt ∧
        after.shell.parser = session.shell.parser) := by
  intro custom session settings atomic
  let answer := fun (asked : Request) (_ : Unit) => (asked.anyAnswer, ())
  have ran := Program.runs_run_pair answer ((applySettings settings).runFrom session) ()
  rcases atomic _ _ _ ran with worked | ⟨prompt, _⟩
  · cases worked
  · exact absurd prompt (by decide)

end Session

end LineShell
