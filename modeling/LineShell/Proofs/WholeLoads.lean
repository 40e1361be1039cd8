import LineShell.Host
import LineShell.Proofs.Alike
import LineShell.Proofs.Attaching
import LineShell.Proofs.Registering
/-!
The shell's own modules are attached as a whole or not at all. A load adds the module's command and,
behind the hooks that are there, the module's own; or it fails, for a name that is taken, and then the
session is as it was.
-/

namespace LineShell.Stock

variable {σ : Type}

/-- The hooks that the module brings along for a point. -/
def hooksFor : Stock → HookPoint → List (Hook σ)
  | defaultOutcome, .postexecute => [⟨Module.defaultOutcomeHook, .onOutcome .defaultOutcome⟩]
  | history _ _, .postparse => [⟨Module.historyHook, .onStatement .recordHistory⟩]
  | history _ path, .preloop =>
    path.toList.map fun path => ⟨Module.historyHook, .onLoop (.restoreHistory path)⟩
  | history _ path, .postloop =>
    path.toList.map fun path => ⟨Module.historyHook, .onLoop (.saveHistory path)⟩
  | _, _ => []

theorem hooksAt_addHooks (which : Stock) (hooks : HookTable σ) (point : HookPoint) :
    (which.addHooks hooks).hooksAt point = hooks.hooksAt point ++ which.hooksFor point := by
  cases which with
  | exit | echo => cases point <;> simp [addHooks, hooksFor]
  | defaultOutcome => cases point <;> simp [addHooks, hooksFor, HookTable.hooksAt]
  | history limit path =>
    cases point <;>
      simp [addHooks, hooksFor, Module.addHistoryHooks, HookTable.hooksAt, Function.comp_def]

/-- One session is another with the module's command bound, its hooks behind those of each point, its
name among the modules and its history in place, and is otherwise the same. -/
structure Gained (which : Stock) (before after : Session σ) : Prop where
  commands : ∀ name, after.shell.commands.find? name =
    if which.command? = some name then which.builtin?.map (.builtin · before.shell.console)
    else before.shell.commands.find? name
  hooks : ∀ point, after.shell.hooks.hooksAt point =
    before.shell.hooks.hooksAt point ++ which.hooksFor point
  modules : ∀ name, after.hasModule name = (before.hasModule name || decide (name = which.name))
  history : after.memory.history = which.startHistory before.memory.history
  otherwise : after = { before with
    shell := { before.shell with
      commands := after.shell.commands
      hooks := after.shell.hooks
      modules := after.shell.modules }
    memory := { before.memory with history := after.memory.history } }

variable {which : Stock} {session after : Session σ}

theorem find?_attach (which : Stock) (session : Session σ) (name : String) :
    (which.attach session).shell.commands.find? name =
      if which.command? = some name then which.builtin?.map (.builtin · session.shell.console)
      else session.shell.commands.find? name := by
  cases binds : which.builtin? with
  | none => simp [attach, command?, binds]
  | some builtin => simp [attach, command?, binds, NameTable.find?_insert, eq_comm]

theorem gained_attach (which : Stock) (session : Session σ) :
    which.Gained session ((which.attach session).counting which.name) where
  commands := find?_attach which session
  hooks := hooksAt_addHooks which session.shell.hooks
  modules name := by
    rw [Session.hasModule_counting, Bool.or_comm]
    rfl
  history := rfl
  otherwise := rfl

/-- A module that is there already is left alone. Another one is attached as a whole, unless its
command's name is taken: then it is refused, and the session is as before. -/
theorem loadModule_cases
    (ran : (Session.loadModule which.module).Runs session asked ended after) :
    (session.hasModule which.name = true ∧ ended = .ok () ∧ after = session) ∨
    (session.hasModule which.name = false ∧ which.clash? session = none ∧ ended = .ok () ∧
      which.Gained session after) ∨
    (session.hasModule which.name = false ∧ ∃ command, which.clash? session = some command ∧
      ended = .error (.moduleLoad which.name (.shell (.alreadyBound command))) ∧
      after = session) := by
  cases Session.loads_of_runs ran with
  | already counted => exact .inl ⟨by rwa [name_module] at counted, rfl, rfl⟩
  | failed uncounted broke =>
    rw [name_module] at uncounted ⊢
    rcases load_cases broke with ⟨_, impossible, _⟩ | ⟨command, clash, same, rfl⟩
    · cases impossible
    · cases same
      exact .inr (.inr ⟨uncounted, command, clash, rfl, rfl⟩)
  | attached uncounted worked =>
    rw [name_module] at uncounted ⊢
    rcases load_cases worked with ⟨free, _, rfl⟩ | ⟨_, _, impossible, _⟩
    · exact .inr (.inl ⟨uncounted, free, rfl, which.gained_attach session⟩)
    · cases impossible

/-- Loading one of the shell's own modules always comes to an end. It fails if and only if the module is
not there yet and its command's name is taken; the error tells both, and the session is as before. If it
does not fail, the module was there and nothing has changed, or the session has gained it. -/
theorem attached_whole_or_refused (which : Stock) (session : Session σ) :
    (∀ {τ : Type} (answer : (asked : Request) → τ → asked.Answer × τ) (surroundings : τ),
      ∃ asked ended after, (Session.loadModule which.module).Runs session asked ended after ∧
        (((Session.loadModule which.module).runFrom session).run answer surroundings).1 =
          (ended, after)) ∧
    ∀ asked ended after, (Session.loadModule which.module).Runs session asked ended after →
      ((∃ error, ended = .error error) ↔ session.hasModule which.name = false ∧
        ∃ command, which.command? = some command ∧
          session.shell.commands.contains command = true) ∧
      (∀ error, ended = .error error → after = session ∧ ∃ command,
        which.command? = some command ∧
          error = .moduleLoad which.name (.shell (.alreadyBound command))) ∧
      (ended = .ok () →
        if session.hasModule which.name then after = session else which.Gained session after) := by
  constructor
  · intro τ answer surroundings
    exact ⟨_, _, _, Program.runs_run_pair answer _ surroundings, rfl⟩
  · intro asked ended after ran
    rcases loadModule_cases ran with
      ⟨there, rfl, rfl⟩ | ⟨new, free, rfl, gained⟩ | ⟨new, command, clash, rfl, rfl⟩
    · simp [there]
    · have unbound : ¬∃ command, which.command? = some command ∧
          session.shell.commands.contains command = true := by
        rintro ⟨command, taken⟩
        rw [clash?_eq_some_iff.mpr taken] at free
        cases free
      simp [new, unbound, gained]
    · obtain ⟨binds, taken⟩ := clash?_eq_some_iff.mp clash
      refine ⟨iff_of_true ⟨_, rfl⟩ ⟨new, command, binds, taken⟩, ?_, nofun⟩
      intro error same
      exact ⟨rfl, command, binds, (Except.error.inj same).symm⟩

/-- Where `exit` is bound and a hook stands before the loop, the history with a file is attached behind
that hook, and the module for `exit` is refused. -/
theorem attached_whole_or_refused_of_bound :
    let custom : Command Unit := .custom fun _ => pure none
    let session : Session Unit := {
      shell := {
        commands := NameTable.insert ∅ "exit" custom
        hooks := { preloop := [⟨"greet", .custom (pure ())⟩] } }
      memory := { client := () } }
    (∃ asked after, (Session.loadModule (history 10 (some "log")).module).Runs session asked (.ok ())
        after ∧
      after.shell.hooks.names .preloop = ["greet", Module.historyHook] ∧
      after.shell.commands.contains "exit" = true ∧ after.shell.commands.contains "hist" = true) ∧
    ∃ asked error, (Session.loadModule exit.module).Runs session asked (.error error) session := by
  intro custom session
  constructor
  · obtain ⟨runs, cases⟩ := attached_whole_or_refused (history 10 (some "log")) session
    obtain ⟨asked, ended, after, ran, _⟩ := runs Host.answer {}
    obtain ⟨fails, _, gains⟩ := cases asked ended after ran
    have free : session.shell.commands.contains "hist" = false := by decide +kernel
    cases ended with
    | error error =>
      obtain ⟨_, command, binds, taken⟩ := fails.mp ⟨error, rfl⟩
      obtain rfl : "hist" = command := Option.some.inj binds
      cases free.symm.trans taken
    | ok =>
      have gained : (history 10 (some "log")).Gained session after := gains rfl
      refine ⟨asked, after, ran, ?_, ?_, ?_⟩
      · rw [HookTable.names_eq, gained.hooks]
        rfl
      · rw [NameTable.contains, gained.commands]
        decide +kernel
      · rw [NameTable.contains, gained.commands]
        decide +kernel
  · obtain ⟨runs, cases⟩ := attached_whole_or_refused exit session
    obtain ⟨asked, ended, after, ran, _⟩ := runs Host.answer {}
    obtain ⟨fails, unchanged, _⟩ := cases asked ended after ran
    have taken : session.shell.commands.contains "exit" = true := by decide +kernel
    obtain ⟨error, rfl⟩ := fails.mpr ⟨rfl, "exit", rfl, taken⟩
    obtain ⟨rfl, _⟩ := unchanged error rfl
    exact ⟨asked, error, ran⟩

end LineShell.Stock
