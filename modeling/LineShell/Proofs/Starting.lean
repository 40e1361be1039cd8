import LineShell.Proofs.Feeding
import LineShell.Proofs.Kits
import LineShell.Proofs.Truncation
/-!
What the command line sets up: with valid settings that name no history file, and a log that can be
opened, nothing can fail, and the session has the shell's own commands under their own names.
-/

namespace LineShell

variable {σ : Type}

open LineShell.Action

/-- A shell with a word rule and with nothing of the client's, whose commands have their own
names. -/
structure Shell.IsFitted (shell : Shell σ) (rule : WordRule) : Prop where
  stock : shell.IsStock
  parser : shell.parser = .words rule
  named : ∀ name builtin, shell.commands.find? name = some (.builtin builtin 0) →
    builtin.name = name

namespace Shell.IsFitted

variable {shell : Shell σ} {rule : WordRule}

theorem withCommand (fitted : shell.IsFitted rule) (builtin : Builtin) :
    Shell.IsFitted { shell with
      commands := shell.commands.insert builtin.name (.builtin builtin shell.console) } rule := by
  refine ⟨fitted.stock.withCommand builtin, fitted.parser, fun name other found => ?_⟩
  rw [NameTable.find?_insert] at found
  split at found
  · rename_i same
    rw [(Command.builtin.inj (Option.some.inj found)).1] at same
    exact same.symm
  · exact fitted.named name other found

theorem attach {session : Session σ} {which : Stock} (fitted : session.shell.IsFitted rule)
    (fileless : ∀ limit path, which = .history limit path → path = none) :
    (which.attach session).shell.IsFitted rule := by
  cases which with
  | exit => exact fitted.withCommand .exit
  | echo => exact fitted.withCommand .echo
  | defaultOutcome =>
    exact ⟨fitted.stock.withDefaultOutcome, fitted.parser, fitted.named⟩
  | history limit path =>
    obtain rfl := fileless limit path rfl
    have bound := fitted.withCommand .hist
    exact ⟨bound.stock.withHistory, bound.parser, bound.named⟩

end Shell.IsFitted

/-- The session has no commands and no modules. -/
structure Session.IsBare (session : Session σ) : Prop where
  commands : session.shell.commands = ∅
  modules : session.shell.modules = ∅

/-- The session with some of the shell's own modules attached. -/
def Session.withStock (session : Session σ) (modules : List Stock) : Session σ :=
  Kit.completeAll (modules.map .stock) session

namespace Session

variable {base after : Session σ} {attached : List Stock}

theorem withStock_append (base : Session σ) (attached : List Stock) (which : Stock) :
    base.withStock (attached ++ [which]) =
      (which.attach (base.withStock attached)).counting which.name := by
  rw [withStock, List.map_append]
  exact Kit.completeAll_concat (attached.map .stock) (.stock which) base

theorem loads_withStock (which : Stock) (bare : base.IsBare)
    (new : ∀ other ∈ attached, other.name ≠ which.name)
    (ran : (loadModule which.module).Runs (base.withStock attached) asked ended after) :
    ended = .ok () ∧ after = base.withStock (attached ++ [which]) := by
  have uncounted : (base.withStock attached).hasModule which.name = false := by
    rw [withStock, Kit.hasModule_completeAll]
    refine Kit.afterwards_eq_false_iff.mpr ⟨by rw [hasModule, bare.modules]; rfl, ?_⟩
    intro kit member
    obtain ⟨other, earlier, rfl⟩ := List.mem_map.mp member
    exact new other earlier
  have free : which.clash? (base.withStock attached) = none := by
    have apart : ∀ kit ∈ attached.map Kit.stock, kit.name ≠ (Kit.stock which).name := by
      intro kit member
      obtain ⟨other, earlier, rfl⟩ := List.mem_map.mp member
      exact new other earlier
    refine (Kit.clash?_completeAll apart).trans (Option.filter_eq_none_iff.mpr fun name _ => ?_)
    rw [bare.commands]
    exact Bool.false_ne_true
  cases loads_of_runs ran with
  | already counted =>
    rw [which.name_module, uncounted] at counted
    cases counted
  | failed _ broke =>
    rcases which.load_cases broke with ⟨_, impossible, _⟩ | ⟨command, clash, _⟩
    · cases impossible
    · cases free.symm.trans clash
  | attached _ worked =>
    rcases which.load_cases worked with ⟨_, _, rfl⟩ | ⟨_, _, impossible, _⟩
    · rw [withStock_append, which.name_module]
      exact ⟨rfl, rfl⟩
    · cases impossible

theorem loads_withStock_bind (which : Stock) {next : Unit → Action ShellError (Session σ) α}
    {last : Session σ} (bare : base.IsBare) (new : ∀ other ∈ attached, other.name ≠ which.name)
    (ran : (loadModule which.module >>= next).Runs (base.withStock attached) asked ended last) :
    ∃ later, (next ()).Runs (base.withStock (attached ++ [which])) later ended last := by
  rcases runs_bind_iff.mp ran with ⟨_, failed, _⟩ | ⟨_, _, _, later, loaded, onward, _⟩
  · cases (loads_withStock which bare new failed).1
  · obtain ⟨_, rfl⟩ := loads_withStock which bare new loaded
    exact ⟨later, onward⟩

theorem isFitted_withStock {rule : WordRule} (fitted : base.shell.IsFitted rule)
    (fileless : ∀ which ∈ attached, ∀ limit path, which = .history limit path → path = none) :
    (base.withStock attached).shell.IsFitted rule := by
  induction attached generalizing base with
  | nil => exact fitted
  | cons which later ih =>
    have first := fitted.attach (fileless which List.mem_cons_self)
    refine ih ⟨first.stock.withModules _, first.parser, first.named⟩ fun other member => ?_
    exact fileless other (List.mem_cons_of_mem which member)

/-- What a module attaches does not depend on the input. -/
theorem fed_withStock (base : Session σ) (attached : List Stock) (input : Input σ) :
    (base.withStock attached).fed input = (base.fed input).withStock attached := by
  induction attached generalizing base with
  | nil => rfl
  | cons which later ih =>
    refine (ih _).trans (congrArg (withStock · later) ?_)
    cases which with
    | exit | echo | defaultOutcome | history => rfl

theorem input_withStock (base : Session σ) (attached : List Stock) :
    (base.withStock attached).input = base.input :=
  (congrArg input (fed_withStock base attached base.input)).symm

end Session

namespace CommandLine

/-- The session to which the modules of the command line are attached. -/
def prepared (chosen : Settings) (input : Input Unit) : Session Unit where
  shell := { prompt := chosen.prompt, parser := .words chosen.parser }
  input
  memory := { client := () }

/-- The module of the history, if it is enabled. -/
def remembered (chosen : Settings) : List Stock :=
  if chosen.history.enabled then [.history chosen.history.limit chosen.history.file] else []

/-- The modules of the command line, with the history if it is enabled. -/
def brought (chosen : Settings) : List Stock :=
  remembered chosen ++ [.exit, .echo, .defaultOutcome]

theorem isBare_prepared (chosen : Settings) (input : Input Unit) : (prepared chosen input).IsBare :=
  ⟨rfl, rfl⟩

theorem applySettings_of_runs {chosen : Settings} {input : StandardInput}
    (ran : (Session.applySettings chosen).Runs input.session asked ended after) :
    ended = .ok () ∧
      after = (prepared chosen input.session.input).withStock (remembered chosen) := by
  have onward := runs_modify_bind_iff.mp ran
  have start : ({ input.session with shell := { input.session.shell with
      prompt := chosen.prompt, parser := .words chosen.parser } } : Session Unit) =
        prepared chosen input.session.input := by
    cases input <;> rfl
  rw [start] at onward
  unfold remembered
  cases enabled : chosen.history.enabled with
  | true =>
    simp only [enabled, ↓reduceIte] at onward ⊢
    have new : ∀ other ∈ ([] : List Stock),
        other.name ≠ (Stock.history chosen.history.limit chosen.history.file).name := by simp
    exact Session.loads_withStock _ (isBare_prepared chosen _) new onward
  | false =>
    simp only [enabled, Bool.false_eq_true, ↓reduceIte] at onward ⊢
    obtain ⟨_, rfl, rfl⟩ := runs_pure_iff.mp onward
    exact ⟨rfl, rfl⟩

/-- Attach the shell's own modules that every command line has. -/
def attachOwn : Action ShellError (Session σ) Unit := do
  Session.loadModule .exit
  Session.loadModule .echo
  Session.loadModule .defaultOutcome

/-- Nothing is in the way of the modules of the command line. -/
theorem attachOwn_of_runs {chosen : Settings} {input : Input Unit}
    (ran : attachOwn.Runs ((prepared chosen input).withStock (remembered chosen)) asked ended
      after) :
    ended = .ok () ∧ after = (prepared chosen input).withStock (brought chosen) := by
  have bare := isBare_prepared chosen input
  have first : ∀ other ∈ remembered chosen, other.name = "cmdsh::builtin::History" := by
    simp [remembered]
  unfold brought
  generalize remembered chosen = attached at *
  obtain ⟨_, echoes⟩ := Session.loads_withStock_bind .exit bare
    (by simp +contextual [first]) ran
  obtain ⟨_, fills⟩ := Session.loads_withStock_bind .echo bare
    (by simp +contextual [first, or_imp]) echoes
  have last := Session.loads_withStock .defaultOutcome bare
    (by simp +contextual [first, or_imp]) fills
  simpa using last

/-- The session that the command line sets up, with valid settings. -/
def started (chosen : Settings) (commands : List String) (input : StandardInput) : Session Unit :=
  (prepared chosen ⟨commands, input.source⟩).withStock (brought chosen)

/-- Apply the settings, begin a line editor on a terminal, and attach the modules of the command line. -/
def attach (terminal : Option (Except DeviceError (Source σ))) (chosen : Settings) :
    Action ShellError (Session σ) Unit := do
  Session.applySettings chosen
  takeEditor terminal
  attachOwn

/-- Only a line editor can be in the way. -/
theorem attach_of_runs {chosen : Settings} {input : StandardInput}
    (ran : (attach input.editor? chosen).Runs input.session asked ended after) :
    (∃ error, input.editor? = some (.error error) ∧ ended = .error (.editor error) ∧
      (Session.applySettings chosen).Runs input.session asked (.ok ()) after) ∨
    (∀ error, input.editor? ≠ some (.error error)) ∧ ended = .ok () ∧
      after = (prepared chosen { source := input.source }).withStock (brought chosen) := by
  rcases runs_bind_iff.mp ran with ⟨_, failed, _⟩ | ⟨first, _, middle, later, applied, onward, rfl⟩
  · cases (applySettings_of_runs failed).1
  obtain ⟨_, rfl⟩ := applySettings_of_runs applied
  cases input with
  | piped bytes =>
    simp only [StandardInput.editor?, takeEditor, pure_bind] at onward
    exact .inr ⟨nofun, attachOwn_of_runs onward⟩
  | terminal editor turns =>
    cases editor with
    | error error =>
      rcases runs_bind_iff.mp onward with ⟨_, failed, rfl⟩ | ⟨_, _, _, _, begun, _, _⟩
      · obtain ⟨rfl, same, rfl⟩ := runs_throw_iff.mp failed
        cases same
        rw [List.append_nil]
        exact .inl ⟨error, rfl, rfl, applied⟩
      · obtain ⟨_, impossible, _⟩ := runs_throw_iff.mp begun
        cases impossible
    | ok source =>
      have begun := runs_modify_bind_iff.mp onward
      rw [Session.input_withStock] at begun
      have taken : attachOwn.Runs (((prepared chosen
          (StandardInput.terminal (.ok source) turns).session.input).withStock
            (remembered chosen)).fed { source }) later ended after := begun
      rw [Session.fed_withStock] at taken
      exact .inr ⟨nofun, attachOwn_of_runs taken⟩

/-- What is left of setting up once the log has been opened. -/
def fitUp (terminal : Option (Except DeviceError (Source σ))) (options : Options) (chosen : Settings) :
    Action Failure (Session σ) Unit := do
  (attach terminal chosen).mapError .shell
  Action.record .debug logTarget ("modules: " ++ Text.quotedList (← get).shell.modules.names)
  modify fun session =>
    { session with input := { session.input with
      queue := session.input.queue ++ options.commands } }

/-- How setting up goes: there are no settings, or the log cannot be opened, or the rest is done. -/
inductive SetsUp (terminal : Option (Except DeviceError (Source σ))) (options : Options)
    (start : Session σ) : List Exchange → Except Failure Unit → Session σ → Prop where
  | unset {error : SettingsError} (loaded : (settings options).Runs asked (.error error)) :
      SetsUp terminal options start asked (.error (.shell error.toShellError)) start
  | unlogged (loaded : (settings options).Runs asked (.ok (chosen, threshold))) (error : DeviceError) :
      SetsUp terminal options start
        (asked ++ [⟨.startLog threshold chosen.logging.file, .error error⟩])
        (.error (.context ("can't open log file " ++ chosen.logging.file.getD "") (.device error))) start
  | logged (loaded : (settings options).Runs asked (.ok (chosen, threshold)))
      (rest : (fitUp terminal options chosen).Runs start later ended after) :
      SetsUp terminal options start
        (asked ++ ⟨.startLog threshold chosen.logging.file, .ok ()⟩ :: later) ended after

theorem runs_startLog_iff {threshold : Log.Threshold} {path : Option String} :
    (Program.startLog threshold path).Runs asked opened ↔
      asked = [⟨.startLog threshold path, opened⟩] :=
  Program.runs_request_iff

theorem runs_setUp_iff {terminal : Option (Except DeviceError (Source σ))} {options : Options}
    {start after : Session σ} :
    (setUp terminal options).Runs start exchanges ended after ↔
      SetsUp terminal options start exchanges ended after := by
  constructor
  · intro ran
    rcases runs_bind_iff.mp ran with
      ⟨_, failed, rfl⟩ | ⟨asked, ⟨chosen, threshold⟩, _, _, worked, onward, rfl⟩
    · obtain ⟨_ | _, loaded, same, rfl⟩ := runs_attempt_iff.mp failed
      · cases same
        exact .unset loaded
      · cases same
    obtain ⟨_ | _, loaded, same, rfl⟩ := runs_attempt_iff.mp worked
    · cases same
    cases same
    rcases runs_bind_iff.mp onward with ⟨_, failed, rfl⟩ | ⟨_, _, _, later, opening, rest, rfl⟩
    · obtain ⟨_ | _, asking, same, rfl⟩ := runs_attempt_iff.mp failed
      · obtain rfl := runs_startLog_iff.mp asking
        cases same
        exact .unlogged loaded _
      · cases same
    · obtain ⟨_ | _, asking, same, rfl⟩ := runs_attempt_iff.mp opening
      · cases same
      · obtain rfl := runs_startLog_iff.mp asking
        exact .logged loaded rest
  · intro setsUp
    have settled {asked found} (loaded : (settings options).Runs asked (.ok found)) :
        (Action.attempt (fun error => Failure.shell error.toShellError) (settings options)).Runs start
          asked (.ok found) start := runs_attempt_iff.mpr ⟨_, loaded, rfl, rfl⟩
    cases setsUp with
    | unset loaded =>
      exact runs_bind_iff.mpr (.inl ⟨_, runs_attempt_iff.mpr ⟨_, loaded, rfl, rfl⟩, rfl⟩)
    | unlogged loaded error =>
      refine runs_bind_iff.mpr (.inr ⟨_, _, start, _, settled loaded, ?_, rfl⟩)
      refine runs_bind_iff.mpr (.inl ⟨_, ?_, rfl⟩)
      exact runs_attempt_iff.mpr ⟨.error error, runs_startLog_iff.mpr rfl, rfl, rfl⟩
    | logged loaded rest =>
      refine runs_bind_iff.mpr (.inr ⟨_, _, start, _, settled loaded, ?_, rfl⟩)
      refine runs_bind_iff.mpr (.inr ⟨[_], (), start, _, ?_, rest, rfl⟩)
      exact runs_attempt_iff.mpr ⟨.ok (), runs_startLog_iff.mpr rfl, rfl, rfl⟩

theorem fitUp_of_runs {options : Options} {input : StandardInput}
    (begun : ∀ error, input.editor? ≠ some (.error error))
    (ran : (fitUp input.editor? options chosen).Runs input.session made ended session) :
    ended = .ok () ∧ session = started chosen options.commands input := by
  rcases runs_bind_iff.mp ran with ⟨_, failed, _⟩ | ⟨_, _, _, _, attaching, onward, _⟩
  · obtain ⟨error, attaching, _⟩ := runs_mapError_error_iff.mp failed
    rcases attach_of_runs attaching with ⟨error, broken, _⟩ | ⟨_, impossible, _⟩
    · exact absurd broken (begun error)
    · cases impossible
  rcases attach_of_runs (runs_mapError_ok_iff.mp attaching) with ⟨error, broken, _⟩ | ⟨_, _, rfl⟩
  · exact absurd broken (begun error)
  obtain ⟨_, noted, rfl⟩ := runs_record_bind_iff.mp (runs_get_bind_iff.mp onward)
  obtain ⟨_, rfl, rfl⟩ := runs_modify_iff.mp noted
  rw [Session.input_withStock]
  exact ⟨rfl, Session.fed_withStock _ _ _⟩

/-- With valid settings, a log that can be opened and a line editor that can be begun on a terminal, setting
up cannot fail. -/
theorem setUp_of_runs {options : Options} {input : StandardInput}
    (valid : (settings options).Runs asked (.ok (chosen, threshold)))
    (begun : ∀ error, input.editor? ≠ some (.error error))
    (ran : (setUp input.editor? options).Runs input.session exchanges ended session)
    (opened : exchanges ++ rest =
      asked ++ ⟨.startLog threshold chosen.logging.file, .ok ()⟩ :: later) :
    ended = .ok () ∧ session = started chosen options.commands input ∧
      ∃ made, later = made ++ rest := by
  cases runs_setUp_iff.mp ran with
  | unset loaded => cases (loaded.unique valid opened).2
  | unlogged loaded error =>
    rw [List.append_assoc] at opened
    obtain ⟨rfl, same⟩ := loaded.unique valid opened
    cases same
    cases (List.cons.inj (List.append_cancel_left opened)).1
  | logged loaded fitting =>
    rw [List.append_assoc] at opened
    obtain ⟨rfl, same⟩ := loaded.unique valid opened
    cases same
    obtain ⟨rfl, rfl⟩ := fitUp_of_runs begun fitting
    exact ⟨rfl, rfl, _, (List.cons.inj (List.append_cancel_left opened)).2.symm⟩

theorem isFitted_started {chosen : Settings} (unsaved : chosen.history.file = none)
    (commands : List String) (input : StandardInput) :
    (started chosen commands input).shell.IsFitted chosen.parser := by
  have bare : (prepared chosen ⟨commands, input.source⟩).shell.IsStock :=
    { Shell.isStock_words chosen.parser with }
  refine Session.isFitted_withStock ⟨bare, rfl, nofun⟩ ?_
  intro which member limit path same
  subst same
  have first : path = chosen.history.file := by
    simp only [brought, remembered, List.mem_append] at member
    rcases member with own | other
    · split at own <;> simp_all
    · simp at other
  exact first.trans unsaved

theorem exits_started (chosen : Settings) (commands : List String) (input : StandardInput) :
    (started chosen commands input).shell.commands.contains Builtin.exit.name = true := by
  refine (Kit.contains_completeAll _ _ _).trans ?_
  simp [brought, Kit.command?, Stock.command?, Stock.builtin?]

end CommandLine

end LineShell
