import LineShell.Proofs.Applying
import LineShell.Proofs.ExitStatus
import LineShell.Proofs.Requests
import LineShell.Proofs.WholeLoads
/-!
How the command line starts up. The options come before the file of settings, and the file before the
defaults. A start that fails has done nothing but read that file, try to open the log, and keep records: no
line has been queued, none has been taken, no hook has run, and the history's file is as it was.
-/

namespace LineShell

variable {ε σ τ : Type}

open LineShell.Action

/-- A record is kept, and nothing else is asked for. -/
def Request.IsRecord : Request → Prop
  | .record _ => True
  | _ => False

/-- What a session has that is none of its shell's or its history's. -/
def Session.surroundings (session : Session σ) : Input σ × Phase × σ :=
  (session.input, session.phase, session.memory.client)

theorem asks_note (level : Log.Level) (target text : String) :
    (Action.record level target text : Action ε τ Unit).Asks Request.IsRecord :=
  asks_ofProgram (Program.asks_request trivial)

namespace Session

theorem asks_addCommand (name : String) (command : Command σ) :
    (addCommand name command).Asks Request.IsRecord := by
  apply asks_get_bind
  intro session
  split
  · exact (asks_throw _).bind fun _ => (asks_note _ _ _).bind fun _ => asks_modify _
  · apply (asks_note _ _ _).bind
    intro _
    exact asks_modify _

theorem asks_bindBuiltin (builtin : Builtin) :
    (Module.bindBuiltin builtin : Action Failure (Session σ) Unit).Asks Request.IsRecord := by
  apply asks_get_bind
  intro session
  exact (asks_addCommand _ _).mapError _

theorem asks_loadModule (which : Stock) :
    (loadModule which.module : Action ShellError (Session σ) Unit).Asks Request.IsRecord := by
  have load : (which.module : Module σ).load.Asks Request.IsRecord := by
    cases which with
    | exit | echo => exact asks_bindBuiltin _
    | defaultOutcome => exact asks_modify _
    | history limit path =>
      apply (asks_bindBuiltin _).bind
      intro _
      apply (asks_modify _).bind
      intro _
      exact asks_modify _
  apply asks_get_bind
  intro session
  split
  · exact asks_note _ _ _
  · apply (load.mapError _).bind
    intro _
    apply (asks_modify _).bind
    intro _
    exact asks_note _ _ _

theorem asks_applySettings (settings : Settings) :
    (applySettings settings : Action ShellError (Session σ) Unit).Asks Request.IsRecord := by
  apply (asks_modify _).bind
  intro _
  split
  · exact asks_loadModule settings.remembering
  · exact asks_pure _

theorem leaves_loadModule (which : Stock) :
    (loadModule which.module : Action ShellError (Session σ) Unit).Leaves surroundings := by
  intro before asked ended after ran
  rcases Stock.loadModule_cases ran with
    ⟨_, _, rfl⟩ | ⟨_, _, _, gained⟩ | ⟨_, _, _, _, rfl⟩
  · rfl
  · rw [gained.otherwise]
    rfl
  · rfl

theorem leaves_applySettings (settings : Settings) :
    (applySettings settings : Action ShellError (Session σ) Unit).Leaves surroundings := by
  apply Leaves.bind
  · exact leaves_modify fun _ => rfl
  · intro _
    split
    · exact leaves_loadModule settings.remembering
    · exact leaves_pure _

end Session

/-- What reading a file of settings comes to, by what is found there. -/
def Settings.ofFile (path : String) : Except DeviceError Bytes → Except SettingsError Settings
  | .error error => .error (.unreadable path error)
  | .ok bytes =>
    (Bytes.toText? bytes).elim (.error (.unreadable path .invalidText)) Settings.ofText

theorem Settings.runs_load_iff {path : String} :
    (Settings.load path).Runs asked loaded ↔
      ∃ found, asked = [⟨.load path, found⟩] ∧ loaded = Settings.ofFile path found := by
  have mapped : Settings.load path = Settings.ofFile path <$> Program.load path := by
    rw [Settings.load, map_eq_pure_bind]
    refine congrArg (_ >>= ·) (funext fun found => ?_)
    cases found with
    | error error => rfl
    | ok bytes =>
      simp only [Settings.ofFile]
      cases Bytes.toText? bytes <;> rfl
  rw [mapped, map_eq_pure_bind, Program.runs_map_iff]
  exact exists_congr fun found => and_congr_left' Program.runs_request_iff

namespace CommandLine

variable {options : Options}

/-- The settings that the options begin with: the defaults, or those of a file. -/
inductive Options.Reads (options : Options) : List Exchange → Except SettingsError Settings → Prop where
  | defaults (unnamed : options.config = none) : Reads options [] (.ok {})
  | file (named : options.config = some path) (found : Except DeviceError Bytes) :
      Reads options [⟨.load path, found⟩] (Settings.ofFile path found)

/-- Settings with what the options say instead, and the threshold that their log level names. -/
def Options.settle (options : Options) (found : Settings) :
    Except SettingsError (Settings × Log.Threshold) :=
  (options.override found).logging.threshold.map ((options.override found), ·)

theorem Options.settle_eq_error_iff {error : SettingsError} :
    options.settle found = .error error ↔
      Log.Threshold.ofName? (options.override found).logging.level = none ∧
        error = .unknownLevel (options.override found).logging.level := by
  rw [settle, LogSettings.threshold]
  cases Log.Threshold.ofName? (options.override found).logging.level with
  | none => simp [Except.map, eq_comm]
  | some threshold => simp [Except.map]

theorem Options.settle_eq_ok_iff {threshold : Log.Threshold} :
    options.settle found = .ok (chosen, threshold) ↔
      chosen = options.override found ∧
        Log.Threshold.ofName? (options.override found).logging.level = some threshold := by
  rw [settle, LogSettings.threshold]
  cases Log.Threshold.ofName? (options.override found).logging.level with
  | none => simp [Except.map]
  | some level => simp [Except.map, eq_comm]

theorem runs_settings_iff :
    (settings options).Runs asked ended ↔
      ∃ loaded, options.Reads asked loaded ∧ ended = loaded.bind options.settle := by
  have settles (loaded : Except SettingsError Settings) :
      (do
        let chosen := options.override (← loaded)
        return (chosen, ← chosen.logging.threshold)) = loaded.bind options.settle := by
    cases loaded with
    | error => rfl
    | ok found =>
      simp only [Options.settle, bind, Except.bind]
      cases (options.override found).logging.threshold <;> rfl
  unfold settings
  cases named : options.config with
  | none =>
    simp only [settles, pure_bind]
    constructor
    · intro ran
      obtain ⟨rfl, rfl⟩ := Program.runs_pure_iff.mp ran
      exact ⟨_, .defaults named, rfl⟩
    · rintro ⟨_, reads, rfl⟩
      cases reads with
      | defaults => exact Program.runs_pure_iff.mpr ⟨rfl, rfl⟩
      | file other => cases named.symm.trans other
  | some path =>
    simp only [settles]
    rw [Program.runs_map_iff]
    refine exists_congr fun loaded => and_congr_left' ?_
    refine Settings.runs_load_iff.trans ⟨?_, fun reads => ?_⟩
    · rintro ⟨found, rfl, rfl⟩
      exact .file named found
    · cases reads with
      | defaults unnamed => cases named.symm.trans unnamed
      | file other found =>
        obtain rfl := Option.some.inj (named.symm.trans other)
        exact ⟨found, rfl, rfl⟩

/-- Setting up fails before anything has been asked for but the file of settings, the log, and records in
it. Only a line editor on a terminal can fail when the settings have been applied. -/
inductive Options.Fails (options : Options) (terminal : Option (Except DeviceError (Source σ)))
    (start : Session σ) : List Exchange → Failure → Session σ → Prop where
  | unread (reads : options.Reads asked (.error error)) :
      Fails options terminal start asked (.shell error.toShellError) start
  | unknownLevel (reads : options.Reads asked (.ok found))
      (unknown : Log.Threshold.ofName? (options.override found).logging.level = none) :
      Fails options terminal start asked
        (.shell (SettingsError.unknownLevel (options.override found).logging.level).toShellError) start
  | unlogged (reads : options.Reads asked (.ok found))
      (known : Log.Threshold.ofName? (options.override found).logging.level = some threshold)
      (error : DeviceError) :
      Fails options terminal start
        (asked ++ [⟨.startLog threshold (options.override found).logging.file, .error error⟩])
        (.context ("can't open log file " ++ (options.override found).logging.file.getD "")
          (.device error)) start
  | unedited (reads : options.Reads asked (.ok found))
      (known : Log.Threshold.ofName? (options.override found).logging.level = some threshold)
      (applied : (Session.applySettings (options.override found)).Runs start noted (.ok ()) after)
      (broken : terminal = some (.error error)) :
      Fails options terminal start
        (asked ++ ⟨.startLog threshold (options.override found).logging.file, .ok ()⟩ :: noted)
        (.shell (.editor error)) after

variable {start after : Session σ}

theorem asks_takeEditor (terminal : Option (Except DeviceError (Source σ))) :
    (takeEditor terminal).Asks Request.IsRecord := by
  rcases terminal with _ | error | source
  · exact asks_pure _
  · exact asks_throw _
  · exact asks_modify _

theorem asks_attach (terminal : Option (Except DeviceError (Source σ))) (chosen : Settings) :
    (attach terminal chosen).Asks Request.IsRecord := by
  apply (Session.asks_applySettings chosen).bind
  intro _
  apply (asks_takeEditor terminal).bind
  intro _
  apply (Session.asks_loadModule .exit).bind
  intro _
  apply (Session.asks_loadModule .echo).bind
  intro _
  exact Session.asks_loadModule .defaultOutcome

/-- The settings are settled on, or setting up fails for them. -/
theorem settle_cases (terminal : Option (Except DeviceError (Source σ))) (start : Session σ)
    (loaded : (settings options).Runs asked ended) :
    (∃ error, ended = .error error ∧
      options.Fails terminal start asked (.shell error.toShellError) start) ∨
    ∃ found threshold, ended = .ok (options.override found, threshold) ∧
      options.Reads asked (.ok found) ∧
      Log.Threshold.ofName? (options.override found).logging.level = some threshold := by
  obtain ⟨read, reads, rfl⟩ := runs_settings_iff.mp loaded
  cases read with
  | error error => exact .inl ⟨error, rfl, .unread reads⟩
  | ok found =>
    simp only [Except.bind]
    cases settled : options.settle found with
    | error error =>
      obtain ⟨unknown, rfl⟩ := Options.settle_eq_error_iff.mp settled
      exact .inl ⟨_, rfl, .unknownLevel reads unknown⟩
    | ok pair =>
      obtain ⟨chosen, threshold⟩ := pair
      obtain ⟨rfl, known⟩ := Options.settle_eq_ok_iff.mp settled
      exact .inr ⟨found, threshold, rfl, reads, known⟩

/-- Setting up fails and leaves the session as it was, or it goes on once the log has been opened. -/
theorem setUp_cases {terminal : Option (Except DeviceError (Source σ))}
    (ran : (setUp terminal options).Runs start exchanges ended after) :
    (∃ failure, options.Fails terminal start exchanges failure after ∧ ended = .error failure ∧
      after = start) ∨
    ∃ asked found threshold later, options.Reads asked (.ok found) ∧
      Log.Threshold.ofName? (options.override found).logging.level = some threshold ∧
      exchanges = asked ++
        ⟨.startLog threshold (options.override found).logging.file, .ok ()⟩ :: later ∧
      (fitUp terminal options (options.override found)).Runs start later ended after := by
  cases runs_setUp_iff.mp ran with
  | unset loaded =>
    rcases settle_cases terminal start loaded with ⟨_, same, fails⟩ | ⟨_, _, impossible, _⟩
    · cases same
      exact .inl ⟨_, fails, rfl, rfl⟩
    · cases impossible
  | unlogged loaded error =>
    rcases settle_cases terminal start loaded with ⟨_, impossible, _⟩ | ⟨_, _, same, reads, known⟩
    · cases impossible
    · cases same
      exact .inl ⟨_, .unlogged reads known error, rfl, rfl⟩
  | logged loaded rest =>
    rcases settle_cases terminal start loaded with ⟨_, impossible, _⟩ | ⟨_, _, same, reads, known⟩
    · cases impossible
    · cases same
      exact .inr ⟨_, _, _, _, reads, known, rfl, rest⟩

/-- Fitting up a session keeps records and nothing else. If it fails, the lines to run are not queued, and
only the shell, the history and the line editor may have changed. -/
theorem fitUp_cases (ran : (fitUp terminal options chosen).Runs start asked ended after) :
    (∀ exchange ∈ asked, exchange.1.IsRecord) ∧
    ((∃ error, ended = .error (.shell error) ∧
        (attach terminal chosen).Runs start asked (.error error) after) ∨
      ended = .ok () ∧ ∃ made middle, (attach terminal chosen).Runs start made (.ok ()) middle) := by
  have asks : (fitUp terminal options chosen).Asks Request.IsRecord := by
    apply ((asks_attach terminal chosen).mapError _).bind
    intro _
    apply asks_get_bind
    intro _
    apply (asks_note _ _ _).bind
    intro _
    exact asks_modify _
  refine ⟨asks.of_runs ran, ?_⟩
  rcases runs_bind_iff.mp ran with ⟨_, failed, rfl⟩ | ⟨_, _, _, _, attached, onward, _⟩
  · obtain ⟨error, broke, rfl⟩ := runs_mapError_error_iff.mp failed
    exact .inl ⟨error, rfl, broke⟩
  · obtain ⟨_, noted, _⟩ := runs_record_bind_iff.mp (runs_get_bind_iff.mp onward)
    obtain ⟨_, rfl, _⟩ := runs_modify_iff.mp noted
    exact .inr ⟨rfl, _, _, runs_mapError_ok_iff.mp attached⟩

theorem Options.Fails.surroundings {failure : Failure}
    (fails : options.Fails terminal start asked failure after) :
    after.surroundings = start.surroundings := by
  cases fails with
  | unread | unknownLevel | unlogged => rfl
  | unedited reads known applied broken => exact Session.leaves_applySettings _ _ _ _ _ applied

/-- The command line starts: it has settings with a level, the log is opened, the modules are attached
with nothing but records kept, and the session runs. -/
inductive Options.Starts (options : Options) (input : StandardInput) :
    List Exchange → UInt8 → Prop where
  | intro (reads : options.Reads asked (.ok found))
      (known : Log.Threshold.ofName? (options.override found).logging.level = some threshold)
      (begun : ∀ error, input.editor? ≠ some (.error error))
      (records : ∀ exchange ∈ noted, exchange.1.IsRecord)
      (ran : (runSession (started (options.override found) options.commands input)
        (input.turnsFor options.commands)).Runs later status) :
      Starts options input
        (asked ++ ⟨.startLog threshold (options.override found).logging.file, .ok ()⟩ ::
          (noted ++ later))
        status

variable {words : List String} {input : StandardInput}

theorem run_cases (given : read words = .ok options)
    (ran : (runOn words input).Runs exchanges status) :
    (∃ asked failure after later, options.Fails input.editor? input.session asked failure after ∧
      exchanges = asked ++ later) ∨ options.Starts input exchanges status := by
  rw [runOn_of_read given] at ran
  obtain ⟨first, ⟨ended, session⟩, rest, setting, onward, rfl⟩ := Program.runs_bind_iff.mp ran
  rcases setUp_cases setting with
    ⟨failure, fails, rfl, _⟩ | ⟨asked, found, threshold, noted, reads, known, rfl, fitting⟩
  · exact .inl ⟨_, _, _, _, fails, rfl⟩
  · -- Nothing but the line editor is in the way in a session of the command line's own.
    obtain ⟨records, ⟨_, rfl, failed⟩ | ⟨rfl, made, middle, attached⟩⟩ := fitUp_cases fitting
    · rcases attach_of_runs failed with ⟨error, broken, _, applied⟩ | ⟨_, impossible, _⟩
      · exact .inl ⟨_, _, _, _, .unedited reads known applied broken, rfl⟩
      · cases impossible
    · rcases attach_of_runs attached with ⟨_, _, impossible, _⟩ | ⟨begun, _⟩
      · cases impossible
      obtain ⟨_, rfl⟩ := fitUp_of_runs begun fitting
      rw [List.append_assoc, List.cons_append]
      exact .inr (.intro reads known begun records onward)

end CommandLine

end LineShell
