import LineShell.Module.Stock
/-!
Settings of a shell: its prompt, its word rule, its history and its log.
-/

namespace LineShell

structure HistorySettings where
  enabled : Bool := true
  file : Option String := none
  /-- How many lines are kept at most; no limit when zero. -/
  limit : Nat := Module.defaultHistoryLimit
  deriving DecidableEq, Repr

structure LogSettings where
  level : String := "warn"
  file : Option String := none
  deriving DecidableEq, Repr

structure Settings where
  prompt : String := defaultPrompt
  parser : WordRule := .simple
  history : HistorySettings := {}
  logging : LogSettings := {}
  deriving DecidableEq, Repr

inductive SettingsError where
  | unreadable (path : String) (error : DeviceError)
  | malformed
  | misfit (report : String)
  | unknownLevel (level : String)
  deriving DecidableEq, Repr

def SettingsError.detail : SettingsError → String
  | unreadable path error => "can't read " ++ path ++ ": " ++ error.message
  | malformed => "TOML parse error\n"
  | misfit report => report
  | unknownLevel level => "unknown log level: " ++ level

/-- The error that a shell reports. -/
def SettingsError.toShellError (error : SettingsError) : ShellError :=
  .config error.detail

/-- The threshold that the settings of the log name. -/
def LogSettings.threshold (logging : LogSettings) : Except SettingsError Log.Threshold :=
  match Log.Threshold.ofName? logging.level with
  | some threshold => .ok threshold
  | none => .error (.unknownLevel logging.level)

/-- Apply settings to a session: the prompt, the word rule, and the history if it is enabled. -/
def Session.applySettings {σ : Type} (settings : Settings) : Action ShellError (Session σ) Unit := do
  modify fun session =>
    { session with shell := { session.shell with
      prompt := settings.prompt
      parser := .words settings.parser } }
  if settings.history.enabled then
    Session.loadModule (.history settings.history.limit settings.history.file)

end LineShell
