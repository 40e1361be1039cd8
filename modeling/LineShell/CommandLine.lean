import LineShell.Settings.Decode
/-!
The command line: options, start-up, and the exit status that a session leaves.
-/

namespace LineShell.CommandLine

/-- What the words of a command line ask for. -/
structure Options where
  config : Option String := none
  posix : Bool := false
  logLevel : Option String := none
  /-- Lines to run before any input, in order. -/
  commands : List String := []
  deriving DecidableEq, Repr

def help : String :=
  "Usage: cmdsh [--config <config>] [--posix] [--log-level <log-level>] [-c <command...>]\n\n" ++
  "A small interactive command shell.\n\n" ++
  "Options:\n" ++
  "  --config          read settings from this TOML file.\n" ++
  "  --posix           split lines with POSIX shell quoting rules.\n" ++
  "  --log-level       log level: off, error, warn, info, debug or trace.\n" ++
  "  -c, --command     run this line before reading any input; may be repeated.\n" ++
  "  --help, help      display usage information\n"

/-- The line that points to the help after a complaint. -/
def helpHint : String :=
  "Run cmdsh --help for more information.\n"

/-- The rules of the command line: options only. -/
def rules : ArgumentRules Options where
  flag? word :=
    match word with
    | "--config" => some <| .valued fun path options =>
      if options.config.isSome then none else some { options with config := some path }
    | "--posix" => some <| .switch fun options => { options with posix := true }
    | "--log-level" => some <| .valued fun level options =>
      if options.logLevel.isSome then none else some { options with logLevel := some level }
    | "-c" | "--command" => some <| .valued fun line options =>
      some { options with commands := options.commands ++ [line] }
    | _ => none
  value word _ := .error (Arguments.unrecognized word)

def read (words : List String) : Except Refusal Options :=
  Arguments.read rules {} words

/-- Settings with what the options say instead. -/
def Options.override (options : Options) (settings : Settings) : Settings :=
  { settings with
    parser := if options.posix then .posix else settings.parser
    logging := { settings.logging with level := options.logLevel.getD settings.logging.level } }

def logTarget : String := "cmdsh"

variable {σ : Type}

/-- The settings that a command line asks for, with the threshold that their log level names. -/
def settings (options : Options) : Program (Except SettingsError (Settings × Log.Threshold)) := do
  let loaded ← match options.config with
    | none => pure (.ok {})
    | some path => Settings.load path
  return do
    let settings := options.override (← loaded)
    return (settings, ← settings.logging.threshold)

/-- Take lines from a line editor, if standard input is a terminal. There the editor is begun first, with
more or less success. -/
def takeEditor (terminal : Option (Except DeviceError (Source σ))) :
    Action ShellError (Session σ) Unit :=
  match terminal with
  | none => pure ()
  | some (.error error) => throw (.editor error)
  | some (.ok source) =>
    modify fun session => { session with input := { session.input with source } }

/-- Set up a session: read the settings, start the log, apply the settings, begin a line editor on a
terminal, attach the modules, and queue the lines of the command line. The first failure ends this. -/
def setUp (terminal : Option (Except DeviceError (Source σ))) (options : Options) :
    Action Failure (Session σ) Unit := do
  let (settings, threshold) ←
    Action.attempt (fun error => .shell error.toShellError) (settings options)
  Action.attempt
    (fun error => .context ("can't open log file " ++ settings.logging.file.getD "") (.device error))
    (Program.startLog threshold settings.logging.file)
  Action.mapError .shell do
    Session.applySettings settings
    takeEditor terminal
    Session.loadModule .exit
    Session.loadModule .echo
    Session.loadModule .defaultOutcome
  Action.record .debug logTarget ("modules: " ++ Text.quotedList (← get).shell.modules.names)
  modify fun session =>
    { session with input := { session.input with
      queue := session.input.queue ++ options.commands } }

/-- Standard input: bytes that no person types, or a terminal with a line editor on it. A person may type
without end, so a loop that reads a terminal takes as many turns as it is given. -/
inductive StandardInput where
  | piped (bytes : Bytes)
  | terminal (editor : Except DeviceError (Source Unit)) (turns : Nat)

/-- The session that reads bytes that no person types. -/
def sessionOn (input : Bytes) : Session Unit where
  input := { source := .buffered false { bytes := input } }
  memory := { client := () }

def StandardInput.session : StandardInput → Session Unit
  | piped bytes => sessionOn bytes
  | terminal .. => { input := { source := .buffered true { bytes := [] } }, memory := { client := () } }

def StandardInput.editor? : StandardInput → Option (Except DeviceError (Source Unit))
  | piped _ => none
  | terminal editor _ => some editor

/-- The source of the session once it has been set up. -/
def StandardInput.source : StandardInput → Source Unit
  | piped bytes => .buffered false { bytes }
  | terminal (.ok editor) _ => editor
  | terminal (.error _) _ => .buffered true { bytes := [] }

/-- How many turns a loop over queued lines and bytes takes at most: one for each line, and one for
the end of input. -/
def turnsFor (commands : List String) (input : Bytes) : Nat :=
  commands.length + (Lines.segments Bytes.isNewline input).length + 1

def StandardInput.turnsFor (commands : List String) : StandardInput → Nat
  | piped bytes => CommandLine.turnsFor commands bytes
  | terminal _ turns => turns

/-- The exit status of a process whose last outcome has an exit code. -/
def exitStatus (code : Int32) : UInt8 :=
  UInt8.ofNat (code.toInt % 256).toNat

def failureStatus : UInt8 := 1

/-- A failure as it is reported: its message, and its causes if it has any. -/
def failureText (failure : Failure) : String :=
  let causes := failure.causes.map fun cause => "    " ++ cause ++ "\n"
  "Error: " ++ failure.message ++ "\n" ++
    if causes.isEmpty then "" else "\nCaused by:\n" ++ String.join causes

def fail (failure : Failure) : Program UInt8 := do
  discard <| Program.write 0 .err (failureText failure)
  return failureStatus

/-- Run a session that has been set up. -/
def runSession (session : Session σ) (turns : Nat) : Program UInt8 := do
  match (← session.run turns).1 with
  | .stopped outcome => return exitStatus outcome.exitCode
  | .failed error => fail (.shell error)
  | .unfinished => return failureStatus

def runOn (words : List String) (input : StandardInput) : Program UInt8 := do
  match read words with
  | .error .help =>
    discard <| Program.write 0 .out (help ++ "\n")
    return 0
  | .error (.misuse text) =>
    discard <| Program.write 0 .err (text ++ "\n" ++ helpHint)
    return failureStatus
  | .ok options =>
    match ← (setUp input.editor? options).runFrom input.session with
    | (.error failure, _) => fail failure
    | (.ok (), session) => runSession session (input.turnsFor options.commands)

def run (words : List String) (input : Bytes) : Program UInt8 :=
  runOn words (.piped input)

end LineShell.CommandLine
