import LineShell.Files
import LineShell.Program
/-!
Hosts: the surroundings that programs run on, with consoles, files and a log.
-/

namespace LineShell

inductive LogTarget where
  | memory
  | console
  | file (path : String)
  deriving DecidableEq, Repr

/-- Which records are kept, where they go, and those kept in memory. -/
structure Journal where
  threshold : Log.Threshold := none
  target : LogTarget := .memory
  records : List Log.Record := []
  deriving DecidableEq, Repr

/-- Consoles, files and a log. -/
structure Host where
  consoles : List Console := [{}]
  files : Files := {}
  journal : Journal := {}
  deriving DecidableEq, Repr

namespace Host

def openConsole (host : Host) : ConsoleId × Host :=
  (host.consoles.length, { host with consoles := host.consoles ++ [{}] })

def redirect (host : Host) (console : ConsoleId) (sinks : SinkPair) : Host :=
  { host with consoles := host.consoles.modify console (·.redirect sinks) }

/-- Write to a console; one that was never opened is not found. -/
def write (host : Host) (console : ConsoleId) (channel : Channel) (text : String) :
    Except DeviceError Unit × Host :=
  match host.consoles[console]? with
  | none => (.error .notFound, host)
  | some found =>
    let (result, after) := found.write channel text
    (result, { host with consoles := host.consoles.set console after })

/-- Keep a record if its level is admitted. A log that cannot be written is passed over. -/
def record (host : Host) (entry : Log.Record) : Host :=
  if host.journal.threshold.admits entry.level then
    match host.journal.target with
    | .memory =>
      { host with journal := { host.journal with records := host.journal.records ++ [entry] } }
    | .console => (host.write 0 .err entry.line).2
    | .file path =>
      match host.files.append path (Bytes.ofText entry.line) with
      | .error _ => host
      | .ok files => { host with files }
  else host

/-- Start keeping records. A file for them is made at once, and keeps what it holds. -/
def startLog (host : Host) (threshold : Log.Threshold) (path : Option String) :
    Except DeviceError Unit × Host :=
  match path with
  | none => (.ok (), { host with journal := { host.journal with threshold, target := .console } })
  | some path =>
    match host.files.append path [] with
    | .error error => (.error error, host)
    | .ok files =>
      (.ok (), { host with files, journal := { host.journal with threshold, target := .file path } })

def answer : (asked : Request) → Host → asked.Answer × Host
  | .write console channel text, host => host.write console channel text
  | .load path, host => (host.files.read path, host)
  | .save path content, host =>
    match host.files.save path content with
    | .error error => (.error error, host)
    | .ok files => (.ok (), { host with files })
  | .record entry, host => ((), host.record entry)
  | .startLog threshold path, host => host.startLog threshold path

end Host

def Program.runOn {α : Type} (program : Program α) (host : Host) : α × Host :=
  program.run Host.answer host

end LineShell
