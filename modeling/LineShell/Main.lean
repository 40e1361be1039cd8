import LineShell.CommandLine
import Std.Time.DateTime
/-!
The program itself: the command line on the files and streams of a process.
-/

namespace LineShell.Main

/-- A device error of the system. -/
def deviceError : IO.Error → DeviceError
  | .noFileOrDirectory .. => .notFound
  | .inappropriateType _ 20 _ => .notDirectory
  | .inappropriateType _ 21 _ => .isDirectory
  | error => .other (toString error)

def attempt {α : Type} (action : IO α) : IO (Except DeviceError α) := do
  try return .ok (← action)
  catch error => return .error (deviceError error)

/-- The log of the process: which records are kept, and where they go. -/
structure Journal where
  threshold : Log.Threshold
  stream : IO.FS.Stream

def twoDigits (n : Nat) : String :=
  if n < 10 then "0" ++ toString n else toString n

def timeOfDay : IO String := do
  let seconds := ((← Std.Time.Timestamp.now).toSecondsSinceUnixEpoch.val % 86400).toNat
  return twoDigits (seconds / 3600) ++ ":" ++ twoDigits (seconds / 60 % 60) ++ ":" ++
    twoDigits (seconds % 60)

/-- Keep a record, with the time of day in front. A log that cannot be written is passed over. -/
def Journal.record (journal : Journal) (entry : Log.Record) : IO Unit := do
  if journal.threshold.admits entry.level then
    discard <| attempt do
      journal.stream.putStr ((← timeOfDay) ++ " " ++ entry.line)
      journal.stream.flush

/-- Carry out a program in the process. -/
def perform {α : Type} (journal : Journal) : Program α → IO α
  | .done value => return value
  | .ask (.write _ channel text) next => do
    let stream ← match channel with
      | .out => IO.getStdout
      | .err => IO.getStderr
    let result ← attempt do
      stream.putStr text
      stream.flush
    perform journal (next result)
  | .ask (.load path) next => do
    let result ← attempt (IO.FS.readBinFile path)
    perform journal (next (result.map fun bytes => bytes.data.toList))
  | .ask (.save path content) next => do
    let result ← attempt (IO.FS.writeBinFile path ⟨content.toArray⟩)
    perform journal (next result)
  | .ask (.record entry) next => do
    journal.record entry
    perform journal (next ())
  | .ask (.startLog threshold none) next =>
    perform { journal with threshold } (next (.ok ()))
  | .ask (.startLog threshold (some path)) next => do
    match ← attempt (IO.FS.Handle.mk path .append) with
    | .error error => perform journal (next (.error error))
    | .ok handle =>
      perform { threshold, stream := IO.FS.Stream.ofHandle handle } (next (.ok ()))

/-- Read a stream to its end. -/
partial def readToEnd (stream : IO.FS.Stream) (before : ByteArray) : IO ByteArray := do
  let block ← stream.read 65536
  if block.isEmpty then return before else readToEnd stream (before ++ block)

end LineShell.Main

open LineShell in
/-- Run the program on the process's arguments and its standard input. -/
def main (arguments : List String) : IO UInt32 := do
  let input ← Main.readToEnd (← IO.getStdin) .empty
  let journal : Main.Journal := { threshold := none, stream := ← IO.getStderr }
  return (← Main.perform journal (CommandLine.run arguments input.data.toList)).toUInt32
