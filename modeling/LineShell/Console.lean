import LineShell.Failure
import LineShell.Text.Bytes
/-!
Consoles: pairs of sinks for normal and error output. A sink may be faulty, and the sinks of a
console can be replaced while it is in use.
-/

namespace LineShell

inductive Channel where
  | out
  | err
  deriving DecidableEq, Repr

/-- How a sink fails. -/
inductive Fault where
  /-- Refuses every write of at least one byte. -/
  | refuses
  /-- Keeps what is written, and then fails to pass it on. -/
  | stalls
  /-- Accepts a number of bytes in all, and no more. -/
  | holds (capacity : Nat)
  deriving DecidableEq, Repr

/-- A place that output goes to, with all that it accepted so far. -/
structure Sink where
  accepted : Bytes := []
  fault : Option Fault := none
  deriving DecidableEq, Repr

namespace Sink

/-- Write bytes and pass them on. On failure the sink keeps what it had accepted until then. -/
def write (sink : Sink) (data : Bytes) : Except DeviceError Unit × Sink :=
  match sink.fault with
  | none => (.ok (), { sink with accepted := sink.accepted ++ data })
  | some .refuses =>
    (if data.isEmpty then .ok () else .error (.other "sink closed"), sink)
  | some .stalls =>
    (.error (.other "flush failed"), { sink with accepted := sink.accepted ++ data })
  | some (.holds capacity) =>
    let room := capacity - sink.accepted.length
    (if data.length ≤ room then .ok () else .error .shortWrite,
      { sink with accepted := sink.accepted ++ data.take room })

def clear (sink : Sink) : Sink :=
  { sink with accepted := [] }

theorem accepted_write (sink : Sink) (data : Bytes) :
    ∃ taken, taken <+: data ∧ (sink.write data).2.accepted = sink.accepted ++ taken := by
  unfold write
  split
  · exact ⟨data, List.prefix_rfl, rfl⟩
  · exact ⟨[], List.nil_prefix, by simp⟩
  · exact ⟨data, List.prefix_rfl, rfl⟩
  · exact ⟨_, List.take_prefix _ _, rfl⟩

end Sink

structure SinkPair where
  out : Sink := {}
  err : Sink := {}
  deriving DecidableEq, Repr

/-- The sinks in use, and those they replaced, the first ones first. -/
structure Console where
  current : SinkPair := {}
  replaced : List SinkPair := []
  deriving DecidableEq, Repr

namespace Console

def write (console : Console) (channel : Channel) (text : String) :
    Except DeviceError Unit × Console :=
  match channel with
  | .out =>
    let (result, sink) := console.current.out.write (Bytes.ofText text)
    (result, { console with current := { console.current with out := sink } })
  | .err =>
    let (result, sink) := console.current.err.write (Bytes.ofText text)
    (result, { console with current := { console.current with err := sink } })

def redirect (console : Console) (sinks : SinkPair) : Console :=
  { current := sinks, replaced := console.replaced ++ [console.current] }

/-- All sinks that were ever in use, in order. -/
def history (console : Console) : List SinkPair :=
  console.replaced ++ [console.current]

/-- Forget what the first two sinks accepted. -/
def clearFirst (console : Console) : Console :=
  match console.replaced with
  | [] => { console with current := ⟨console.current.out.clear, console.current.err.clear⟩ }
  | first :: later => { console with replaced := ⟨first.out.clear, first.err.clear⟩ :: later }

end Console

end LineShell
