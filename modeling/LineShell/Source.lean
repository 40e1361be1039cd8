import LineShell.Action
import LineShell.ByteCursor
import LineShell.Text.Typed
/-!
Sources of lines: where a session's lines come from once its queue is empty.
-/

namespace LineShell

/-- A source of lines. -/
inductive Source (σ : Type) where
  /-- Always at its end. -/
  | empty
  /-- Bytes cut into lines. When a person is at the other end, each prompt is shown first. -/
  | buffered (interactive : Bool) (cursor : ByteCursor)
  /-- A line editor whose input is no terminal: it shows no prompt. -/
  | editor (cursor : ByteCursor)
  /-- One of the client, which is asked each time whether a person is at the other end. -/
  | custom (interactive : StateT σ Program Bool)
      (read : String → ConsoleId → Action ShellError σ (Option String))

namespace Source

variable {σ : Type}

/-- Ask whether a person is at the other end. -/
def isInteractive : Source σ → StateT σ Program Bool
  | empty => pure false
  | buffered interactive _ => pure interactive
  | editor _ => pure true
  | custom interactive _ => interactive

/-- The next line of a buffer without the end of its line, or nothing at the end. -/
def nextLine (cursor : ByteCursor) : Except DeviceError (Option String) × ByteCursor :=
  let (line, after) := cursor.readLine
  (line.map fun text => if text = "" then none else some (Lines.chompText text), after)

/-- Read a line without its end, or find the end of input. -/
def read (source : Source σ) (prompt : String) (console : ConsoleId) (client : σ) :
    Program (Except ShellError (Option String) × Source σ × σ) :=
  match source with
  | empty => return (.ok none, source, client)
  | buffered interactive cursor => do
    let shown ← if interactive then Program.write console .out prompt else pure (.ok ())
    match shown with
    | .error error => return (.error (.device error), source, client)
    | .ok () =>
      let (line, after) := nextLine cursor
      return (line.mapError .device, buffered interactive after, client)
  | editor cursor =>
    let (line, after) := nextLine cursor
    return ((line.map fun text => text.map Text.applyBackspaces).mapError .editor, editor after, client)
  | custom _ readNext => do
    let (line, after) ← (readNext prompt console).runFrom client
    return (line, source, after)

end Source

end LineShell
