import LineShell.Hook.Point
import LineShell.Statement
/-!
Errors and the chains of messages that explain them. A chain starts with the message that a reader
sees first and ends with the root cause.
-/

namespace LineShell

/-- What can go wrong on a device: a file, a stream or a console. -/
inductive DeviceError where
  | notFound
  | notDirectory
  | isDirectory
  | invalidText
  | shortWrite
  | other (message : String)
  deriving DecidableEq, Repr

def DeviceError.message : DeviceError → String
  | notFound => "No such file or directory (os error 2)"
  | notDirectory => "Not a directory (os error 20)"
  | isDirectory => "Is a directory (os error 21)"
  | invalidText => "stream did not contain valid UTF-8"
  | shortWrite => "failed to write whole buffer"
  | other message => message

mutual

/-- Why an operation of the shell failed. -/
inductive ShellError where
  /-- No command is bound to the statement's command name. -/
  | commandNotFound (statement : Statement)
  /-- A hook of one kind was registered at a point that takes another. -/
  | hookMismatch (hook : String) (point : HookPoint) (found : HookKind)
  | alreadyBound (name : String)
  | parse (detail : String)
  /-- A module could not be attached. -/
  | moduleLoad (module : String) (cause : Failure)
  /-- A command, a hook or an end-of-input handler failed. -/
  | command (failure : Failure)
  /-- The settings cannot be read or make no sense. -/
  | config (detail : String)
  /-- The line editor failed on its device. -/
  | editor (error : DeviceError)
  /-- A console or a source of lines failed. -/
  | device (error : DeviceError)

/-- Why client code failed: a root cause under any number of added contexts. -/
inductive Failure where
  | text (message : String)
  | device (error : DeviceError)
  | shell (error : ShellError)
  | context (message : String) (inner : Failure)

end

mutual

/-- The error's message followed by the messages of its causes. The failure of a command stands
for itself; every other error adds a message of its own. -/
def ShellError.chain : ShellError → List String
  | .commandNotFound statement => [statement.command ++ ": command not found"]
  | .hookMismatch hook point found =>
    ["hook " ++ hook ++ " has signature " ++ found.signature ++ ", but " ++ point.name ++
      " hooks must be " ++ point.kind.signature]
  | .alreadyBound name => ["command already bound: " ++ name]
  | .parse detail => ["parse error: " ++ detail]
  | .moduleLoad module cause =>
    ("failed to load module " ++ module ++ ": " ++ cause.chain.headD "") :: cause.chain
  | .command failure => failure.chain
  | .config detail => ["configuration error: " ++ detail]
  | .editor error => ["line editor error: " ++ error.message, error.message, error.message]
  | .device error => ["i/o error: " ++ error.message, error.message]

/-- The outermost message followed by the messages of its causes. -/
def Failure.chain : Failure → List String
  | .text message => [message]
  | .device error => [error.message]
  | .shell error => error.chain
  | .context message inner => message :: inner.chain

end

def ShellError.message (error : ShellError) : String :=
  error.chain.headD ""

/-- The messages of an error's causes, the root last. -/
def ShellError.causes (error : ShellError) : List String :=
  error.chain.tail

def Failure.message (failure : Failure) : String :=
  failure.chain.headD ""

/-- The messages of a failure's causes, the root last. -/
def Failure.causes (failure : Failure) : List String :=
  failure.chain.tail

instance : ToString ShellError := ⟨ShellError.message⟩

instance : ToString Failure := ⟨Failure.message⟩

mutual

theorem ShellError.chain_ne_nil : (error : ShellError) → error.chain ≠ []
  | .commandNotFound _ | .hookMismatch .. | .alreadyBound _ | .parse _ | .moduleLoad ..
  | .config _ | .editor _ | .device _ => by simp [ShellError.chain]
  | .command failure => by simpa [ShellError.chain] using failure.chain_ne_nil

theorem Failure.chain_ne_nil : (failure : Failure) → failure.chain ≠ []
  | .text _ | .device _ | .context .. => by simp [Failure.chain]
  | .shell error => by simpa [Failure.chain] using error.chain_ne_nil

end

theorem ShellError.message_causes (error : ShellError) :
    error.message :: error.causes = error.chain := by
  have nonempty := error.chain_ne_nil
  unfold message causes
  cases h : error.chain with
  | nil => exact absurd h nonempty
  | cons first rest => rfl

theorem Failure.message_causes (failure : Failure) :
    failure.message :: failure.causes = failure.chain := by
  have nonempty := failure.chain_ne_nil
  unfold message causes
  cases h : failure.chain with
  | nil => exact absurd h nonempty
  | cons first rest => rfl

end LineShell
