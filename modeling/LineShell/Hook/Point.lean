/-!
The four points of a session at which hooks run, and the three kinds of hooks.
-/

namespace LineShell

/-- A point of a session at which hooks run. -/
inductive HookPoint where
  | preloop
  | postloop
  | postparse
  | postexecute
  deriving DecidableEq, Repr

/-- What a hook takes and returns: nothing, a statement, or a command's outcome. -/
inductive HookKind where
  | onLoop
  | onStatement
  | onOutcome
  deriving DecidableEq, Repr

/-- The kind as a signature, for messages. -/
def HookKind.signature : HookKind → String
  | .onLoop => "fn()"
  | .onStatement => "fn(Statement) -> Statement"
  | .onOutcome => "fn(&Statement, Option<CommandResult>) -> Option<CommandResult>"

namespace HookPoint

def name : HookPoint → String
  | preloop => "preloop"
  | postloop => "postloop"
  | postparse => "postparse"
  | postexecute => "postexecute"

/-- The one kind of hook that fits the point. -/
def kind : HookPoint → HookKind
  | preloop => .onLoop
  | postloop => .onLoop
  | postparse => .onStatement
  | postexecute => .onOutcome

instance : ToString HookPoint := ⟨name⟩

end HookPoint

end LineShell
