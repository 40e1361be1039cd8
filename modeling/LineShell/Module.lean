import LineShell.Session
/-!
Modules: bundles of commands and hooks that attach themselves to a session, each at most once.
-/

namespace LineShell

/-- A module: its name, and what attaching it does. -/
structure Module (σ : Type) where
  name : String
  load : Action Failure (Session σ) Unit

namespace Session

variable {ε σ : Type}

/-- Bind a command to a name that has none. -/
def addCommand (name : String) (command : Command σ) : Action ShellError (Session σ) Unit := do
  let session ← get
  if session.shell.commands.contains name then throw (.alreadyBound name)
  Action.record .debug Shell.logTarget ("binding command " ++ name)
  set { session with shell := { session.shell with
    commands := session.shell.commands.insert name command } }

/-- Unbind a name, and tell whether it was bound. -/
def removeCommand (session : Session σ) (name : String) : Bool × Session σ :=
  (session.shell.commands.contains name,
    { session with shell := { session.shell with commands := session.shell.commands.erase name } })

/-- Change the hooks of a session. -/
def modifyHooks (change : HookTable σ → HookTable σ) : Action ε (Session σ) Unit :=
  modify fun session =>
    { session with shell := { session.shell with hooks := change session.shell.hooks } }

/-- Register a hook that fits its point. -/
def addHook (point : HookPoint) (hook : Named (point.Fitting σ)) : Action ε (Session σ) Unit :=
  modifyHooks fun hooks => hooks.add point hook

/-- Register a hook at a point, unless it is of a kind that does not fit. -/
def registerHook (point : HookPoint) (hook : Hook σ) : Action ShellError (Session σ) Unit := do
  match (← get).shell.hooks.register point hook with
  | .ok hooks => modifyHooks fun _ => hooks
  | .error error => throw error

/-- Attach a module, unless one of its name is attached already. It counts as attached when its
load has succeeded. -/
def loadModule (module : Module σ) : Action ShellError (Session σ) Unit := do
  if (← get).shell.modules.contains module.name then
    Action.record .debug Shell.logTarget ("module " ++ module.name ++ " already loaded")
  else
    module.load.mapError (.moduleLoad module.name)
    modify fun session =>
      { session with shell := { session.shell with
        modules := session.shell.modules.insert module.name () } }
    Action.record .info Shell.logTarget ("loaded module " ++ module.name)

def hasModule (session : Session σ) (name : String) : Bool :=
  session.shell.modules.contains name

end Session

end LineShell
