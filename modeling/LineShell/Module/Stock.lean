import LineShell.Module
/-!
The modules that a shell can bring along: one for each of its own commands, and one that gives
every command an outcome.
-/

namespace LineShell.Module

variable {σ : Type}

/-- Bind one of the shell's own commands, which keeps writing to the console of now. -/
def bindBuiltin (builtin : Builtin) : Action Failure (Session σ) Unit := do
  let console := (← get).shell.console
  (Session.addCommand builtin.name (.builtin builtin console)).mapError .shell

def exit : Module σ where
  name := "cmdsh::builtin::ExitCommand"
  load := bindBuiltin .exit

def echo : Module σ where
  name := "cmdsh::builtin::EchoCommand"
  load := bindBuiltin .echo

/-- The name of the hook that fills in missing outcomes. -/
def defaultOutcomeHook : String := "cmdsh::builtin::default_result_hook"

/-- Gives an outcome to commands that leave none. -/
def defaultOutcome : Module σ where
  name := "cmdsh::builtin::DefaultResult"
  load := Session.modifyHooks fun hooks =>
    { hooks with postexecute := hooks.postexecute ++ [⟨defaultOutcomeHook, .defaultOutcome⟩] }

/-- How many lines a history keeps that has been given no other limit. -/
def defaultHistoryLimit : Nat := 1000

/-- The name of all hooks of the history. -/
def historyHook : String :=
  "<cmdsh::builtin::History as cmdsh::module::Module>::load::\x7b\x7bclosure\x7d\x7d"

/-- Add the hooks of a history, with those on its file if it has one. -/
def addHistoryHooks (path : Option String) (hooks : HookTable σ) : HookTable σ :=
  let restores := path.toList.map fun path => ⟨historyHook, .restoreHistory path⟩
  let saves := path.toList.map fun path => ⟨historyHook, .saveHistory path⟩
  { hooks with
    preloop := hooks.preloop ++ restores
    postloop := hooks.postloop ++ saves
    postparse := hooks.postparse ++ [⟨historyHook, .recordHistory⟩] }

/-- Remembers statements and binds `hist`. With a file, the history outlives the session. -/
def history (limit : Nat) (path : Option String) : Module σ where
  name := "cmdsh::builtin::History"
  load := do
    bindBuiltin .hist
    modify fun session =>
      { session with memory := { session.memory with history := .ofLimit limit } }
    Session.modifyHooks (addHistoryHooks path)

end LineShell.Module
