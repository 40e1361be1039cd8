import LineShell.Hook.Point
import LineShell.History
import LineShell.Statement
import LineShell.Text.Bytes
import LineShell.Text.Quoted
/-!
Hooks: named actions that run at the four points of a session, in the order of registration, up
to the first that fails.
-/

namespace LineShell

variable {σ : Type}

/-- A hook of the loop: it reads or writes the history's file, or it is the client's. -/
inductive LoopHook (σ : Type) where
  | restoreHistory (path : String)
  | saveHistory (path : String)
  | custom (action : Action Failure σ Unit)

/-- A hook on statements: it remembers them, or it is the client's. -/
inductive StatementHook (σ : Type) where
  | recordHistory
  | custom (action : Statement → Action Failure σ Statement)

/-- A hook on outcomes: it fills in a missing one, or it is the client's. -/
inductive OutcomeHook (σ : Type) where
  | defaultOutcome
  | custom (action : Statement → Option Outcome → Action Failure σ (Option Outcome))

/-- The part of the program that log records on the history come from. -/
def History.logTarget : String := "cmdsh::builtin"

/-- Read the history's file, once. A file that is not there counts as read. -/
def History.restoreFrom (path : String) : Action Failure (Memory σ) Unit := do
  let history := (← get).history
  if history.restored then return
  match ← Action.ofProgram (Program.load path) with
  | .error .notFound =>
    Action.record .debug logTarget ("no history file at " ++ path)
    modify fun memory => { memory with history := { history with restored := true } }
  | .error error => throw (.context ("hist: can't read " ++ path) (.device error))
  | .ok bytes =>
    match Bytes.toText? bytes with
    | none => throw (.context ("hist: can't read " ++ path) (.device .invalidText))
    | some text =>
      let restored := history.restore (History.entriesOfText text)
      modify fun memory => { memory with history := restored }
      Action.record .debug logTarget
        ("read " ++ toString restored.entries.length ++ " history entries from " ++ path)

def History.saveTo (path : String) : Action Failure (Memory σ) Unit := do
  let history := (← get).history
  Action.attempt (fun error => .context ("hist: can't write " ++ path) (.device error))
    (Program.save path (Bytes.ofText history.fileText))

def LoopHook.run : LoopHook σ → Action Failure (Memory σ) Unit
  | .restoreHistory path => History.restoreFrom path
  | .saveHistory path => History.saveTo path
  | .custom action => action.ofClient

def StatementHook.run (statement : Statement) : StatementHook σ → Action Failure (Memory σ) Statement
  | .recordHistory => do
    modify fun memory => { memory with history := memory.history.push statement.raw }
    return statement
  | .custom action => (action statement).ofClient

def OutcomeHook.run (statement : Statement) (outcome : Option Outcome) :
    OutcomeHook σ → Action Failure (Memory σ) (Option Outcome)
  | .defaultOutcome => return some (outcome.getD .success)
  | .custom action => (action statement outcome).ofClient

/-- Something with a name for messages. -/
structure Named (α : Type) where
  name : String
  action : α

inductive HookAction (σ : Type) where
  | onLoop (hook : LoopHook σ)
  | onStatement (hook : StatementHook σ)
  | onOutcome (hook : OutcomeHook σ)

def HookAction.kind : HookAction σ → HookKind
  | .onLoop _ => .onLoop
  | .onStatement _ => .onStatement
  | .onOutcome _ => .onOutcome

abbrev Hook (σ : Type) := Named (HookAction σ)

/-- What a hook that fits the point does. -/
@[reducible] def HookPoint.Fitting (σ : Type) : HookPoint → Type
  | .preloop => LoopHook σ
  | .postloop => LoopHook σ
  | .postparse => StatementHook σ
  | .postexecute => OutcomeHook σ

/-- The hooks at each point, in the order of registration. -/
structure HookTable (σ : Type) where
  preloop : List (Named (LoopHook σ)) := []
  postloop : List (Named (LoopHook σ)) := []
  postparse : List (Named (StatementHook σ)) := []
  postexecute : List (Named (OutcomeHook σ)) := []

namespace HookTable

/-- Register a hook that fits its point behind those that are there. -/
def add (table : HookTable σ) : (point : HookPoint) → Named (point.Fitting σ) → HookTable σ
  | .preloop, hook => { table with preloop := table.preloop ++ [hook] }
  | .postloop, hook => { table with postloop := table.postloop ++ [hook] }
  | .postparse, hook => { table with postparse := table.postparse ++ [hook] }
  | .postexecute, hook => { table with postexecute := table.postexecute ++ [hook] }

/-- Register a hook behind those of its point. A hook of a kind that does not fit is refused. -/
def register (table : HookTable σ) (point : HookPoint) (hook : Hook σ) :
    Except ShellError (HookTable σ) :=
  match point, hook.action with
  | .preloop, .onLoop action =>
    .ok { table with preloop := table.preloop ++ [⟨hook.name, action⟩] }
  | .postloop, .onLoop action =>
    .ok { table with postloop := table.postloop ++ [⟨hook.name, action⟩] }
  | .postparse, .onStatement action =>
    .ok { table with postparse := table.postparse ++ [⟨hook.name, action⟩] }
  | .postexecute, .onOutcome action =>
    .ok { table with postexecute := table.postexecute ++ [⟨hook.name, action⟩] }
  | point, action => .error (.hookMismatch hook.name point action.kind)

/-- The names of the hooks at a point, in the order in which they run. -/
def names (table : HookTable σ) : HookPoint → List String
  | .preloop => table.preloop.map Named.name
  | .postloop => table.postloop.map Named.name
  | .postparse => table.postparse.map Named.name
  | .postexecute => table.postexecute.map Named.name

def size (table : HookTable σ) (point : HookPoint) : Nat :=
  (table.names point).length

def isEmpty (table : HookTable σ) : Bool :=
  table.preloop.isEmpty && table.postloop.isEmpty && table.postparse.isEmpty &&
    table.postexecute.isEmpty

def logTarget : String := "cmdsh::hooks"

def runLoop (point : HookPoint) : List (Named (LoopHook σ)) → Action Failure (Memory σ) Unit
  | [] => return
  | hook :: later => do
    Action.record .trace logTarget (point.name ++ " hook " ++ hook.name)
    hook.action.run
    runLoop point later

/-- Hand a statement through hooks, each taking what the one before returned. -/
def runStatement : List (Named (StatementHook σ)) → Statement → Action Failure (Memory σ) Statement
  | [], statement => return statement
  | hook :: later, statement => do
    Action.record .trace logTarget
      ("postparse hook " ++ hook.name ++ " on " ++ Text.quoted statement.raw)
    runStatement later (← hook.action.run statement)

/-- Hand a statement's outcome through hooks, each taking what the one before returned. -/
def runOutcome (statement : Statement) :
    List (Named (OutcomeHook σ)) → Option Outcome → Action Failure (Memory σ) (Option Outcome)
  | [], outcome => return outcome
  | hook :: later, outcome => do
    Action.record .trace logTarget
      ("postexecute hook " ++ hook.name ++ " on " ++ Text.quoted statement.raw)
    runOutcome statement later (← hook.action.run statement outcome)

def runPreloop (table : HookTable σ) : Action Failure (Memory σ) Unit :=
  runLoop .preloop table.preloop

def runPostloop (table : HookTable σ) : Action Failure (Memory σ) Unit :=
  runLoop .postloop table.postloop

/-- Hand a parsed statement through the hooks on statements. -/
def runPostparse (table : HookTable σ) (statement : Statement) :
    Action Failure (Memory σ) Statement :=
  runStatement table.postparse statement

/-- Hand a command's outcome through the hooks on outcomes. -/
def runPostexecute (table : HookTable σ) (statement : Statement) (outcome : Option Outcome) :
    Action Failure (Memory σ) (Option Outcome) :=
  runOutcome statement table.postexecute outcome

end HookTable

end LineShell
