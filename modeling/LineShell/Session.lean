import LineShell.Shell
/-!
Sessions: a shell with the input and the memory that running it changes, and the loop that takes
lines until one of them ends it.
-/

namespace LineShell

/-- Where lines come from: a queue, and a source for when the queue is empty. -/
structure Input (σ : Type) where
  queue : List String := []
  source : Source σ := .empty

/-- Whether the loop has not run yet, or has ended. -/
inductive Phase where
  | notStarted
  | stopped
  deriving DecidableEq, Repr

/-- What the loop changes while it runs. -/
structure LoopState (σ : Type) where
  input : Input σ
  memory : Memory σ

/-- How a run of the loop ends: with an outcome that asks for it, with an error, or not within the
number of turns it was given. -/
inductive Ending where
  | stopped (outcome : Outcome)
  | failed (error : ShellError)
  | unfinished

variable {ε σ α : Type}

def Action.ofMemory (action : Action ε (Memory σ) α) : Action ε (LoopState σ) α :=
  action.onPart LoopState.memory fun state memory => { state with memory }

namespace Shell

/-- Take the next line: the first of the queue, or else one from the source, which is given the prompt
whether it shows it or not. -/
def nextLine (shell : Shell σ) : Action ShellError (LoopState σ) (Option String) :=
  .ofFun fun state => do
    match state.input.queue with
    | line :: queue => return (.ok (some line), { state with input := { state.input with queue } })
    | [] =>
      let (prompt, client) ← shell.renderPrompt.run state.memory.client
      let (line, source, client) ← state.input.source.read prompt shell.console client
      return (line, { state with
        input := { state.input with source }
        memory := { state.memory with client } })

/-- What the end of input comes to. Unless the client decides, a person may go on and is given a
fresh line; any other source is at its end for good. -/
def atEndOfInput (shell : Shell σ) : Action ShellError (LoopState σ) Outcome := do
  let interactive ← Action.ofMemory (Action.ofClient (.ofTotal (← get).input.source.isInteractive))
  Action.record .debug logTarget
    ("end of input (interactive: " ++ toString interactive ++ ")")
  match shell.endOfInput with
  | some handle => ((handle interactive).mapError .command).ofClient.ofMemory
  | none =>
    if interactive then
      shell.write .out "\n"
      return .success
    else return .stopped

/-- Report a statement that no command was found for. -/
def reportNotFound (shell : Shell σ) (statement : Statement) :
    Action ShellError (LoopState σ) Unit := do
  Action.record .warn logTarget ("command not found: " ++ Text.quoted statement.command)
  shell.write .err (statement.command ++ ": command not found\n")

/-- Execute a line in the loop. A blank line does nothing; a command that is not found is reported
and is no error. -/
def executeInLoop (shell : Shell σ) (line : String) :
    Action ShellError (LoopState σ) (Option Outcome) := do
  if Text.isBlankLine line then return none
  match ← Action.ofMemory (Action.result (shell.execute line)) with
  | .ok outcome => return outcome
  | .error (.commandNotFound statement) =>
    shell.reportNotFound statement
    return none
  | .error error => throw error

/-- One turn of the loop: take a line and execute it, or meet the end of input. -/
def turn (shell : Shell σ) : Action ShellError (LoopState σ) (Option Outcome) := do
  match ← shell.nextLine with
  | some line => shell.executeInLoop line
  | none => some <$> shell.atEndOfInput

/-- Take turns, at most as many as given, up to the first outcome that asks to stop or the first
error. That outcome is the last there was, so none before it is kept. -/
def takeTurns (shell : Shell σ) : Nat → LoopState σ → Program (Ending × LoopState σ)
  | 0, state => return (.unfinished, state)
  | turns + 1, state => do
    match ← shell.turn.runFrom state with
    | (.error error, after) => return (.failed error, after)
    | (.ok none, after) => shell.takeTurns turns after
    | (.ok (some outcome), after) =>
      if outcome.stop then return (.stopped outcome, after) else shell.takeTurns turns after

/-- Run the loop: the hooks before it, then turns, and, when an outcome has asked to stop, the
hooks after it. -/
def runLoop (shell : Shell σ) (turns : Nat) (state : LoopState σ) :
    Program (Ending × LoopState σ) := do
  match ← shell.hooks.runPreloop.ofMemory.runFrom state with
  | (.error failure, after) => return (.failed (.command failure), after)
  | (.ok (), state) =>
    match ← shell.takeTurns turns state with
    | (.stopped outcome, state) =>
      match ← shell.hooks.runPostloop.ofMemory.runFrom state with
      | (.error failure, after) => return (.failed (.command failure), after)
      | (.ok (), after) => return (.stopped outcome, after)
    | ended => return ended

end Shell

/-- A shell with its input, its memory and where it is in its life. -/
structure Session (σ : Type) where
  shell : Shell σ := {}
  input : Input σ := {}
  memory : Memory σ
  phase : Phase := .notStarted

namespace Session

def execute (session : Session σ) (line : String) :
    Program (Except ShellError (Option Outcome) × Session σ) := do
  let (result, memory) ← (session.shell.execute line).runFrom session.memory
  return (result, { session with memory })

/-- Run the loop for at most a number of turns. -/
def run (session : Session σ) (turns : Nat) : Program (Ending × Session σ) := do
  let (ending, state) ← session.shell.runLoop turns ⟨session.input, session.memory⟩
  return (ending, { session with input := state.input, memory := state.memory, phase := .stopped })

end Session

end LineShell
