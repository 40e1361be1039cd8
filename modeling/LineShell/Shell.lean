import LineShell.Command
import LineShell.Hook
import LineShell.NameTable
import LineShell.Source
import LineShell.Words
/-!
Shells: a parser, a table of commands and a table of hooks, and how a line is executed with them.
-/

namespace LineShell

/-- How a shell makes a statement of a line: by one of the word rules, or as the client does. -/
inductive Parser (σ : Type) where
  | words (rule : WordRule)
  | custom (parse : String → Action ShellError σ Statement)

def Parser.parse {σ : Type} (parser : Parser σ) (line : String) :
    Action ShellError (Memory σ) Statement :=
  match parser with
  | .words rule => MonadExcept.ofExcept (rule.parse line)
  | .custom parse => (parse line).ofClient

/-- The prompt of a shell that has been given no other. -/
def defaultPrompt : String := "cmdsh: "

/-- What a shell is made of. Running lines changes none of it. -/
structure Shell (σ : Type) where
  parser : Parser σ := .words .simple
  commands : NameTable (Command σ) := ∅
  hooks : HookTable σ := {}
  modules : NameTable Unit := ∅
  console : ConsoleId := 0
  prompt : String := defaultPrompt
  /-- How the client makes the text of a prompt, each time before a line is read. -/
  renderer : Option (String → StateT σ Program String) := none
  /-- What the client does at the end of input, told whether a person is at the other end. -/
  endOfInput : Option (Bool → Action Failure σ Outcome) := none

namespace Shell

variable {σ : Type}

def logTarget : String := "cmdsh::interpreter"

/-- Make the text of the prompt: the one that was set, or what the client makes of it. -/
def renderPrompt (shell : Shell σ) : StateT σ Program String :=
  match shell.renderer with
  | none => pure shell.prompt
  | some render => render shell.prompt

theorem renderPrompt_of_none {shell : Shell σ} (fixed : shell.renderer = none) :
    shell.renderPrompt = pure shell.prompt := by
  rw [renderPrompt, fixed]

theorem renderPrompt_of_some {shell : Shell σ} {render : String → StateT σ Program String}
    (custom : shell.renderer = some render) : shell.renderPrompt = render shell.prompt := by
  rw [renderPrompt, custom]

def write {τ : Type} (shell : Shell σ) (channel : Channel) (text : String) :
    Action ShellError τ Unit :=
  .attempt .device (Program.write shell.console channel text)

/-- Execute a line: parse it, hand the statement through the hooks on statements, run the command
that its first word is bound to, and hand the outcome through the hooks on outcomes. The first
failure is the result. -/
def execute (shell : Shell σ) (line : String) : Action ShellError (Memory σ) (Option Outcome) := do
  let parsed ← shell.parser.parse line
  let statement ← (shell.hooks.runPostparse parsed).mapError .command
  match shell.commands.find? statement.command with
  | none => throw (.commandNotFound statement)
  | some command =>
    Action.record .debug logTarget ("dispatching " ++ Text.quotedList statement.argv)
    let outcome ← (command.run statement).mapError .command
    (shell.hooks.runPostexecute statement outcome).mapError .command

end Shell

end LineShell
