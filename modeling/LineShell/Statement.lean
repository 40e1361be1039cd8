/-!
Statements and outcomes: a line of input together with the words it was split into, and what running a
command on them leaves for the loop and for the caller of the shell.
-/

namespace LineShell

/-- A line as it was typed and its words, the command's name first. -/
structure Statement where
  raw : String
  argv : List String
  deriving DecidableEq, Repr

namespace Statement

/-- The first word, or the empty name when there is none. -/
def command (statement : Statement) : String :=
  statement.argv.headD ""

def arguments (statement : Statement) : List String :=
  statement.argv.tail

def withArgv (statement : Statement) (argv : List String) : Statement :=
  { statement with argv }

@[simp] theorem raw_withArgv (statement : Statement) (argv : List String) :
    (statement.withArgv argv).raw = statement.raw := rfl

@[simp] theorem argv_withArgv (statement : Statement) (argv : List String) :
    (statement.withArgv argv).argv = argv := rfl

/-- A statement is shown as the line it came from. -/
instance : ToString Statement := ⟨raw⟩

end Statement

/-- A command's exit code, and whether it asks the loop to end. -/
structure Outcome where
  exitCode : Int32 := 0
  stop : Bool := false
  deriving DecidableEq, Repr, Inhabited

namespace Outcome

/-- Exit code zero, and the loop goes on. -/
def success : Outcome := { exitCode := 0, stop := false }

/-- Exit code zero, and the loop ends. -/
def stopped : Outcome := { exitCode := 0, stop := true }

/-- The given exit code, and the loop goes on. -/
def exit (code : Int32) : Outcome := { exitCode := code, stop := false }

/-- The given exit code, and the loop ends. -/
def stopWith (code : Int32) : Outcome := { exitCode := code, stop := true }

end Outcome

end LineShell
