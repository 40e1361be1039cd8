import LineShell.Failure
import LineShell.Words.Posix
import LineShell.Words.Simple
/-!
The rules by which lines are split into words.
-/

namespace LineShell

/-- How a line is split: at blanks with quotes kept, or as the POSIX shell does it. -/
inductive WordRule where
  | simple
  | posix
  deriving DecidableEq, Repr

namespace WordRule

def name : WordRule → String
  | simple => "simple"
  | posix => "posix"

def parse (rule : WordRule) (line : String) : Except ShellError Statement :=
  match rule with
  | simple =>
    match Words.Simple.split line with
    | .ok argv => .ok { raw := line, argv }
    | .error quote =>
      .error (.parse ("no closing quotation (" ++ quote.toString ++ ") in: " ++ line))
  | posix =>
    match Words.Posix.split line with
    | some argv => .ok { raw := line, argv }
    | none => .error (.parse ("unbalanced quoting in: " ++ line))

theorem raw_of_parse {rule : WordRule} {line : String} {statement : Statement}
    (parsed : rule.parse line = .ok statement) : statement.raw = line := by
  cases rule <;> simp only [parse] at parsed <;> split at parsed <;> cases parsed <;> rfl

end WordRule

end LineShell
