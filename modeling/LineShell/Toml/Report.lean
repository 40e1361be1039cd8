import LineShell.Toml.Value
/-!
Reports on what is wrong at a place of a TOML source: the line with the place marked, and the
reason.
-/

namespace LineShell.Toml

/-- What is wrong with a value, and where it is if that is known yet. -/
structure Misfit where
  span : Option Span
  reason : String
  deriving DecidableEq, Repr

/-- Split characters at a number of bytes. -/
def splitAtByte : List Char → Nat → List Char × List Char
  | [], _ => ([], [])
  | c :: rest, offset =>
    if offset = 0 then ([], c :: rest)
    else
      let split := splitAtByte rest (offset - c.utf8Size)
      (c :: split.1, split.2)

/-- The report on a stretch of a source. Each byte of the stretch is marked, but no more than its
line has bytes, less one for each character before the stretch. -/
def report (source : String) (span : Span) (reason : String) : String :=
  let (before, after) := splitAtByte source.toList span.first
  let lineStart := (before.reverse.takeWhile (· ≠ '\n')).reverse
  let line := String.ofList (lineStart ++ after.takeWhile (· ≠ '\n'))
  let number := toString (before.count '\n' + 1)
  let blank := fun count => String.ofList (List.replicate count ' ')
  let marks := max 1 (min (span.past - span.first) (line.utf8ByteSize - lineStart.length))
  "TOML parse error at line " ++ number ++ ", column " ++ toString (lineStart.length + 1) ++ "\n" ++
    blank (number.length + 1) ++ "|\n" ++
    number ++ " | " ++ line ++ "\n" ++
    blank (number.length + 1) ++ "|" ++ blank (lineStart.length + 1) ++
    String.ofList (List.replicate marks '^') ++ "\n" ++
    reason ++ "\n"

/-- The report on a misfit; without a place there is only the reason. -/
def Misfit.report (misfit : Misfit) (source : String) : String :=
  match misfit.span with
  | some span => Toml.report source span misfit.reason
  | none => misfit.reason ++ "\n"

end LineShell.Toml
