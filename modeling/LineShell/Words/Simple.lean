import LineShell.Text.Blank
/-!
Splitting a line at blanks. A run between two equal quote characters stays in its word, and the
quotes stay too.
-/

namespace LineShell.Words.Simple

open Text (isBlank)

/-- The two characters that open a quoted run. -/
def isQuote (c : Char) : Bool :=
  c == '"' || c == '\''

/-- Where a scan stands. The letters of the word begun so far are kept last first. -/
inductive Place where
  | between
  | inWord (letters : List Char)
  | inQuote (quote : Char) (letters : List Char)
  deriving DecidableEq, Repr

/-- The place after a letter that is part of a word but not of a quoted run. -/
def Place.after (letters : List Char) (c : Char) : Place :=
  if isQuote c then .inQuote c (c :: letters) else .inWord (c :: letters)

/-- The words of the rest of a line, or the quote character that was never closed. -/
def scan : Place → List Char → Except Char (List String)
  | .between, [] => .ok []
  | .inWord letters, [] => .ok [String.ofList letters.reverse]
  | .inQuote quote _, [] => .error quote
  | .between, c :: rest =>
    if isBlank c then scan .between rest else scan (.after [] c) rest
  | .inWord letters, c :: rest =>
    if isBlank c then (scan .between rest).map (String.ofList letters.reverse :: ·)
    else scan (.after letters c) rest
  | .inQuote quote letters, c :: rest =>
    if c = quote then scan (.inWord (c :: letters)) rest
    else scan (.inQuote quote (c :: letters)) rest

/-- The words of a line, or the quote character that was never closed. -/
def split (line : String) : Except Char (List String) :=
  scan .between line.toList

end LineShell.Words.Simple
