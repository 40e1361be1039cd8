/-!
Splitting a line by the quoting rules of the POSIX shell: quotes and backslashes are interpreted
and removed, and a `#` where a word could begin opens a comment up to the end of its line.
-/

namespace LineShell.Words.Posix

/-- The characters that separate words. -/
def isSeparator (c : Char) : Bool :=
  c == ' ' || c == '\t' || c == '\n'

/-- The characters that a backslash inside double quotes makes literal. -/
def isEscapable (c : Char) : Bool :=
  c == '$' || c == '\x60' || c == '"' || c == '\\'

/-- Where a scan stands. The letters of the word begun so far are kept last first. -/
inductive Place where
  | between
  | inComment
  | inWord (letters : List Char)
  | afterBackslash (letters : List Char)
  | inSingle (letters : List Char)
  | inDouble (letters : List Char)
  | inDoubleAfterBackslash (letters : List Char)
  deriving DecidableEq, Repr

def Place.after (letters : List Char) (c : Char) : Place :=
  if c = '"' then .inDouble letters
  else if c = '\'' then .inSingle letters
  else if c = '\\' then .afterBackslash letters
  else .inWord (c :: letters)

/-- The words of the rest of a line, or nothing when a quote or a backslash is left open. -/
def scan : Place → List Char → Option (List String)
  | .between, [] => some []
  | .inComment, [] => some []
  | .inWord letters, [] => some [String.ofList letters.reverse]
  | .afterBackslash _, [] => none
  | .inSingle _, [] => none
  | .inDouble _, [] => none
  | .inDoubleAfterBackslash _, [] => none
  | .between, c :: rest =>
    if isSeparator c then scan .between rest
    else if c = '#' then scan .inComment rest
    else scan (.after [] c) rest
  | .inComment, c :: rest =>
    if c = '\n' then scan .between rest else scan .inComment rest
  | .inWord letters, c :: rest =>
    if isSeparator c then (scan .between rest).map (String.ofList letters.reverse :: ·)
    else scan (.after letters c) rest
  | .afterBackslash letters, c :: rest =>
    if c = '\n' then scan (.inWord letters) rest else scan (.inWord (c :: letters)) rest
  | .inSingle letters, c :: rest =>
    if c = '\'' then scan (.inWord letters) rest else scan (.inSingle (c :: letters)) rest
  | .inDouble letters, c :: rest =>
    if c = '"' then scan (.inWord letters) rest
    else if c = '\\' then scan (.inDoubleAfterBackslash letters) rest
    else scan (.inDouble (c :: letters)) rest
  | .inDoubleAfterBackslash letters, c :: rest =>
    if isEscapable c then scan (.inDouble (c :: letters)) rest
    else if c = '\n' then scan (.inDouble letters) rest
    else scan (.inDouble (c :: '\\' :: letters)) rest

/-- The words of a line, or nothing when a quote or a backslash is left open. -/
def split (line : String) : Option (List String) :=
  scan .between line.toList

end LineShell.Words.Posix
