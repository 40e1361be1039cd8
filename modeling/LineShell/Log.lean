/-!
Log records: their levels and where a session's records go.
-/

namespace LineShell.Log

/-- How much a record matters, the gravest first. -/
inductive Level where
  | error
  | warn
  | info
  | debug
  | trace
  deriving DecidableEq, Repr

def Level.name : Level → String
  | error => "ERROR"
  | warn => "WARN"
  | info => "INFO"
  | debug => "DEBUG"
  | trace => "TRACE"

/-- The position among the levels, the gravest lowest. -/
def Level.rank : Level → Nat
  | error => 1
  | warn => 2
  | info => 3
  | debug => 4
  | trace => 5

/-- The least grave level that is still recorded; nothing is recorded when there is none. -/
abbrev Threshold := Option Level

def Threshold.name (threshold : Threshold) : String :=
  threshold.elim "OFF" Level.name

/-- Whether records of a level are kept. -/
def Threshold.admits (threshold : Threshold) (level : Level) : Bool :=
  threshold.any fun least => level.rank ≤ least.rank

/-- The thresholds by their names in small letters. -/
def Threshold.table : List (String × Threshold) :=
  [("off", none), ("error", some .error), ("warn", some .warn), ("info", some .info),
    ("debug", some .debug), ("trace", some .trace)]

/-- The threshold of a name, whose ASCII letters may be of either case. -/
def Threshold.ofName? (name : String) : Option Threshold :=
  Threshold.table.lookup (name.map Char.toLower)

structure Record where
  level : Level
  target : String
  text : String
  deriving DecidableEq, Repr

/-- A record as a line of a log. Records of detail also name the part they come from. -/
def Record.line (record : Record) : String :=
  match record.level with
  | .debug | .trace =>
    "[" ++ record.level.name ++ "] (1) " ++ record.target ++ ": " ++ record.text ++ "\n"
  | _ => "[" ++ record.level.name ++ "] " ++ record.text ++ "\n"

end LineShell.Log
