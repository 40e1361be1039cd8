import LineShell.Decimal.Binary64
import LineShell.Text.Quoted
/-!
TOML values, each with the stretch of the source it was written at.
-/

namespace LineShell.Toml

/-- A stretch of a source, in bytes from its start. -/
structure Span where
  first : Nat
  past : Nat
  deriving DecidableEq, Repr

/-- A key and where it was written. -/
structure Key where
  name : String
  span : Span
  deriving DecidableEq, Repr

/-- A floating point number. -/
inductive Real where
  | finite (negative : Bool) (number : Decimal.Binary64)
  | infinite (negative : Bool)
  | undefined
  deriving DecidableEq, Repr

def Real.text : Real → String
  | finite negative number => (if negative then "-" else "") ++ number.text
  | infinite negative => if negative then "-inf" else "inf"
  | undefined => "NaN"

/-- What made a table: a header, braces, a header of a table within it, or a dotted key. -/
inductive Origin where
  | header
  | braces
  | implied
  | dotted
  deriving DecidableEq, Repr

/-- A value. Tables that nothing wrote, and lists of them, have no place of their own. -/
inductive Value where
  | text (span : Span) (content : String)
  | integer (span : Span) (number : Int)
  | real (span : Span) (number : Real)
  | boolean (span : Span) (truth : Bool)
  /-- A date, a time, or both. -/
  | moment (span : Span)
  | array (span : Span) (items : List Value)
  /-- The tables of one header in double brackets. -/
  | tables (items : List Value)
  | table (span : Option Span) (origin : Origin) (fields : List (Key × Value))

/-- The keys of a table and their values, in order. -/
abbrev Fields := List (Key × Value)

/-- From the start of one stretch to the end of another. -/
def Span.to (first last : Span) : Span :=
  ⟨first.first, last.past⟩

/-- Where a value was written, if it has a place of its own. -/
def Value.span? : Value → Option Span
  | text span _ | integer span _ | real span _ | boolean span _ | moment span | array span _ =>
    some span
  | tables items =>
    match items.head?, items.getLast? with
    | some (table (some first) _ _), some (table (some last) _ _) => some (first.to last)
    | _, _ => none
  | table span _ _ => span

/-- A value as messages name it. -/
def Value.describe : Value → String
  | text _ content => "string " ++ Text.quoted content
  | integer _ number => "integer `" ++ toString number ++ "`"
  | real _ number => "floating point `" ++ number.text ++ "`"
  | boolean _ truth => "boolean `" ++ toString truth ++ "`"
  | moment _ => "map"
  | array .. | tables _ => "sequence"
  | table .. => "map"

def Fields.find? (fields : Fields) (name : String) : Option Value :=
  (List.find? (fun field => field.1.name = name) fields).map Prod.snd

end LineShell.Toml
