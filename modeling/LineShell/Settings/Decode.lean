import LineShell.Settings
import LineShell.Toml.Document
import LineShell.Toml.Report
/-!
Settings from TOML. A key that is not there keeps its default, and a key that nothing asks for is
passed over.
-/

namespace LineShell

open Toml (Value Fields Key Misfit)

namespace Settings.Decode

/-- A function that makes a setting of a value, or says why it does not fit. -/
abbrev Decoder (α : Type) := Value → Except Misfit α

/-- The complaint about a value of the wrong kind. -/
def wrongKind {α : Type} (value : Value) (wanted : String) : Except Misfit α :=
  .error { span := value.span?
           reason := "invalid type: " ++ value.describe ++ ", expected " ++ wanted }

/-- A text; the wanted kind is named in complaints. -/
def text (wanted : String) : Decoder String
  | .text _ content => .ok content
  | value => wrongKind value wanted

def path : Decoder (Option String) := fun value =>
  (text "path string" value).map some

def boolean : Decoder Bool
  | .boolean _ truth => .ok truth
  | value => wrongKind value "a boolean"

def count : Decoder Nat
  | .integer span number =>
    if 0 ≤ number then .ok number.toNat
    else .error { span, reason := "invalid value: integer `" ++ toString number ++ "`, expected usize" }
  | value => wrongKind value "usize"

def wordRule (name : String) (span : Option Toml.Span) : Except Misfit WordRule :=
  if name = WordRule.simple.name then .ok .simple
  else if name = WordRule.posix.name then .ok .posix
  else .error { span, reason := "unknown variant `" ++ name ++ "`, expected `simple` or `posix`" }

/-- A word rule: its name, or a table in which its name has an empty value. -/
def parser : Decoder WordRule
  | .text span name => wordRule name span
  | .table span _ [] =>
    .error { span, reason := "wanted exactly 1 element, found 0 elements" }
  | .table _ _ [(key, value)] => do
    let rule ← wordRule key.name key.span
    match value with
    | .table _ _ [] | .array _ [] | .tables [] => .ok rule
    | .tables _ => .error { span := value.span?, reason := "expected empty array" }
    | .table .. | .array .. => .error { span := value.span?, reason := "expected empty table" }
    | .text .. => .error { span := value.span?, reason := "expected table, found string" }
    | .integer .. => .error { span := value.span?, reason := "expected table, found integer" }
    | .real .. => .error { span := value.span?, reason := "expected table, found float" }
    | .boolean .. => .error { span := value.span?, reason := "expected table, found boolean" }
    | .moment _ => .error { span := value.span?, reason := "expected table, found datetime" }
  | .table span .. => .error { span, reason := "wanted exactly 1 element, more than 1 element" }
  | value => .error { span := value.span?, reason := "wanted string or table" }

/-- A key of a table, with what its value does to the settings read so far. -/
structure Field (α : Type) where
  name : String
  set : α → Value → Except Misfit α

/-- The key of a part of the settings. -/
def field {α β : Type} (name : String) (decode : Decoder β) (put : α → β → α) : Field α where
  name
  set settings value := (decode value).map (put settings)

/-- Read the fields of a table in order. A complaint without a place is about the key. -/
def readFields {α : Type} (known : List (Field α)) (start : α) (fields : Fields) :
    Except Misfit α :=
  fields.foldlM
    (fun settings (key, value) =>
      match known.find? fun field => field.name = key.name with
      | none => .ok settings
      | some field =>
        (field.set settings value).mapError fun misfit =>
          { misfit with span := misfit.span <|> value.span? <|> some key.span })
    start

/-- Read a list that gives the values of keys in order. -/
def readItems {α : Type} (known : List (Field α)) (start : α) (items : List Value) :
    Except Misfit α :=
  (known.zip items).foldlM (fun settings (field, value) => field.set settings value) start

/-- A table with known keys, or a list of their values in order. A date counts as a table in which
no key is known. -/
def record {α : Type} (wanted : String) (known : List (Field α)) (start : α) : Decoder α
  | .table _ _ fields => readFields known start fields
  | .array _ items | .tables items => readItems known start items
  | .moment _ => .ok start
  | value => wrongKind value wanted

def historyFields : List (Field HistorySettings) :=
  [field "enabled" boolean fun settings enabled => { settings with enabled },
    field "file" path fun settings file => { settings with file },
    field "max_entries" count fun settings limit => { settings with limit }]

def loggingFields : List (Field LogSettings) :=
  [field "level" (text "a string") fun settings level => { settings with level },
    field "file" path fun settings file => { settings with file }]

def fields : List (Field Settings) :=
  [field "prompt" (text "a string") fun settings prompt => { settings with prompt },
    field "parser" parser fun settings parser => { settings with parser },
    field "history" (record "struct HistoryConfig" historyFields {})
      fun settings history => { settings with history },
    field "logging" (record "struct LoggingConfig" loggingFields {})
      fun settings logging => { settings with logging }]

end Decode

def ofFields (table : Fields) : Except Misfit Settings :=
  Decode.readFields Decode.fields {} table

/-- The settings of a TOML text. -/
def ofText (source : String) : Except SettingsError Settings :=
  match Toml.Document.ofText? source with
  | none => .error .malformed
  | some table => (ofFields table).mapError fun misfit => .misfit (misfit.report source)

def load (path : String) : Program (Except SettingsError Settings) := do
  match ← Program.load path with
  | .error error => return .error (.unreadable path error)
  | .ok bytes =>
    match Bytes.toText? bytes with
    | none => return .error (.unreadable path .invalidText)
    | some source => return ofText source

end Settings

end LineShell
