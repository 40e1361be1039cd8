import LineShell.Toml.Fields
import LineShell.Toml.Number
/-!
TOML documents: lines with a key and a value, under headers that name tables.
-/

namespace LineShell.Toml

namespace Reader

/-- How deep values can be nested, and how many parts a key can have. -/
def maxDepth : Nat := 80

/-- Whether a character can stand in a key without quotes. -/
def isKeyPart (c : Char) : Bool :=
  c.isAlphanum || c == '-' || c == '_'

def keyPart : Reader Key := do
  let (name, first, past) ← located do
    match (← rest).head? with
    | some '"' => lineText '"'
    | some '\'' => lineText '\''
    | _ =>
      let name ← takeWhile isKeyPart
      require !name.isEmpty
      return String.ofList name
  return { name, span := ⟨first, past⟩ }

/-- Take a key, whose parts are separated by dots: the parts before the last, and the last. -/
def key : Reader (List Key × Key) := do
  spaces
  let first ← keyPart
  spaces
  let more ← many do
    match ← char? (· == '.') with
    | none => return none
    | some _ =>
      spaces
      let part ← keyPart
      spaces
      return some part
  require ((first :: more).length < maxDepth)
  match more.getLast? with
  | none => return ([], first)
  | some last => return (first :: more.dropLast, last)

/-- Take a key, an equals sign and a value. -/
def pair (value : Reader Value) : Reader ((List Key × Key) × Value) := do
  let path ← key
  expect '='
  spaces
  return (path, ← value)

/-- Take the items of an array after its opening bracket, and its closing bracket. -/
def arrayItems (value : Reader Value) : Reader (List Value) := do
  gap
  let items ← many do
    if (← rest).head? = some ']' then return none
    let item ← value
    gap
    if (← char? (· == ',')).isNone then require ((← rest).head? = some ']')
    gap
    return some item
  expect ']'
  return items

/-- Take the pairs of a table in braces after its opening brace, and its closing brace. -/
def braceFields (value : Reader Value) : Reader Fields := do
  spaces
  if (← char? (· == '\x7d')).isSome then return []
  let first ← pair value
  spaces
  let more ← many do
    match ← char? (· == ',') with
    | none => return none
    | some _ =>
      let next ← pair value
      spaces
      return some next
  expect '\x7d'
  (first :: more).foldlM (fun fields ((path, last), item) => fields.insert path last item) []

def leaf : Reader Value := do
  let quoted := fun quote => do
    let (content, first, past) ← located (quotedText quote)
    return Value.text ⟨first, past⟩ content
  let before := (← get).offset
  match (← rest).head? with
  | some '"' => quoted '"'
  | some '\'' => quoted '\''
  | _ =>
    if ← text? "true" then return .boolean ⟨before, (← get).offset⟩ true
    if ← text? "false" then return .boolean ⟨before, (← get).offset⟩ false
    Number.value

/-- Take a value, whose own values are taken with a given reader. -/
def valueWith (inner : Reader Value) : Reader Value := do
  let before := (← get).offset
  match (← rest).head? with
  | some '[' =>
    expect '['
    let items ← arrayItems inner
    return .array ⟨before, (← get).offset⟩ items
  | some '\x7b' =>
    expect '\x7b'
    let fields ← braceFields inner
    return .table (some ⟨before, (← get).offset⟩) .braces fields
  | _ => leaf

/-- Take a value with values nested in it, at most as deep as given. -/
def value : Nat → Reader Value
  | 0 => leaf
  | depth + 1 => valueWith (value depth)

end Reader

/-- A line that says something. -/
inductive Line where
  /-- Names the table that the next lines belong to; in double brackets, one more of a list. -/
  | header (listed : Bool) (path : List Key) (last : Key) (span : Span)
  | pair (path : List Key) (last : Key) (value : Value)

namespace Reader

def header : Reader Line := do
  let ((listed, path, last), first, past) ← located do
    if ← text? "[[" then
      let (path, last) ← key
      require (← text? "]]")
      return (true, path, last)
    else
      expect '['
      let (path, last) ← key
      expect ']'
      return (false, path, last)
  return .header listed path last ⟨first, past⟩

/-- Take a line, which may say nothing, unless the source is at its end. -/
def line? : Reader (Option (Option Line)) := do
  spaces
  match (← rest).head? with
  | none => return none
  | some '\n' | some '\r' | some '#' =>
    endOfLine
    return some none
  | some '[' =>
    let found ← header
    endOfLine
    return some (some found)
  | some _ =>
    let ((path, last), found) ← pair (value (maxDepth - 1))
    endOfLine
    return some (some (.pair path last found))

/-- Take all lines of a source. -/
def lines : Reader (List Line) := do
  discard <| text? "\ufeff"
  return (← many line?).filterMap id

end Reader

namespace Document

/-- The table that lines belong to at some point: the header it has, where it was written, and its
fields. -/
structure Section where
  header : Option (Bool × List Key × Key) := none
  span : Option Span := none
  fields : Fields := []

/-- Put a table that is complete in its place. -/
def Section.close (current : Section) (root : Fields) : Option Fields :=
  let table := Value.table current.span .header current.fields
  match current.header with
  | none => some current.fields
  | some (false, path, last) => (Fields.within (Fields.endTable last table) path root).map (·.2)
  | some (true, path, last) => (Fields.within (Fields.endItem last table) path root).map (·.2)

/-- Go on with the next line. A table's place reaches from its header to its last value. -/
def step : Fields × Section → Line → Option (Fields × Section)
  | (root, current), .pair path last value => do
    let fields ← current.fields.insert path last value
    let span := current.span.map fun span => span.to (value.span?.getD span)
    return (root, { current with fields, span })
  | (root, current), .header listed path last span => do
    let root ← current.close root
    if listed then
      let ((), root) ← Fields.within (Fields.beginItem last) path root
      return (root, { header := some (true, path, last), span := some span })
    else
      let (fields, root) ← Fields.within (Fields.beginTable last) path root
      return (root, { header := some (false, path, last), span := some span, fields })

/-- The table that lines describe, if they are consistent. -/
def ofLines? (lines : List Line) : Option Fields := do
  let (root, current) ← lines.foldlM step ([], {})
  current.close root

/-- The table that a text describes, if it is a TOML document. -/
def ofText? (text : String) : Option Fields := do
  let (lines, _) ← Reader.lines.run { rest := text.toList }
  ofLines? lines

end Document

end LineShell.Toml
