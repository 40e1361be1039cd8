import LineShell.Toml.Value
/-!
Building tables: keys with dots lead into tables within tables, which are made on the way. A table
is written only once, and what one way of writing made is closed to the others.
-/

namespace LineShell.Toml.Fields

def replace (fields : Fields) (name : String) (value : Value) : Fields :=
  fields.map fun field => if field.1.name = name then (field.1, value) else field

/-- Add a key behind the others. -/
def add (fields : Fields) (key : Key) (value : Value) : Fields :=
  fields ++ [(key, value)]

/-- Put a value under a key that is reached by others, each one leading into a table that dotted
keys made. -/
def insert (fields : Fields) : List Key → Key → Value → Option Fields
  | [], last, value =>
    match fields.find? last.name with
    | some _ => none
    | none => some (fields.add last value)
  | key :: path, last, value =>
    match fields.find? key.name with
    | none => do
      let inner ← insert [] path last value
      return fields.add key (.table none .dotted inner)
    | some (.table span origin inner) =>
      if origin = .header ∨ origin = .braces ∨ (path = [] ∧ origin ≠ .dotted) then none
      else do
        let inner ← insert inner path last value
        return fields.replace key.name (.table span origin inner)
    | some (.tables items) =>
      match items.getLast? with
      | some (.table span origin inner) =>
        if path = [] then none
        else do
          let inner ← insert inner path last value
          return fields.replace key.name (.tables (items.dropLast ++ [.table span origin inner]))
      | _ => none
    | some _ => none

/-- Work on the table that a path leads to, making tables on the way. In a list of tables the way
leads into the last one. -/
def within {α : Type} (work : Fields → Option (α × Fields)) : List Key → Fields → Option (α × Fields)
  | [], fields => work fields
  | key :: path, fields =>
    match fields.find? key.name with
    | none => do
      let (found, inner) ← within work path []
      return (found, fields.add key (.table none .implied inner))
    | some (.table span origin inner) =>
      if origin = .braces then none
      else do
        let (found, inner) ← within work path inner
        return (found, fields.replace key.name (.table span origin inner))
    | some (.tables items) =>
      match items.getLast? with
      | some (.table span origin inner) => do
        let (found, inner) ← within work path inner
        return (found,
          fields.replace key.name (.tables (items.dropLast ++ [.table span origin inner])))
      | _ => none
    | some _ => none

/-- Begin a table: take what paths below it have put there, if nothing wrote it yet. -/
def beginTable (key : Key) (fields : Fields) : Option (Fields × Fields) :=
  match fields.find? key.name with
  | none => some ([], fields)
  | some (.table _ .implied inner) => some (inner, fields.filter fun field => field.1.name ≠ key.name)
  | some _ => none

/-- End a table that was begun. -/
def endTable (key : Key) (table : Value) (fields : Fields) : Option (Unit × Fields) :=
  match fields.find? key.name with
  | none => some ((), fields.add key table)
  | some _ => none

/-- Begin one more table of a list. -/
def beginItem (key : Key) (fields : Fields) : Option (Unit × Fields) :=
  match fields.find? key.name with
  | none => some ((), fields.add key (.tables []))
  | some (.tables _) => some ((), fields)
  | some _ => none

/-- End one more table of a list. -/
def endItem (key : Key) (table : Value) (fields : Fields) : Option (Unit × Fields) :=
  match fields.find? key.name with
  | some (.tables items) => some ((), fields.replace key.name (.tables (items ++ [table])))
  | _ => none

end LineShell.Toml.Fields
