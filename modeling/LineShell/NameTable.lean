/-!
Tables from names to values, in increasing order of the names.
-/

namespace LineShell

/-- Entries in increasing order of their names, so no name occurs twice. -/
structure NameTable (α : Type) where
  entries : List (String × α) := []
  increasing : entries.Pairwise (·.1 < ·.1) := by exact List.Pairwise.nil

namespace NameTable

variable {α : Type}

instance : EmptyCollection (NameTable α) := ⟨{}⟩

/-- The value of a name. -/
def find? (table : NameTable α) (name : String) : Option α :=
  table.entries.lookup name

def contains (table : NameTable α) (name : String) : Bool :=
  (table.find? name).isSome

/-- The names, in increasing order. -/
def names (table : NameTable α) : List String :=
  table.entries.map Prod.fst

/-- Put an entry in its place among ordered entries, instead of one of the same name. -/
def place (name : String) (value : α) : List (String × α) → List (String × α)
  | [] => [(name, value)]
  | entry :: rest =>
    if name < entry.1 then (name, value) :: entry :: rest
    else if name = entry.1 then (name, value) :: rest
    else entry :: place name value rest

theorem mem_place {name : String} {value : α} {entry : String × α}
    {entries : List (String × α)} (member : entry ∈ place name value entries) :
    entry = (name, value) ∨ entry ∈ entries := by
  induction entries with
  | nil => simpa [place] using member
  | cons first rest ih =>
    unfold place at member
    split at member
    · simpa using member
    · split at member
      · rcases List.mem_cons.mp member with same | old
        · exact .inl same
        · exact .inr (List.mem_cons_of_mem _ old)
      · rcases List.mem_cons.mp member with same | later
        · exact .inr (same ▸ List.mem_cons_self)
        · exact (ih later).imp_right (List.mem_cons_of_mem _)

theorem pairwise_place {name : String} {value : α} {entries : List (String × α)}
    (increasing : entries.Pairwise (·.1 < ·.1)) :
    (place name value entries).Pairwise (·.1 < ·.1) := by
  induction entries with
  | nil => simp [place]
  | cons first rest ih =>
    have later := List.pairwise_cons.mp increasing
    unfold place
    split
    · rename_i less
      refine List.pairwise_cons.mpr ⟨fun entry member => ?_, increasing⟩
      rcases List.mem_cons.mp member with same | old
      · exact same ▸ less
      · exact String.lt_trans less (later.1 entry old)
    · split
      · rename_i same
        exact List.pairwise_cons.mpr ⟨fun entry member => same ▸ later.1 entry member, later.2⟩
      · rename_i notLess notSame
        refine List.pairwise_cons.mpr ⟨fun entry member => ?_, ih later.2⟩
        rcases mem_place member with same | old
        · subst same
          exact Std.lt_of_le_of_ne (String.not_lt.mp notLess) (Ne.symm notSame)
        · exact later.1 entry old

/-- Give a name a value, instead of the one it had. -/
def insert (table : NameTable α) (name : String) (value : α) : NameTable α where
  entries := place name value table.entries
  increasing := pairwise_place table.increasing

def erase (table : NameTable α) (name : String) : NameTable α where
  entries := table.entries.filter (·.1 ≠ name)
  increasing := table.increasing.filter _

private theorem lookup_entry (other : String) (entry : String × α) (entries : List (String × α)) :
    (entry :: entries).lookup other =
      if other = entry.1 then some entry.2 else entries.lookup other := by
  obtain ⟨name, value⟩ := entry
  by_cases same : other = name
  · simp [same]
  · simp [List.lookup_cons, same, beq_false_of_ne same]

theorem lookup_place (name other : String) (value : α) (entries : List (String × α)) :
    (place name value entries).lookup other =
      if other = name then some value else entries.lookup other := by
  induction entries with
  | nil => simp [place, lookup_entry]
  | cons first rest ih =>
    unfold place
    split
    · exact lookup_entry other (name, value) (first :: rest)
    · split
      · rename_i same
        by_cases here : other = name <;> simp [lookup_entry, here, ← same]
      · rename_i notSame
        rw [lookup_entry, ih, lookup_entry]
        grind

theorem lookup_erased (name other : String) (entries : List (String × α)) :
    (entries.filter (·.1 ≠ name)).lookup other =
      if other = name then none else entries.lookup other := by
  induction entries with
  | nil => simp
  | cons first rest ih =>
    rw [List.filter_cons, lookup_entry]
    split
    · rename_i kept
      rw [lookup_entry, ih]
      grind
    · rename_i dropped
      rw [ih]
      grind

/-- Giving a name a value changes what is found for that name only. -/
theorem find?_insert (table : NameTable α) (name other : String) (value : α) :
    (table.insert name value).find? other =
      if other = name then some value else table.find? other :=
  lookup_place name other value table.entries

theorem find?_erase (table : NameTable α) (name other : String) :
    (table.erase name).find? other = if other = name then none else table.find? other :=
  lookup_erased name other table.entries

end NameTable

end LineShell
