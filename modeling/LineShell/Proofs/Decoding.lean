import LineShell.Proofs.Documents
import LineShell.Settings.Decode
/-!
Settings that are read from a document, key by key. Each setting has a key of its own: what stands under
that key decides it, and where nothing stands it keeps its default. A document is refused just when a
value stands under a known key that is nothing such a key can have.
-/

namespace LineShell

open Toml (Value Fields Key Misfit)

namespace Settings

inductive IsText : Value → String → Prop where
  | text : IsText (.text span content) content

inductive IsPath : Value → Option String → Prop where
  | text : IsPath (.text span content) (some content)

inductive IsBoolean : Value → Bool → Prop where
  | boolean : IsBoolean (.boolean span truth) truth

/-- A count is a whole number that is not negative. -/
inductive IsCount : Value → Nat → Prop where
  | integer {count : Nat} : IsCount (.integer span count) count

/-- A table or a list that holds nothing. -/
inductive Hollow : Value → Prop where
  | table : Hollow (.table span origin [])
  | array : Hollow (.array span [])
  | tables : Hollow (.tables [])

/-- A word rule is given by its name, or by a table with its name as the only key and nothing in that. -/
inductive IsRule : Value → WordRule → Prop where
  | name {rule : WordRule} : IsRule (.text span rule.name) rule
  | entry {key : Key} {rule : WordRule} (named : key.name = rule.name) (hollow : Hollow value) :
      IsRule (.table span origin [(key, value)]) rule

/-- What a value holds under keys whose names are given in order: a table what stands under them, a list
its items one after the other, and a date nothing. Other values hold no keys. -/
def held? (names : List String) : Value → Option (String → Option Value)
  | .table _ _ fields => some (Fields.find? fields)
  | .array _ items | .tables items =>
    some fun name => ((names.zip items).find? fun item => item.1 = name).map (·.2)
  | .moment _ => some fun _ => none
  | _ => none

/-- A setting is what the value under its key stands for; where there is no value it is as it was. -/
inductive Kept {α : Type} (initial : α) (Denotes : Value → α → Prop) : Option Value → α → Prop where
  | absent : Kept initial Denotes none initial
  | present (denotes : Denotes value setting) : Kept initial Denotes (some value) setting

section

variable {α : Type} {initial setting : α} {Denotes : Value → α → Prop} {value : Value}

theorem kept_none_iff : Kept initial Denotes none setting ↔ setting = initial := by
  constructor
  · rintro ⟨⟩
    rfl
  · rintro rfl
    exact .absent

theorem kept_some_iff : Kept initial Denotes (some value) setting ↔ Denotes value setting := by
  constructor
  · rintro ⟨⟩
    assumption
  · exact fun denotes => .present denotes

theorem Kept.unique {first second : α} {value? : Option Value}
    (kept : Kept initial Denotes value? first) (alike : Kept initial Denotes value? second)
    (unique : ∀ value first second, Denotes value first → Denotes value second → first = second) :
    first = second := by
  cases value? with
  | none => rw [kept_none_iff.mp kept, kept_none_iff.mp alike]
  | some value => exact unique value first second (kept_some_iff.mp kept) (kept_some_iff.mp alike)

end

/-- A key of settings: its name, what values under it stand for, and the setting that it decides. -/
structure Entry (α : Type) where
  {Kind : Type}
  name : String
  Denotes : Value → Kind → Prop
  of : α → Kind

/-- Settings come from what is held under their keys, and otherwise from some that were there before. -/
def Follows {α : Type} (entries : List (Entry α)) (initial : α) (held : String → Option Value)
    (settings : α) : Prop :=
  ∀ entry ∈ entries, Kept (entry.of initial) entry.Denotes (held entry.name) (entry.of settings)

/-- Whatever is held under a key stands for some setting of that key. -/
def Fits {α : Type} (entries : List (Entry α)) (held : String → Option Value) : Prop :=
  ∀ entry ∈ entries, ∀ value, held entry.name = some value → ∃ setting, entry.Denotes value setting

theorem Follows.fits {α : Type} {entries : List (Entry α)} {initial settings : α}
    {held : String → Option Value} (follows : Follows entries initial held settings) :
    Fits entries held := by
  intro entry member value found
  have kept := follows entry member
  rw [found, kept_some_iff] at kept
  exact ⟨_, kept⟩

def historyEntries : List (Entry HistorySettings) :=
  [⟨"enabled", IsBoolean, (·.enabled)⟩, ⟨"file", IsPath, (·.file)⟩, ⟨"max_entries", IsCount, (·.limit)⟩]

def logEntries : List (Entry LogSettings) :=
  [⟨"level", IsText, (·.level)⟩, ⟨"file", IsPath, (·.file)⟩]

def plainEntries : List (Entry Settings) :=
  [⟨"prompt", IsText, (·.prompt)⟩, ⟨"parser", IsRule, (·.parser)⟩]

end Settings

namespace Settings.Decode

variable {α β : Type} {known : List (Field α)} {entry : Entry α} {entries : List (Entry α)}
  {start after : α} {given : List (Field α × Value)}

/-- Each of some fields is given a value, in turn. -/
def setAll (start : α) (given : List (Field α × Value)) : Except Misfit α :=
  given.foldlM (fun settings (field, value) => field.set settings value) start

def given? (given : List (Field α × Value)) (name : String) : Option Value :=
  (given.find? fun field => field.1.name = name).map (·.2)

/-- Among the known fields, that of an entry takes what the entry's values stand for, each for one
setting, and no other field touches the entry's setting. -/
structure Serves (known : List (Field α)) (entry : Entry α) : Prop where
  listed : entry.name ∈ known.map (·.name)
  sets : ∀ field ∈ known, field.name = entry.name → ∀ settings value after,
    field.set settings value = .ok after → entry.Denotes value (entry.of after)
  takes : ∀ field ∈ known, field.name = entry.name → ∀ settings value setting,
    entry.Denotes value setting → ∃ after, field.set settings value = .ok after
  spares : ∀ field ∈ known, field.name ≠ entry.name → ∀ settings value after,
    field.set settings value = .ok after → entry.of after = entry.of settings
  unique : ∀ value first second,
    entry.Denotes value first → entry.Denotes value second → first = second

theorem setAll_cons_ok_iff {field : Field α} {value : Value} :
    setAll start ((field, value) :: given) = .ok after ↔
      ∃ middle, field.set start value = .ok middle ∧ setAll middle given = .ok after := by
  cases set : field.set start value with
  | error misfit => simp [setAll, set, bind, Except.bind]
  | ok middle => simp [setAll, set, bind, Except.bind]

theorem given?_cons {field : Field α} {value : Value} {name : String} :
    given? ((field, value) :: given) name =
      if field.name = name then some value else given? given name := by
  by_cases same : field.name = name <;> simp [given?, same]

theorem given?_eq_none_of_not_mem {name : String} (missing : name ∉ given.map (·.1.name)) :
    given? given name = none := by
  simpa [given?] using missing

/-- An entry's setting is what its value stands for, whatever is set before and after it. -/
theorem Serves.kept (serves : Serves known entry) (fields : ∀ field ∈ given, field.1 ∈ known)
    (distinct : (given.map (·.1.name)).Nodup) (set : setAll start given = .ok after) :
    Kept (entry.of start) entry.Denotes (given? given entry.name) (entry.of after) := by
  induction given generalizing start with
  | nil =>
    obtain rfl := Except.ok.inj set
    exact .absent
  | cons first later ih =>
    obtain ⟨field, value⟩ := first
    obtain ⟨here, others⟩ := List.forall_mem_cons.mp fields
    obtain ⟨fresh, apart⟩ := List.nodup_cons.mp distinct
    obtain ⟨middle, one, rest⟩ := setAll_cons_ok_iff.mp set
    have onward := ih others apart rest
    rw [given?_cons]
    by_cases named : field.name = entry.name
    · rw [if_pos named]
      -- The names are distinct, so that nothing behind this field touches the setting again.
      rw [given?_eq_none_of_not_mem (named ▸ fresh), kept_none_iff] at onward
      rw [kept_some_iff, onward]
      exact serves.sets field here named _ _ _ one
    · rw [if_neg named, ← serves.spares field here named _ _ _ one]
      exact onward

theorem exists_setAll (takes : ∀ field ∈ given, ∀ settings, ∃ after, field.1.set settings field.2 = .ok after)
    (start : α) : ∃ after, setAll start given = .ok after := by
  induction given generalizing start with
  | nil => exact ⟨start, rfl⟩
  | cons first later ih =>
    obtain ⟨here, others⟩ := List.forall_mem_cons.mp takes
    obtain ⟨middle, one⟩ := here start
    obtain ⟨after, rest⟩ := ih others middle
    exact ⟨after, setAll_cons_ok_iff.mpr ⟨middle, one, rest⟩⟩

/-- Known fields serve a record's entries: each its own, under one name, and what the entries say makes
up the record. -/
structure Describes (known : List (Field α)) (entries : List (Entry α)) : Prop where
  serves : ∀ entry ∈ entries, Serves known entry
  names : known.map (·.name) = entries.map (·.name)
  distinct : (known.map (·.name)).Nodup
  whole : ∀ first second, (∀ entry ∈ entries, entry.of first = entry.of second) → first = second

theorem given?_of_mem {field : Field α} {value : Value} (distinct : (given.map (·.1.name)).Nodup)
    (member : (field, value) ∈ given) : given? given field.name = some value :=
  congrArg (Option.map Prod.snd) (Toml.find?_of_distinct distinct member)

/-- All fields are set if each value is one that its key can have. -/
theorem Describes.exists_setAll (describes : Describes known entries)
    (fields : ∀ field ∈ given, field.1 ∈ known) (distinct : (given.map (·.1.name)).Nodup)
    (fits : Fits entries (given? given)) (start : α) : ∃ after, setAll start given = .ok after := by
  refine Decode.exists_setAll (fun field member settings => ?_) start
  obtain ⟨field, value⟩ := field
  have here := fields _ member
  have listed : field.name ∈ entries.map (·.name) :=
    describes.names ▸ List.mem_map_of_mem here
  obtain ⟨entry, served, named⟩ := List.mem_map.mp listed
  have found := given?_of_mem distinct member
  rw [← named] at found
  obtain ⟨setting, denotes⟩ := fits entry served value found
  exact (describes.serves entry served).takes field here named.symm settings value setting denotes

/-- Setting fields in turn is to follow the values that they are given. -/
theorem Describes.setAll_iff (describes : Describes known entries)
    (fields : ∀ field ∈ given, field.1 ∈ known) (distinct : (given.map (·.1.name)).Nodup) :
    setAll start given = .ok after ↔ Follows entries start (given? given) after := by
  constructor
  · intro set entry served
    exact (describes.serves entry served).kept fields distinct set
  · intro follows
    -- Something is read, and it follows the same values as `after`, so that no setting differs.
    obtain ⟨result, set⟩ := describes.exists_setAll fields distinct follows.fits start
    have same : result = after := describes.whole result after fun entry served =>
      have serves := describes.serves entry served
      (serves.kept fields distinct set).unique (follows entry served) serves.unique
    rw [set, same]

/-- The known fields of a table, with their values. -/
def recognized (known : List (Field α)) (fields : Fields) : List (Field α × Value) :=
  fields.filterMap fun (key, value) =>
    (known.find? fun field => field.name = key.name).map fun field => (field, value)

theorem recognized_cons (key : Key) (value : Value) (fields : Fields) :
    recognized known ((key, value) :: fields) =
      ((known.find? fun field => field.name = key.name).map fun field => (field, value)).toList ++
        recognized known fields := by
  cases found : known.find? fun field => field.name = key.name <;> simp [recognized, found]

theorem readFields_ok_iff {fields : Fields} :
    readFields known start fields = .ok after ↔ setAll start (recognized known fields) = .ok after := by
  induction fields generalizing start with
  | nil => rfl
  | cons first later ih =>
    obtain ⟨key, value⟩ := first
    rw [recognized_cons]
    simp only [readFields, List.foldlM_cons] at ih ⊢
    cases found : known.find? fun field => field.name = key.name with
    | none => exact ih
    | some field =>
      simp only [Option.map_some, Option.toList_some, List.singleton_append, setAll_cons_ok_iff]
      cases field.set start value with
      | error misfit =>
        constructor
        · rintro ⟨⟩
        · rintro ⟨_, ⟨⟩, _⟩
      | ok middle =>
        constructor
        · intro read
          exact ⟨middle, rfl, ih.mp read⟩
        · rintro ⟨_, ⟨⟩, rest⟩
          exact ih.mpr rest

theorem mem_recognized {fields : Fields} {given : Field α × Value}
    (member : given ∈ recognized known fields) :
    given.1 ∈ known ∧ given.1.name ∈ Fields.names fields := by
  obtain ⟨⟨key, value⟩, here, found⟩ := List.mem_filterMap.mp member
  obtain ⟨field, first, rfl⟩ := Option.map_eq_some_iff.mp found
  have named : field.name = key.name := by simpa using List.find?_some first
  exact ⟨List.mem_of_find?_eq_some first, named ▸ List.mem_map_of_mem here⟩

theorem distinct_recognized {fields : Fields} (distinct : (Fields.names fields).Nodup) :
    ((recognized known fields).map (·.1.name)).Nodup := by
  induction fields with
  | nil => exact List.nodup_nil
  | cons first later ih =>
    obtain ⟨key, value⟩ := first
    obtain ⟨fresh, apart⟩ : key.name ∉ Fields.names later ∧ (Fields.names later).Nodup :=
      List.nodup_cons.mp distinct
    rw [recognized_cons]
    cases found : known.find? fun field => field.name = key.name with
    | none => exact ih apart
    | some field =>
      have named : field.name = key.name := by simpa using List.find?_some found
      refine List.nodup_cons.mpr ⟨fun again => ?_, ih apart⟩
      obtain ⟨other, member, same⟩ := List.mem_map.mp again
      have there := (mem_recognized member).2
      rw [same] at there
      exact fresh (named ▸ there)

theorem given?_recognized {fields : Fields} {name : String} (listed : name ∈ known.map (·.name)) :
    given? (recognized known fields) name = Fields.find? fields name := by
  induction fields with
  | nil => rfl
  | cons first later ih =>
    obtain ⟨key, value⟩ := first
    rw [recognized_cons]
    have rest : Fields.find? ((key, value) :: later) name =
        if key.name = name then some value else Fields.find? later name := by
      by_cases same : key.name = name <;> simp [Fields.find?, same]
    rw [rest]
    cases found : known.find? fun field => field.name = key.name with
    | none =>
      have other : key.name ≠ name := by
        rintro rfl
        obtain ⟨field, member, named⟩ := List.mem_map.mp listed
        simpa [named] using List.find?_eq_none.mp found field member
      rw [if_neg other]
      exact ih
    | some field =>
      have named : field.name = key.name := by simpa using List.find?_some found
      rw [Option.map_some, Option.toList_some, List.singleton_append, given?_cons, named, ih]

theorem given?_zip {items : List Value} {name : String} :
    given? (known.zip items) name =
      (((known.map (·.name)).zip items).find? fun item => item.1 = name).map (·.2) := by
  induction known generalizing items with
  | nil => rfl
  | cons field later ih =>
    cases items with
    | nil => rfl
    | cons value more =>
      rw [List.zip_cons_cons, given?_cons, ih]
      by_cases same : field.name = name <;> simp [same]

theorem distinct_zip {items : List Value} (distinct : (known.map (·.name)).Nodup) :
    ((known.zip items).map (·.1.name)).Nodup := by
  induction known generalizing items with
  | nil => exact List.nodup_nil
  | cons field later ih =>
    obtain ⟨fresh, apart⟩ := List.nodup_cons.mp distinct
    cases items with
    | nil => exact List.nodup_nil
    | cons value more =>
      refine List.nodup_cons.mpr ⟨fun again => ?_, ih apart⟩
      obtain ⟨⟨other, _⟩, member, same⟩ := List.mem_map.mp again
      exact fresh (List.mem_map.mpr ⟨other, (List.of_mem_zip member).1, same⟩)

/-- Fields are given the values that are held under their names. -/
structure Gives (known : List (Field α)) (held : String → Option Value)
    (given : List (Field α × Value)) : Prop where
  fields : ∀ field ∈ given, field.1 ∈ known
  distinct : (given.map (·.1.name)).Nodup
  same : ∀ name ∈ known.map (·.name), given? given name = held name

theorem gives_recognized {fields : Fields} (distinct : (Fields.names fields).Nodup) :
    Gives known (Fields.find? fields) (recognized known fields) :=
  ⟨fun _ member => (mem_recognized member).1, distinct_recognized distinct,
    fun _ listed => given?_recognized listed⟩

/-- A value that holds keys gives the known fields what it holds under their names. -/
theorem exists_gives {value : Value} {held : String → Option Value} (sound : value.Sound)
    (distinct : (known.map (·.name)).Nodup) (holds : held? (known.map (·.name)) value = some held) :
    ∃ given, Gives known held given ∧ ∀ wanted start after,
      record wanted known start value = .ok after ↔ setAll start given = .ok after := by
  have list : ∀ items : List Value, Gives known
      (fun name => (((known.map (·.name)).zip items).find? fun item => item.1 = name).map (·.2))
      (known.zip items) := fun items =>
    ⟨fun _ member => (List.of_mem_zip member).1, distinct_zip distinct, fun _ _ => given?_zip⟩
  unfold held? at holds
  split at holds
  · obtain rfl := Option.some.inj holds
    exact ⟨_, gives_recognized (Fields.sound_table_iff.mp sound).distinct,
      fun _ _ _ => readFields_ok_iff⟩
  · obtain rfl := Option.some.inj holds
    exact ⟨_, list _, fun _ _ _ => Iff.rfl⟩
  · obtain rfl := Option.some.inj holds
    exact ⟨_, list _, fun _ _ _ => Iff.rfl⟩
  · obtain rfl := Option.some.inj holds
    exact ⟨[], ⟨nofun, List.nodup_nil, fun _ _ => rfl⟩, fun _ _ _ => Iff.rfl⟩
  · cases holds

theorem record_ne_ok {value : Value} {names : List String} {wanted : String}
    (bare : held? names value = none) : record wanted known start value ≠ .ok after := by
  cases value with
  | text | integer | real | boolean => nofun
  | moment | array | tables | table => cases bare

variable {held : String → Option Value} {value : Value} {wanted : String}

theorem Gives.follows_iff (gives : Gives known held given) (describes : Describes known entries) :
    setAll start given = .ok after ↔ Follows entries start held after := by
  rw [describes.setAll_iff gives.fields gives.distinct]
  refine forall₂_congr fun entry served => ?_
  rw [gives.same entry.name (describes.serves entry served).listed]

theorem Gives.exists_setAll (gives : Gives known held given) (describes : Describes known entries)
    (fits : Fits entries held) (start : α) : ∃ after, setAll start given = .ok after := by
  refine describes.exists_setAll gives.fields gives.distinct (fun entry served value found => ?_) start
  rw [gives.same entry.name (describes.serves entry served).listed] at found
  exact fits entry served value found

/-- A record is read from a value that holds its keys, and follows what is held under them. -/
theorem Describes.record_iff (describes : Describes known entries) (sound : value.Sound) :
    record wanted known start value = .ok after ↔
      ∃ held, held? (entries.map (·.name)) value = some held ∧ Follows entries start held after := by
  rw [← describes.names]
  cases holds : held? (known.map (·.name)) value with
  | none => simp [record_ne_ok holds]
  | some held =>
    obtain ⟨given, gives, reads⟩ := exists_gives sound describes.distinct holds
    simp [reads, gives.follows_iff describes]

theorem Describes.exists_record (describes : Describes known entries) (sound : value.Sound)
    (holds : held? (entries.map (·.name)) value = some held) (fits : Fits entries held) :
    ∃ after, record wanted known start value = .ok after := by
  rw [← describes.names] at holds
  obtain ⟨given, gives, reads⟩ := exists_gives sound describes.distinct holds
  obtain ⟨after, set⟩ := gives.exists_setAll describes fits start
  exact ⟨after, (reads _ _ _).mpr set⟩

/-- Setting a field leaves something as it was. -/
def Spares (of : α → β) (field : Field α) : Prop :=
  ∀ settings value after, field.set settings value = .ok after → of after = of settings

theorem field_set_ok_iff {γ : Type} {name : String} {decode : Decoder γ} {put : α → γ → α} {settings : α} :
    (field name decode put).set settings value = .ok after ↔
      ∃ setting, decode value = .ok setting ∧ put settings setting = after := by
  cases decoded : decode value <;> simp [field, decoded, Except.map]

@[simp]
theorem spares_field {γ : Type} {name : String} {decode : Decoder γ} {put : α → γ → α} {of : α → β}
    (spares : ∀ settings setting, of (put settings setting) = of settings) :
    Spares of (field name decode put) := by
  intro settings value after set
  obtain ⟨setting, _, rfl⟩ := field_set_ok_iff.mp set
  exact spares settings setting

@[simp]
theorem field_name {γ : Type} {name : String} {decode : Decoder γ} {put : α → γ → α} :
    (field name decode put).name = name :=
  rfl

theorem serves_field (front : List (Field α)) {back : List (Field α)} {name : String}
    {decode : Decoder β} {put : α → β → α} {of : α → β} {Denotes : Value → β → Prop}
    (decodes : ∀ value setting, decode value = .ok setting ↔ Denotes value setting)
    (here : ∀ settings setting, of (put settings setting) = setting)
    (others : ∀ other ∈ front ++ back, other.name ≠ name ∧ Spares of other) :
    Serves (front ++ field name decode put :: back) ⟨name, Denotes, of⟩ := by
  have either : ∀ other ∈ front ++ field name decode put :: back,
      other = field name decode put ∨ other.name ≠ name ∧ Spares of other := by
    intro other member
    rcases List.mem_append.mp member with early | late
    · exact .inr (others other (List.mem_append_left _ early))
    · rcases List.mem_cons.mp late with same | behind
      · exact .inl same
      · exact .inr (others other (List.mem_append_right _ behind))
  refine ⟨?_, ?_, ?_, ?_, ?_⟩
  · exact List.mem_map.mpr ⟨_, List.mem_append_right _ List.mem_cons_self, rfl⟩
  · intro other member named settings value after set
    rcases either other member with rfl | ⟨apart, _⟩
    · obtain ⟨setting, decoded, rfl⟩ := field_set_ok_iff.mp set
      have denotes := (decodes value setting).mp decoded
      rw [← here settings setting] at denotes
      exact denotes
    · exact absurd named apart
  · intro other member named settings value setting denotes
    rcases either other member with rfl | ⟨apart, _⟩
    · exact ⟨_, field_set_ok_iff.mpr ⟨setting, (decodes value setting).mpr denotes, rfl⟩⟩
    · exact absurd named apart
  · intro other member unnamed
    rcases either other member with rfl | ⟨_, spares⟩
    · exact absurd rfl unnamed
    · exact spares
  · intro value first second denotes other
    have read := (decodes value first).mpr denotes
    rw [(decodes value second).mpr other] at read
    exact (Except.ok.inj read).symm

theorem text_ok_iff {content : String} : text wanted value = .ok content ↔ IsText value content := by
  constructor
  · intro read
    cases value with
    | text => exact Except.ok.inj read ▸ .text
    | _ => cases read
  · rintro ⟨⟩
    rfl

theorem path_ok_iff {file : Option String} : path value = .ok file ↔ IsPath value file := by
  constructor
  · intro read
    cases value with
    | text => exact Except.ok.inj read ▸ .text
    | _ => cases read
  · rintro ⟨⟩
    rfl

theorem boolean_ok_iff {truth : Bool} : boolean value = .ok truth ↔ IsBoolean value truth := by
  constructor
  · intro read
    cases value with
    | boolean => exact Except.ok.inj read ▸ .boolean
    | _ => cases read
  · rintro ⟨⟩
    rfl

theorem count_ok_iff {limit : Nat} : count value = .ok limit ↔ IsCount value limit := by
  constructor
  · intro read
    cases value with
    | integer span number =>
      rw [count] at read
      split at read
      · rename_i natural
        obtain rfl := Except.ok.inj read
        have same : (number.toNat : Int) = number := Int.toNat_of_nonneg natural
        rw [← same]
        exact .integer
      · cases read
    | _ => cases read
  · rintro ⟨⟩
    simp [count]

theorem wordRule_ok_iff {name : String} {span : Option Toml.Span} {rule : WordRule} :
    wordRule name span = .ok rule ↔ name = rule.name := by
  have apart : WordRule.simple.name ≠ WordRule.posix.name := by decide
  unfold wordRule
  cases rule <;> grind

theorem parser_ok_iff {rule : WordRule} : parser value = .ok rule ↔ IsRule value rule := by
  constructor
  · intro read
    unfold parser at read
    split at read
    · obtain rfl := wordRule_ok_iff.mp read
      exact .name
    · cases read
    · rename_i key inner
      cases named : wordRule key.name key.span with
      | error misfit => rw [named] at read; cases read
      | ok found =>
        rw [named] at read
        simp only [bind, Except.bind] at read
        split at read
        all_goals cases read
        · exact .entry (wordRule_ok_iff.mp named) .table
        · exact .entry (wordRule_ok_iff.mp named) .array
        · exact .entry (wordRule_ok_iff.mp named) .tables
    · cases read
    · cases read
  · intro is
    cases is with
    | name => exact wordRule_ok_iff.mpr rfl
    | @entry _ _ _ key _ named hollow =>
      have known : wordRule key.name key.span = .ok rule := wordRule_ok_iff.mpr named
      cases hollow <;> simp [parser, known, bind, Except.bind]

end Settings.Decode

end LineShell
