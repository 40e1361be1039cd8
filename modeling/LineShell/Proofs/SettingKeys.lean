import Mathlib
import LineShell.Proofs.Decoding
/-!
Settings and the keys of a document. Some keys stand in the document itself, others in the tables
`history` and `logging`. Whether a document is refused, and what each setting is, depends on what
stands under the known keys; their order, other keys and the places of values do not matter.
-/

namespace LineShell

namespace Toml

def Key.bare (key : Key) : Key :=
  { key with span := ⟨0, 0⟩ }

mutual

/-- A value apart from where it was written and how its tables were made. -/
def Value.bare : Value → Value
  | .text _ content => .text ⟨0, 0⟩ content
  | .integer _ number => .integer ⟨0, 0⟩ number
  | .real _ number => .real ⟨0, 0⟩ number
  | .boolean _ truth => .boolean ⟨0, 0⟩ truth
  | .moment _ => .moment ⟨0, 0⟩
  | .array _ items => .array ⟨0, 0⟩ (bareItems items)
  | .tables items => .tables (bareItems items)
  | .table _ _ fields => .table none .header (bareFields fields)

def Value.bareItems : List Value → List Value
  | [] => []
  | item :: later => item.bare :: bareItems later

def Value.bareFields : List (Key × Value) → List (Key × Value)
  | [] => []
  | (key, value) :: later => (key.bare, value.bare) :: bareFields later

end

theorem Value.bareItems_eq_map (items : List Value) : bareItems items = items.map bare := by
  induction items with
  | nil => rfl
  | cons item later ih => rw [bareItems, ih, List.map_cons]

theorem Fields.find?_bare (fields : Fields) (name : String) :
    find? (Value.bareFields fields) name = (find? fields name).map Value.bare := by
  induction fields with
  | nil => rfl
  | cons first later ih =>
    obtain ⟨key, value⟩ := first
    have onward : Fields.find? (Value.bareFields later) name =
        (Fields.find? later name).map Value.bare := ih
    by_cases same : key.name = name
    · simp [find?, Value.bareFields, Key.bare, same]
    · simpa [find?, Value.bareFields, Key.bare, same] using onward

end Toml

open Toml (Value Fields Key)

namespace Settings

variable {α β : Type} {value : Value}

/-- It does not matter to what values stand for where they were written. -/
def Placeless (Denotes : Value → α → Prop) : Prop :=
  ∀ value setting, Denotes value.bare setting ↔ Denotes value setting

theorem placeless_isText : Placeless IsText := by
  intro value content
  cases value <;> constructor <;> rintro ⟨⟩ <;> constructor

theorem placeless_isPath : Placeless IsPath := by
  intro value content
  cases value <;> constructor <;> rintro ⟨⟩ <;> constructor

theorem placeless_isBoolean : Placeless IsBoolean := by
  intro value content
  cases value <;> constructor <;> rintro ⟨⟩ <;> constructor

theorem placeless_isCount : Placeless IsCount := by
  intro value content
  cases value <;> constructor <;> rintro ⟨⟩ <;> constructor

theorem hollow_bare_iff : Hollow value.bare ↔ Hollow value := by
  constructor
  · intro hollow
    cases value with
    | text | integer | real | boolean | moment => cases hollow
    | array span items =>
      cases items with
      | nil => exact .array
      | cons => cases hollow
    | tables items =>
      cases items with
      | nil => exact .tables
      | cons => cases hollow
    | table span origin fields =>
      cases fields with
      | nil => exact .table
      | cons => cases hollow
  · rintro (_ | _ | _)
    · exact .table
    · exact .array
    · exact .tables

theorem placeless_isRule : Placeless IsRule := by
  intro value rule
  constructor
  · intro is
    cases value with
    | text span content =>
      generalize same : (Value.text span content).bare = bare at is
      cases is with
      | name => cases same; exact .name
      | entry => cases same
    | integer | real | boolean | moment | array | tables => cases is
    | table span origin fields =>
      match fields with
      | [(key, inner)] =>
        cases is with
        | entry named hollow => exact .entry named (hollow_bare_iff.mp hollow)
      | [] => cases is
      | _ :: _ :: _ => cases is
  · intro is
    cases is with
    | name => exact .name
    | entry named hollow => exact .entry named (hollow_bare_iff.mpr hollow)

/-- The tables whose keys are known: the document itself, and two within it. -/
inductive Group where
  | general
  | history
  | logging

/-- A key of a part of the settings. -/
def Entry.inside (part : α → β) (entry : Entry β) : Entry α :=
  ⟨entry.name, entry.Denotes, fun settings => entry.of (part settings)⟩

def Group.entries : Group → List (Entry Settings)
  | general => plainEntries
  | history => historyEntries.map (·.inside (·.history))
  | logging => logEntries.map (·.inside (·.logging))

/-- What a part of a table holds. A part that is not there holds nothing. -/
def heldBelow? (names : List String) (table : Fields) (part : String) :
    Option (String → Option Value) :=
  match table.find? part with
  | none => some fun _ => none
  | some value => held? names value

/-- What a document holds under the keys of a group, if the group's part of it holds keys. -/
def Group.held? (table : Fields) : Group → Option (String → Option Value)
  | general => some table.find?
  | history => heldBelow? (historyEntries.map (·.name)) table "history"
  | logging => heldBelow? (logEntries.map (·.name)) table "logging"

/-- The value that a document gives to a key of a group. -/
def Group.under? (group : Group) (table : Fields) (name : String) : Option Value :=
  (group.held? table).bind fun held => held name

/-- The settings of a group are those that a document gives it, and otherwise the defaults. -/
structure Group.Holds (group : Group) (table : Fields) (settings : Settings) : Prop where
  opens : group.held? table ≠ none
  follows : Follows group.entries {} (group.under? table) settings

/-- A document gives a group something that does not hold keys, or one of its keys something that stands
for no setting. -/
inductive Group.Unfit (group : Group) (table : Fields) : Prop where
  | whole (closed : group.held? table = none)
  | key {entry : Entry Settings} {value : Value} (member : entry ∈ group.entries)
      (found : group.under? table entry.name = some value)
      (unfit : ∀ setting, ¬entry.Denotes value setting)

variable {group : Group} {table : Fields} {settings : Settings}

theorem Group.Holds.not_unfit (holds : group.Holds table settings) : ¬group.Unfit table := by
  rintro (closed | ⟨member, found, unfit⟩)
  · exact holds.opens closed
  · obtain ⟨setting, denotes⟩ := holds.follows.fits _ member _ found
    exact unfit setting denotes

theorem Group.under?_eq {held : String → Option Value} (here : group.held? table = some held) :
    group.under? table = held := by
  funext name
  rw [under?, here, Option.bind_some]

theorem Group.holds_iff : group.Holds table settings ↔
    ∃ held, group.held? table = some held ∧ Follows group.entries {} held settings := by
  constructor
  · intro ⟨opens, follows⟩
    obtain ⟨held, here⟩ := Option.ne_none_iff_exists'.mp opens
    exact ⟨held, here, under?_eq here ▸ follows⟩
  · intro ⟨held, here, follows⟩
    exact ⟨by simp [here], (under?_eq here).symm ▸ follows⟩

theorem follows_map_inside {entries : List (Entry β)} {part : α → β} {initial settings : α}
    {held : String → Option Value} :
    Follows (entries.map (·.inside part)) initial held settings ↔
      Follows entries (part initial) held (part settings) :=
  List.forall_mem_map

theorem Group.exists_held (fit : ¬group.Unfit table) :
    ∃ held, group.held? table = some held ∧ Fits group.entries held := by
  obtain ⟨held, here⟩ := Option.ne_none_iff_exists'.mp fun closed => fit (.whole closed)
  refine ⟨held, here, fun entry member value found => ?_⟩
  rw [← under?_eq here] at found
  by_contra none
  exact fit (.key member found (not_exists.mp none))

namespace Decode

theorem describes_history : Describes historyFields historyEntries where
  serves := by
    simp only [historyEntries, List.forall_mem_cons]
    refine ⟨?enabled, ?file, ?limit, nofun⟩
    case enabled =>
      exact serves_field [] (fun _ _ => boolean_ok_iff) (fun _ _ => rfl) (by simp)
    case file =>
      exact serves_field [_] (fun _ _ => path_ok_iff) (fun _ _ => rfl) (by simp)
    case limit =>
      exact serves_field [_, _] (fun _ _ => count_ok_iff) (fun _ _ => rfl) (by simp)
  names := rfl
  distinct := by decide
  whole := by
    intro first second same
    simp only [historyEntries, List.forall_mem_cons] at same
    obtain ⟨enabled, file, limit, _⟩ := same
    cases first
    cases second
    simp_all

theorem describes_logging : Describes loggingFields logEntries where
  serves := by
    simp only [logEntries, List.forall_mem_cons]
    refine ⟨?level, ?file, nofun⟩
    case level =>
      exact serves_field [] (fun _ _ => text_ok_iff) (fun _ _ => rfl) (by simp)
    case file =>
      exact serves_field [_] (fun _ _ => path_ok_iff) (fun _ _ => rfl) (by simp)
  names := rfl
  distinct := by decide
  whole := by
    intro first second same
    simp only [logEntries, List.forall_mem_cons] at same
    obtain ⟨level, file, _⟩ := same
    cases first
    cases second
    simp_all

def historyEntry : Entry Settings :=
  ⟨"history", fun value history => record "struct HistoryConfig" historyFields {} value = .ok history,
    (·.history)⟩

def loggingEntry : Entry Settings :=
  ⟨"logging", fun value logging => record "struct LoggingConfig" loggingFields {} value = .ok logging,
    (·.logging)⟩

/-- The keys that stand in a document itself. -/
def topEntries : List (Entry Settings) :=
  plainEntries ++ [historyEntry, loggingEntry]

theorem forall_mem_topEntries {P : Entry Settings → Prop} : (∀ entry ∈ topEntries, P entry) ↔
    (∀ entry ∈ plainEntries, P entry) ∧ P historyEntry ∧ P loggingEntry := by
  simp [topEntries, or_imp, forall_and]

theorem describes_top : Describes fields topEntries where
  serves := by
    simp only [forall_mem_topEntries, plainEntries, List.forall_mem_cons]
    refine ⟨⟨?prompt, ?parser, nofun⟩, ?history, ?logging⟩
    case prompt =>
      exact serves_field [] (fun _ _ => text_ok_iff) (fun _ _ => rfl) (by simp)
    case parser =>
      exact serves_field [_] (fun _ _ => parser_ok_iff) (fun _ _ => rfl) (by simp)
    case history =>
      exact serves_field [_, _] (fun _ _ => Iff.rfl) (fun _ _ => rfl) (by simp)
    case logging =>
      exact serves_field [_, _, _] (fun _ _ => Iff.rfl) (fun _ _ => rfl) (by simp)
  names := rfl
  distinct := by decide
  whole := by
    intro first second same
    simp only [forall_mem_topEntries, plainEntries, List.forall_mem_cons] at same
    obtain ⟨⟨prompt, parser, _⟩, history, logging⟩ := same
    cases first
    cases second
    simp_all [historyEntry, loggingEntry]

variable {known : List (Field β)} {entries : List (Entry β)} {start below : β} {wanted part : String}
  {held : String → Option Value}

/-- A part is read just as its keys say. A part that is not there stays as it was. -/
theorem Describes.kept_record_iff (describes : Describes known entries) (sound : table.Sound) :
    Kept start (fun value below => record wanted known start value = .ok below) (table.find? part) below ↔
      ∃ held, heldBelow? (entries.map (·.name)) table part = some held ∧
        Follows entries start held below := by
  unfold heldBelow?
  cases found : table.find? part with
  | none =>
    rw [kept_none_iff]
    constructor
    · rintro rfl
      exact ⟨_, rfl, fun _ _ => .absent⟩
    · rintro ⟨held, same, follows⟩
      obtain rfl := Option.some.inj same
      exact describes.whole below start fun entry member => kept_none_iff.mp (follows entry member)
  | some value => rw [kept_some_iff, describes.record_iff (sound.of_find? found)]

theorem general_holds_iff :
    Group.general.Holds table settings ↔ Follows plainEntries {} table.find? settings := by
  simp [Group.holds_iff, Group.held?, Group.entries]

theorem history_holds_iff (sound : table.Sound) : Group.history.Holds table settings ↔
    Kept {} (fun value below => record "struct HistoryConfig" historyFields {} value = .ok below)
      (table.find? "history") settings.history := by
  rw [Group.holds_iff, describes_history.kept_record_iff sound]
  simp only [Group.held?, Group.entries, follows_map_inside]

theorem logging_holds_iff (sound : table.Sound) : Group.logging.Holds table settings ↔
    Kept {} (fun value below => record "struct LoggingConfig" loggingFields {} value = .ok below)
      (table.find? "logging") settings.logging := by
  rw [Group.holds_iff, describes_logging.kept_record_iff sound]
  simp only [Group.held?, Group.entries, follows_map_inside]

theorem follows_topEntries_iff (sound : table.Sound) :
    Follows topEntries {} table.find? settings ↔ ∀ group : Group, group.Holds table settings := by
  have groups : (∀ group : Group, group.Holds table settings) ↔
      Group.general.Holds table settings ∧ Group.history.Holds table settings ∧
        Group.logging.Holds table settings :=
    ⟨fun all => ⟨all _, all _, all _⟩, fun ⟨general, history, logging⟩ group => by
      cases group <;> assumption⟩
  rw [groups, general_holds_iff, history_holds_iff sound, logging_holds_iff sound]
  exact forall_mem_topEntries

theorem ofFields_ok_iff (sound : table.Sound) :
    ofFields table = .ok settings ↔ ∀ group : Group, group.Holds table settings := by
  rw [← follows_topEntries_iff sound, ofFields, readFields_ok_iff]
  exact (gives_recognized sound.distinct).follows_iff describes_top

theorem Describes.exists_part (describes : Describes known entries) (sound : table.Sound)
    (holds : heldBelow? (entries.map (·.name)) table part = some held) (fits : Fits entries held)
    (found : table.find? part = some value) :
    ∃ below, record wanted known start value = .ok below := by
  rw [heldBelow?, found] at holds
  exact describes.exists_record (sound.of_find? found) holds fits

/-- Settings are read from a document unless something in it is unfit. -/
theorem exists_ofFields_iff (sound : table.Sound) :
    (∃ settings, ofFields table = .ok settings) ↔ ∀ group : Group, ¬group.Unfit table := by
  constructor
  · rintro ⟨settings, read⟩ group
    exact ((ofFields_ok_iff sound).mp read group).not_unfit
  · intro fit
    have fits : Fits topEntries table.find? := by
      refine forall_mem_topEntries.mpr ⟨?general, ?history, ?logging⟩
      case general =>
        obtain ⟨held, here, fits⟩ := Group.exists_held (fit .general)
        exact Option.some.inj here ▸ fits
      case history =>
        obtain ⟨held, here, fits⟩ := Group.exists_held (fit .history)
        rw [Group.entries, Fits, List.forall_mem_map] at fits
        exact fun value found => describes_history.exists_part sound here fits found
      case logging =>
        obtain ⟨held, here, fits⟩ := Group.exists_held (fit .logging)
        rw [Group.entries, Fits, List.forall_mem_map] at fits
        exact fun value found => describes_logging.exists_part sound here fits found
    have gives : Gives fields table.find? (recognized fields table) := gives_recognized sound.distinct
    obtain ⟨settings, set⟩ := gives.exists_setAll describes_top fits {}
    exact ⟨settings, readFields_ok_iff.mpr set⟩

end Decode

/-- What stands under some keys, apart from places. -/
def known (names : List String) (fields : Fields) : List (String × Value) :=
  (fields.filter fun field => field.1.name ∈ names).map fun field => (field.1.name, field.2.bare)

/-- Two tables have the same under some keys, in any order and with any other keys. -/
def SameKnown (names : List String) (fields others : Fields) : Prop :=
  (known names fields).Perm (known names others)

/-- What a part of a document contains that is a table. A part that is not there contains nothing. -/
inductive IsTable : Option Value → Fields → Prop where
  | absent : IsTable none []
  | table : IsTable (some (.table span origin fields)) fields

/-- Parts of two documents are the same value, or tables with the same under the known keys. -/
inductive SamePart (names : List String) : Option Value → Option Value → Prop where
  | value (same : first.bare = second.bare) : SamePart names (some first) (some second)
  | tables (here : IsTable first fields) (there : IsTable second others)
      (same : SameKnown names fields others) : SamePart names first second

/-- Two documents differ in nothing but unknown keys, order and places. -/
structure Rearranged (table other : Fields) : Prop where
  general : SameKnown (plainEntries.map (·.name)) table other
  history : SamePart (historyEntries.map (·.name)) (table.find? "history") (other.find? "history")
  logging : SamePart (logEntries.map (·.name)) (table.find? "logging") (other.find? "logging")

/-- Two documents give the same to the keys of a group. -/
structure Agrees (names : List String) (held others : Option (String → Option Value)) : Prop where
  opens : held = none ↔ others = none
  same : ∀ name ∈ names, (held.bind fun held => held name).map Value.bare =
    (others.bind fun held => held name).map Value.bare

variable {names : List String} {fields others other : Fields}

theorem mem_known_iff {name : String} {bare : Value} (distinct : (Fields.names fields).Nodup)
    (listed : name ∈ names) :
    (name, bare) ∈ known names fields ↔ (fields.find? name).map Value.bare = some bare := by
  constructor
  · intro member
    obtain ⟨⟨key, value⟩, kept, same⟩ := List.mem_map.mp member
    obtain ⟨rfl, rfl⟩ := Prod.mk.inj same
    rw [Fields.find?_of_mem distinct (List.mem_filter.mp kept).1, Option.map_some]
  · intro given
    obtain ⟨value, found, rfl⟩ := Option.map_eq_some_iff.mp given
    obtain ⟨key, rfl, member⟩ := Fields.mem_of_find? found
    exact List.mem_map.mpr ⟨_, List.mem_filter.mpr ⟨member, decide_eq_true listed⟩, rfl⟩

theorem SameKnown.agrees (same : SameKnown names fields others)
    (distinct : (Fields.names fields).Nodup) (apart : (Fields.names others).Nodup) :
    Agrees names (some fields.find?) (some others.find?) := by
  refine ⟨by simp, fun name listed => Option.ext fun bare => ?_⟩
  rw [Option.bind_some, Option.bind_some, ← mem_known_iff distinct listed,
    ← mem_known_iff apart listed]
  exact same.mem_iff

theorem held?_bare (names : List String) (value : Value) :
    held? names value.bare = (held? names value).map fun held name => (held name).map Value.bare := by
  have list : ∀ items : List Value,
      (fun name => ((names.zip (Value.bareItems items)).find? fun item => item.1 = name).map (·.2)) =
        fun name =>
          (((names.zip items).find? fun item => item.1 = name).map (·.2)).map Value.bare := by
    intro items
    funext name
    rw [Value.bareItems_eq_map, List.zip_map_right, List.find?_map, Option.map_map, Option.map_map]
    rfl
  cases value with
  | text | integer | real | boolean | moment => rfl
  | array span items => exact congrArg some (list items)
  | tables items => exact congrArg some (list items)
  | table span origin fields => exact congrArg some (funext (Fields.find?_bare fields))

theorem agrees_of_bare {first second : Value} (same : first.bare = second.bare) :
    Agrees names (held? names first) (held? names second) := by
  have bare : (held? names first).map (fun held name => (held name).map Value.bare) =
      (held? names second).map fun held name => (held name).map Value.bare := by
    rw [← held?_bare, ← held?_bare, same]
  cases here : held? names first with
  | none =>
    rw [here, Option.map_none, eq_comm, Option.map_eq_none_iff] at bare
    rw [bare]
    exact ⟨Iff.rfl, fun _ _ => rfl⟩
  | some held =>
    rw [here, Option.map_some, eq_comm, Option.map_eq_some_iff] at bare
    obtain ⟨others, there, same⟩ := bare
    rw [there]
    exact ⟨by simp, fun name _ => (congrFun same name).symm⟩

section

variable {part : String}

theorem IsTable.held (here : IsTable (table.find? part) fields) :
    heldBelow? names table part = some fields.find? := by
  unfold heldBelow?
  generalize table.find? part = value at here
  cases here with
  | absent => rfl
  | table => rfl

theorem IsTable.sound (here : IsTable (table.find? part) fields) (sound : table.Sound) :
    fields.Sound := by
  generalize found : table.find? part = value at here
  cases here with
  | absent => exact Fields.sound_nil
  | table => exact Fields.sound_table_iff.mp (sound.of_find? found)

theorem SamePart.agrees (same : SamePart names (table.find? part) (other.find? part))
    (sound : table.Sound) (fine : other.Sound) :
    Agrees names (heldBelow? names table part) (heldBelow? names other part) := by
  generalize first : table.find? part = value at same
  generalize second : other.find? part = another at same
  cases same with
  | value same =>
    rw [heldBelow?, heldBelow?, first, second]
    exact agrees_of_bare same
  | tables here there same =>
    rw [← first] at here
    rw [← second] at there
    rw [here.held, there.held]
    exact same.agrees (here.sound sound).distinct (there.sound fine).distinct

end

theorem Rearranged.agrees (rearranged : Rearranged table other) (sound : table.Sound)
    (fine : other.Sound) (group : Group) :
    Agrees (group.entries.map (·.name)) (group.held? table) (group.held? other) := by
  cases group with
  | general => exact rearranged.general.agrees sound.distinct fine.distinct
  | history => exact rearranged.history.agrees sound fine
  | logging => exact rearranged.logging.agrees sound fine

theorem placeless_entries : ∀ entry ∈ group.entries, Placeless entry.Denotes := by
  cases group <;>
    simp [Group.entries, plainEntries, historyEntries, logEntries, Entry.inside, placeless_isText,
      placeless_isPath, placeless_isBoolean, placeless_isCount, placeless_isRule]

theorem unique_entries : ∀ entry ∈ group.entries, ∀ value first second,
    entry.Denotes value first → entry.Denotes value second → first = second := by
  cases group with
  | general =>
    exact fun entry member => (Decode.describes_top.serves entry (List.mem_append_left _ member)).unique
  | history =>
    exact List.forall_mem_map.mpr fun entry member =>
      (Decode.describes_history.serves entry member).unique
  | logging =>
    exact List.forall_mem_map.mpr fun entry member =>
      (Decode.describes_logging.serves entry member).unique

theorem Placeless.kept_iff {Denotes : Value → α → Prop} (placeless : Placeless Denotes)
    {initial setting : α} {first second : Option Value}
    (same : first.map Value.bare = second.map Value.bare) :
    Kept initial Denotes first setting ↔ Kept initial Denotes second setting := by
  cases first with
  | none =>
    cases second with
    | none => exact Iff.rfl
    | some => cases same
  | some value =>
    cases second with
    | none => cases same
    | some other =>
      have bare : value.bare = other.bare := Option.some.inj same
      rw [kept_some_iff, kept_some_iff, ← placeless value, bare, placeless other]

theorem Group.holds_congr
    (agrees : Agrees (group.entries.map (·.name)) (group.held? table) (group.held? other)) :
    group.Holds table settings ↔ group.Holds other settings := by
  have follows : Follows group.entries {} (group.under? table) settings ↔
      Follows group.entries {} (group.under? other) settings :=
    forall₂_congr fun entry member =>
      (placeless_entries entry member).kept_iff (agrees.same _ (List.mem_map_of_mem member))
  constructor
  · intro holds
    exact ⟨fun closed => holds.opens (agrees.opens.mpr closed), follows.mp holds.follows⟩
  · intro holds
    exact ⟨fun closed => holds.opens (agrees.opens.mp closed), follows.mpr holds.follows⟩

section

variable {source : String}

theorem ofText_ok_iff_ofFields (document : Toml.Document.ofText? source = some table) :
    ofText source = .ok settings ↔ ofFields table = .ok settings := by
  simp only [ofText, document]
  cases ofFields table <;> simp [Except.mapError]

theorem ofText_ok_iff (document : Toml.Document.ofText? source = some table) :
    ofText source = .ok settings ↔ ∀ group : Group, group.Holds table settings := by
  rw [ofText_ok_iff_ofFields document, Decode.ofFields_ok_iff (Toml.Document.sound_of_ofText? document)]

/-- A text is refused, with a report, just when its document gives something unfit. -/
theorem ofText_error_iff (document : Toml.Document.ofText? source = some table) :
    (∃ report, (ofText source).mapError SettingsError.toShellError = .error (.config report)) ↔
      ∃ group : Group, group.Unfit table := by
  have refused : (∃ report, (ofText source).mapError SettingsError.toShellError =
      .error (.config report)) ↔ ¬∃ settings, ofText source = .ok settings := by
    cases ofText source <;> simp [Except.mapError, SettingsError.toShellError]
  have fit : (∃ settings, ofText source = .ok settings) ↔ ∀ group : Group, ¬group.Unfit table := by
    rw [← Decode.exists_ofFields_iff (Toml.Document.sound_of_ofText? document)]
    exact exists_congr fun settings => ofText_ok_iff_ofFields document
  rw [refused, fit, Classical.not_forall_not]

theorem ofText_rearranged {text : String} (document : Toml.Document.ofText? source = some table)
    (another : Toml.Document.ofText? text = some other) (rearranged : Rearranged table other) :
    (ofText text).toOption = (ofText source).toOption := by
  have agrees := rearranged.agrees (Toml.Document.sound_of_ofText? document)
    (Toml.Document.sound_of_ofText? another)
  have same : ∀ settings, ofText text = .ok settings ↔ ofText source = .ok settings := by
    intro settings
    rw [ofText_ok_iff document, ofText_ok_iff another]
    exact forall_congr' fun group => (Group.holds_congr (agrees group)).symm
  cases here : ofText source with
  | ok settings => rw [(same settings).mpr here]
  | error reason =>
    cases there : ofText text with
    | ok settings => rw [(same settings).mp there] at here; cases here
    | error other => rfl

theorem entry_unchanged {entry : Entry Settings} {changed : Settings}
    (holds : group.Holds table settings) (after : group.Holds other changed)
    (member : entry ∈ group.entries)
    (same : (group.under? other entry.name).map Value.bare =
      (group.under? table entry.name).map Value.bare) :
    entry.of changed = entry.of settings := by
  have kept := ((placeless_entries entry member).kept_iff same).mp (after.follows entry member)
  exact kept.unique (holds.follows entry member) (unique_entries entry member)

/-- Settings are read key by key. A document is refused just when it gives something unfit; otherwise
each setting is what stands under its key, or the default where nothing does. Unknown keys and the order
of keys do not matter, and a key that is changed changes no setting but its own. -/
theorem settings_read_key_by_key (document : Toml.Document.ofText? source = some table) :
    ((∃ report, (ofText source).mapError SettingsError.toShellError = .error (.config report)) ↔
      ∃ group : Group, group.Unfit table) ∧
    (∀ settings, ofText source = .ok settings ↔ ∀ group : Group, group.Holds table settings) ∧
    ∀ text other, Toml.Document.ofText? text = some other →
      (Rearranged table other → (ofText text).toOption = (ofText source).toOption) ∧
      ∀ settings changed, ofText source = .ok settings → ofText text = .ok changed →
        ∀ group : Group, ∀ entry ∈ group.entries,
          (group.under? other entry.name).map Value.bare =
            (group.under? table entry.name).map Value.bare →
          entry.of changed = entry.of settings := by
  refine ⟨ofText_error_iff document, fun settings => ofText_ok_iff document, ?_⟩
  intro text other another
  refine ⟨ofText_rearranged document another, ?_⟩
  intro settings changed read reread group entry member same
  exact entry_unchanged ((ofText_ok_iff document).mp read group) ((ofText_ok_iff another).mp reread group)
    member same

set_option maxRecDepth 1000 in
/-- Two keys, and then the same keys the other way round with one in between that is not known. -/
theorem settings_read_key_by_key_in_order :
    (∃ table, Toml.Document.ofText? "parser = \"posix\"\nhistory.enabled = false\n" = some table) ∧
      ofText "parser = \"posix\"\nhistory.enabled = false\n" =
        .ok { parser := .posix, history := { enabled := false } } ∧
      (ofText "history.enabled = false\ncolour = true\nparser = \"posix\"\n").toOption =
        some { parser := .posix, history := { enabled := false } } := by
  have document : Toml.Document.ofText? "parser = \"posix\"\nhistory.enabled = false\n" =
      some [(⟨"parser", ⟨0, 6⟩⟩, .text ⟨9, 16⟩ "posix"), (⟨"history", ⟨17, 24⟩⟩,
        .table none .dotted [(⟨"enabled", ⟨25, 32⟩⟩, .boolean ⟨35, 40⟩ false)])] := by cbv
  have another : Toml.Document.ofText? "history.enabled = false\ncolour = true\nparser = \"posix\"\n" =
      some [(⟨"history", ⟨0, 7⟩⟩, .table none .dotted
        [(⟨"enabled", ⟨8, 15⟩⟩, .boolean ⟨18, 23⟩ false)]),
        (⟨"colour", ⟨24, 30⟩⟩, .boolean ⟨33, 37⟩ true),
        (⟨"parser", ⟨38, 44⟩⟩, .text ⟨47, 54⟩ "posix")] := by cbv
  obtain ⟨_, reads, others⟩ := settings_read_key_by_key document
  have read : ofText "parser = \"posix\"\nhistory.enabled = false\n" =
      .ok { parser := .posix, history := { enabled := false } } := by
    have posix : IsRule (.text ⟨9, 16⟩ "posix") .posix := @IsRule.name ⟨9, 16⟩ .posix
    refine (reads _).mpr fun group => Group.holds_iff.mpr ?_
    cases group with
    | general =>
      exact ⟨_, rfl, List.forall_mem_cons.mpr ⟨.absent, List.forall_mem_singleton.mpr
        (.present posix)⟩⟩
    | history =>
      exact ⟨_, rfl, List.forall_mem_cons.mpr ⟨.present .boolean, List.forall_mem_cons.mpr
        ⟨.absent, List.forall_mem_singleton.mpr .absent⟩⟩⟩
    | logging =>
      exact ⟨_, rfl, List.forall_mem_cons.mpr ⟨.absent, List.forall_mem_singleton.mpr .absent⟩⟩
  refine ⟨⟨_, document⟩, read, ?_⟩
  rw [(others _ _ another).1 ⟨List.Perm.refl _, .tables .table .table (List.Perm.refl _),
    .tables .absent .absent (List.Perm.refl _)⟩, read]
  rfl

/-- A list is taken for the table of the history: its items are what the known keys are given. -/
theorem history_read_from_list : ∃ table value,
    Toml.Document.ofText? "history = [false]" = some table ∧ table.find? "history" = some value ∧
      (∀ span origin fields, value ≠ .table span origin fields) ∧
      ofText "history = [false]" = .ok { history := { enabled := false } } :=
  ⟨[(⟨"history", ⟨0, 7⟩⟩, .array ⟨10, 17⟩ [.boolean ⟨11, 16⟩ false])], _, by cbv, rfl, nofun, by cbv⟩

end

end Settings

end LineShell
