import LineShell.Toml.Document
/-!
Tables that a document describes. Whatever writes a table, its lines, braces or dotted keys, no key
stands in it twice, and this holds of all tables within it.
-/

namespace LineShell.Toml

/-- No key stands twice in a table of the value. -/
inductive Value.Sound : Value → Prop where
  | text : Sound (.text span content)
  | integer : Sound (.integer span number)
  | real : Sound (.real span value)
  | boolean : Sound (.boolean span truth)
  | moment : Sound (.moment span)
  | array (all : ∀ item ∈ items, Sound item) : Sound (.array span items)
  | tables (all : ∀ item ∈ items, Sound item) : Sound (.tables items)
  | table (distinct : (fields.map fun field => field.1.name).Nodup)
      (all : ∀ field ∈ fields, Sound field.2) : Sound (.table span origin fields)

theorem find?_of_distinct {α : Type} {items : List α} {name : α → String} {item : α}
    (distinct : (items.map name).Nodup) (member : item ∈ items) :
    items.find? (fun other => name other = name item) = some item := by
  induction items with
  | nil => exact absurd member List.not_mem_nil
  | cons first later ih =>
    obtain ⟨fresh, apart⟩ := List.nodup_cons.mp distinct
    rcases List.mem_cons.mp member with rfl | late
    · simp
    · have other : name first ≠ name item := fun same =>
        fresh (List.mem_map.mpr ⟨item, late, same.symm⟩)
      rw [List.find?_cons_of_neg (by simpa using other), ih apart late]

namespace Fields

def names (fields : Fields) : List String :=
  fields.map fun field => field.1.name

/-- No key stands twice in the table or in one within it. -/
structure Sound (fields : Fields) : Prop where
  distinct : (names fields).Nodup
  all : ∀ field ∈ fields, field.2.Sound

variable {α : Type} {fields inner after : Fields} {name : String} {key : Key} {value : Value}

theorem sound_table_iff : (Value.table span origin fields).Sound ↔ fields.Sound := by
  constructor
  · intro sound
    cases sound with
    | table distinct all => exact ⟨distinct, all⟩
  · intro ⟨distinct, all⟩
    exact .table distinct all

theorem sound_nil : Sound [] :=
  ⟨List.nodup_nil, fun _ member => absurd member List.not_mem_nil⟩

theorem find?_eq_none_iff : find? fields name = none ↔ name ∉ names fields := by
  simp [find?, names]

theorem mem_of_find? (found : find? fields name = some value) :
    ∃ key : Key, key.name = name ∧ (key, value) ∈ fields := by
  obtain ⟨⟨key, _⟩, first, rfl⟩ := Option.map_eq_some_iff.mp found
  exact ⟨key, by simpa using List.find?_some first, List.mem_of_find?_eq_some first⟩

theorem find?_of_mem (distinct : (names fields).Nodup) (member : (key, value) ∈ fields) :
    find? fields key.name = some value :=
  congrArg (Option.map Prod.snd) (find?_of_distinct distinct member)

theorem Sound.of_find? (sound : fields.Sound) (found : find? fields name = some value) :
    value.Sound := by
  obtain ⟨_, _, member⟩ := mem_of_find? found
  exact sound.all _ member

theorem Sound.add (sound : fields.Sound) (missing : find? fields key.name = none)
    (here : value.Sound) : (add fields key value).Sound := by
  refine ⟨?_, fun field member => ?_⟩
  · rw [names, Fields.add, List.map_append, List.map_singleton]
    exact List.nodup_append.mpr ⟨sound.distinct, List.nodup_cons.mpr ⟨List.not_mem_nil, List.nodup_nil⟩,
      fun first early second late => by
        obtain rfl := List.mem_singleton.mp late
        rintro rfl
        exact find?_eq_none_iff.mp missing early⟩
  · rcases List.mem_append.mp member with early | late
    · exact sound.all field early
    · obtain rfl := List.mem_singleton.mp late
      exact here

theorem Sound.replace (sound : fields.Sound) (here : value.Sound) (name : String) :
    (replace fields name value).Sound := by
  refine ⟨?_, fun field member => ?_⟩
  · have same : names (fields.replace name value) = names fields := by
      rw [names, Fields.replace, List.map_map, names]
      refine List.map_congr_left fun field _ => ?_
      by_cases named : field.1.name = name <;> simp [named]
    rw [same]
    exact sound.distinct
  · obtain ⟨before, early, rfl⟩ := List.mem_map.mp member
    by_cases named : before.1.name = name
    · simpa [named] using here
    · simpa [named] using sound.all before early

theorem Sound.filter (sound : fields.Sound) (keep : Key × Value → Bool) :
    Sound (fields.filter keep) :=
  ⟨sound.distinct.sublist (List.filter_sublist.map _),
    fun field member => sound.all field (List.mem_filter.mp member).1⟩

theorem sound_item {items : List Value} (all : (Value.tables items).Sound)
    (last : items.getLast? = some value) :
    value.Sound := by
  cases all with
  | tables all => exact all value (List.mem_of_getLast? last)

theorem sound_tables_concat {items : List Value} (all : (Value.tables items).Sound)
    (here : value.Sound) : (Value.tables (items.dropLast ++ [value])).Sound := by
  cases all with
  | tables all =>
    refine .tables fun item member => ?_
    rcases List.mem_append.mp member with early | late
    · exact all item (List.dropLast_subset _ early)
    · exact List.mem_singleton.mp late ▸ here

theorem Sound.insert {path : List Key} (sound : fields.Sound) (here : value.Sound)
    (inserted : insert fields path key value = some after) : after.Sound := by
  fun_induction Fields.insert fields path key value generalizing after with
  | case1 | case4 | case6 | case8 | case9 => cases inserted
  | case2 fields key value missing =>
    obtain rfl := Option.some.inj inserted
    exact sound.add missing here
  | case3 fields key path last value missing ih =>
    obtain ⟨inner, within, made⟩ := Option.bind_eq_some_iff.mp inserted
    obtain rfl := Option.some.inj made
    exact sound.add missing (sound_table_iff.mpr (ih sound_nil here within))
  | case5 fields key path last value span origin inner found _ ih =>
    obtain ⟨inner, within, made⟩ := Option.bind_eq_some_iff.mp inserted
    obtain rfl := Option.some.inj made
    have before := sound_table_iff.mp (sound.of_find? found)
    exact sound.replace (sound_table_iff.mpr (ih before here within)) _
  | case7 fields key path last value items found span origin inner listed _ ih =>
    obtain ⟨inner, within, made⟩ := Option.bind_eq_some_iff.mp inserted
    obtain rfl := Option.some.inj made
    have all := sound.of_find? found
    have before := sound_table_iff.mp (sound_item all listed)
    exact sound.replace (sound_tables_concat all (sound_table_iff.mpr (ih before here within))) _

/-- Work on a table finds something as wanted and leaves no key twice. -/
def Keeps (work : Fields → Option (α × Fields)) (Wanted : α → Prop) : Prop :=
  ∀ fields found after, fields.Sound → work fields = some (found, after) →
    Wanted found ∧ after.Sound

variable {Wanted : α → Prop}

theorem Keeps.within {work : Fields → Option (α × Fields)} (keeps : Keeps work Wanted)
    (path : List Key) : Keeps (within work path) Wanted := by
  intro fields found after sound worked
  fun_induction Fields.within work path fields generalizing found after with
  | case1 => exact keeps _ _ _ sound worked
  | case3 | case6 | case7 => cases worked
  | case2 key path fields missing ih =>
    obtain ⟨⟨_, inner⟩, inside, made⟩ := Option.bind_eq_some_iff.mp worked
    obtain ⟨rfl, rfl⟩ := Prod.mk.inj (Option.some.inj made)
    obtain ⟨wanted, below⟩ := ih _ _ sound_nil inside
    exact ⟨wanted, sound.add missing (sound_table_iff.mpr below)⟩
  | case4 key path fields span origin inner here _ ih =>
    obtain ⟨⟨_, inner⟩, inside, made⟩ := Option.bind_eq_some_iff.mp worked
    obtain ⟨rfl, rfl⟩ := Prod.mk.inj (Option.some.inj made)
    obtain ⟨wanted, below⟩ := ih _ _ (sound_table_iff.mp (sound.of_find? here)) inside
    exact ⟨wanted, sound.replace (sound_table_iff.mpr below) _⟩
  | case5 key path fields items here span origin inner listed ih =>
    obtain ⟨⟨_, inner⟩, inside, made⟩ := Option.bind_eq_some_iff.mp worked
    obtain ⟨rfl, rfl⟩ := Prod.mk.inj (Option.some.inj made)
    have all := sound.of_find? here
    obtain ⟨wanted, below⟩ := ih _ _ (sound_table_iff.mp (sound_item all listed)) inside
    exact ⟨wanted, sound.replace (sound_tables_concat all (sound_table_iff.mpr below)) _⟩

/-- What is taken over when a table is begun has no key twice either. -/
theorem keeps_beginTable (key : Key) : Keeps (beginTable key) Sound := by
  intro fields found after sound begun
  unfold beginTable at begun
  split at begun
  · obtain ⟨rfl, rfl⟩ := Prod.mk.inj (Option.some.inj begun)
    exact ⟨sound_nil, sound⟩
  · rename_i here
    obtain ⟨rfl, rfl⟩ := Prod.mk.inj (Option.some.inj begun)
    exact ⟨sound_table_iff.mp (sound.of_find? here), sound.filter _⟩
  · cases begun

theorem keeps_endTable (here : value.Sound) (key : Key) :
    Keeps (endTable key value) fun _ => True := by
  intro fields found after sound ended
  unfold endTable at ended
  split at ended
  · rename_i missing
    obtain ⟨rfl, rfl⟩ := Prod.mk.inj (Option.some.inj ended)
    exact ⟨trivial, sound.add missing here⟩
  · cases ended

theorem keeps_beginItem (key : Key) : Keeps (beginItem key) fun _ => True := by
  intro fields found after sound begun
  unfold beginItem at begun
  split at begun
  · rename_i missing
    obtain ⟨rfl, rfl⟩ := Prod.mk.inj (Option.some.inj begun)
    exact ⟨trivial, sound.add missing (.tables fun _ member => absurd member List.not_mem_nil)⟩
  · obtain ⟨rfl, rfl⟩ := Prod.mk.inj (Option.some.inj begun)
    exact ⟨trivial, sound⟩
  · cases begun

theorem keeps_endItem (here : value.Sound) (key : Key) :
    Keeps (endItem key value) fun _ => True := by
  intro fields found after sound ended
  unfold endItem at ended
  split at ended
  · rename_i items listed
    obtain ⟨rfl, rfl⟩ := Prod.mk.inj (Option.some.inj ended)
    refine ⟨trivial, sound.replace ?_ _⟩
    cases sound.of_find? listed with
    | tables all =>
      refine .tables fun item member => ?_
      rcases List.mem_append.mp member with early | late
      · exact all item early
      · exact List.mem_singleton.mp late ▸ here
  · cases ended

end Fields

/-- No key stands twice in a value that the line gives. -/
inductive Line.Sound : Line → Prop where
  | header : Sound (.header listed path last span)
  | pair {given : Value} (sound : given.Sound) : Sound (.pair path last given)

namespace Document

variable {root after : Fields} {current next : Section} {line : Line}

theorem sound_close (sound : root.Sound) (part : current.fields.Sound)
    (closed : current.close root = some after) : after.Sound := by
  have table : (Value.table current.span .header current.fields).Sound :=
    Fields.sound_table_iff.mpr part
  unfold Section.close at closed
  split at closed
  · obtain rfl := Option.some.inj closed
    exact part
  · obtain ⟨⟨_, _⟩, worked, rfl⟩ := Option.map_eq_some_iff.mp closed
    exact ((Fields.keeps_endTable table _).within _ _ _ _ sound worked).2
  · obtain ⟨⟨_, _⟩, worked, rfl⟩ := Option.map_eq_some_iff.mp closed
    exact ((Fields.keeps_endItem table _).within _ _ _ _ sound worked).2

theorem sound_step (sound : root.Sound) (part : current.fields.Sound) (said : line.Sound)
    (stepped : step (root, current) line = some (after, next)) : after.Sound ∧ next.fields.Sound := by
  cases said with
  | pair value =>
    obtain ⟨fields, inserted, made⟩ := Option.bind_eq_some_iff.mp stepped
    obtain ⟨rfl, rfl⟩ := Prod.mk.inj (Option.some.inj made)
    exact ⟨sound, part.insert value inserted⟩
  | @header listed path last span =>
    obtain ⟨closed, ends, made⟩ := Option.bind_eq_some_iff.mp stepped
    have before := sound_close sound part ends
    cases listed with
    | true =>
      obtain ⟨⟨_, _⟩, begun, made⟩ := Option.bind_eq_some_iff.mp made
      obtain ⟨rfl, rfl⟩ := Prod.mk.inj (Option.some.inj made)
      exact ⟨((Fields.keeps_beginItem _).within _ _ _ _ before begun).2, Fields.sound_nil⟩
    | false =>
      obtain ⟨⟨_, _⟩, begun, made⟩ := Option.bind_eq_some_iff.mp made
      obtain ⟨rfl, rfl⟩ := Prod.mk.inj (Option.some.inj made)
      obtain ⟨fields, below⟩ := (Fields.keeps_beginTable _).within _ _ _ _ before begun
      exact ⟨below, fields⟩

theorem sound_steps {lines : List Line} (said : ∀ line ∈ lines, line.Sound) (sound : root.Sound)
    (part : current.fields.Sound) (ran : lines.foldlM step (root, current) = some (after, next)) :
    after.Sound ∧ next.fields.Sound := by
  induction lines generalizing root current with
  | nil =>
    obtain ⟨rfl, rfl⟩ := Prod.mk.inj (Option.some.inj ran)
    exact ⟨sound, part⟩
  | cons line later ih =>
    obtain ⟨here, others⟩ := List.forall_mem_cons.mp said
    obtain ⟨⟨_, _⟩, first, rest⟩ := Option.bind_eq_some_iff.mp ran
    obtain ⟨onward, fields⟩ := sound_step sound part here first
    exact ih others onward fields rest

theorem sound_ofLines? {lines : List Line} (said : ∀ line ∈ lines, line.Sound)
    (made : ofLines? lines = some after) : after.Sound := by
  obtain ⟨⟨_, _⟩, ran, closed⟩ := Option.bind_eq_some_iff.mp made
  obtain ⟨sound, part⟩ := sound_steps said Fields.sound_nil Fields.sound_nil ran
  exact sound_close sound part closed

end Document

namespace Reader

variable {α β : Type} {Wanted : α → Prop} {Sought : β → Prop} {reader : Reader α}
  {next : α → Reader β}

/-- Whatever a reader finds is as wanted. -/
def Finds (reader : Reader α) (Wanted : α → Prop) : Prop :=
  ∀ place found after, reader.run place = some (found, after) → Wanted found

theorem finds_pure {found : α} (wanted : Wanted found) : Finds (pure found) Wanted := by
  intro place other after ran
  obtain ⟨rfl, rfl⟩ := Prod.mk.inj (Option.some.inj ran)
  exact wanted

theorem finds_failure : Finds (failure : Reader α) Wanted := by
  intro place found after ran
  cases ran

theorem Finds.bind (first : reader.Finds Wanted)
    (rest : ∀ found, Wanted found → (next found).Finds Sought) : (reader >>= next).Finds Sought := by
  intro place found after ran
  obtain ⟨⟨middle, left⟩, here, onward⟩ := Option.bind_eq_some_iff.mp ran
  exact rest middle (first place middle left here) left found after onward

theorem finds_bind (rest : ∀ found, (next found).Finds Sought) : (reader >>= next).Finds Sought := by
  have any : reader.Finds fun _ => True := fun _ _ _ _ => trivial
  exact any.bind fun found _ => rest found

theorem finds_repeatAtMost {step : Reader (Option α)}
    (finds : step.Finds fun item => ∀ found ∈ item, Wanted found) (times : Nat) :
    (repeatAtMost step times).Finds fun all => ∀ found ∈ all, Wanted found := by
  induction times with
  | zero => exact finds_failure
  | succ times ih =>
    refine finds.bind fun item wanted => ?_
    cases item with
    | none => exact finds_pure fun _ member => absurd member List.not_mem_nil
    | some found =>
      exact ih.bind fun later others => finds_pure (List.forall_mem_cons.mpr ⟨wanted found rfl, others⟩)

theorem finds_many {step : Reader (Option α)}
    (finds : step.Finds fun item => ∀ found ∈ item, Wanted found) :
    (many step).Finds fun all => ∀ found ∈ all, Wanted found :=
  finds_bind fun _ => finds_repeatAtMost finds _

theorem finds_foldlM {step : β → α → Reader β} {items : List α} {start : β}
    (steps : ∀ before item, Sought before → Wanted item → (step before item).Finds Sought)
    (sought : Sought start) (wanted : ∀ item ∈ items, Wanted item) :
    (items.foldlM step start).Finds Sought := by
  induction items generalizing start with
  | nil => exact finds_pure sought
  | cons item later ih =>
    obtain ⟨here, others⟩ := List.forall_mem_cons.mp wanted
    exact (steps start item sought here).bind fun _ next => ih next others

theorem finds_number : Number.value.Finds Value.Sound := by
  have moment : ∀ before : Place, Finds (do
      let after ← get
      return Value.moment ⟨before.offset, after.offset⟩) Value.Sound :=
    fun before => finds_bind fun _ => finds_pure .moment
  unfold Number.value
  refine finds_bind fun before => finds_bind fun run => ?_
  split
  · refine finds_bind fun rest => ?_
    split
    · split
      · exact finds_bind fun _ => finds_bind fun _ => finds_bind fun _ => moment before
      · exact moment before
    · exact moment before
  · refine finds_bind fun _ => ?_
    dsimp only
    split
    · exact finds_pure .moment
    · split
      · exact finds_pure .integer
      · exact finds_pure .real
      · exact finds_failure

theorem finds_leaf : leaf.Finds Value.Sound := by
  unfold leaf
  refine finds_bind fun _ => finds_bind fun _ => ?_
  split
  · exact finds_bind fun _ => finds_pure .text
  · exact finds_bind fun _ => finds_pure .text
  · refine finds_bind fun yes => ?_
    split
    · exact finds_bind fun _ => finds_pure .boolean
    · refine finds_bind fun no => ?_
      split
      · exact finds_bind fun _ => finds_pure .boolean
      · exact finds_number

variable {inner : Reader Value}

theorem finds_arrayItems (finds : inner.Finds Value.Sound) :
    (arrayItems inner).Finds fun items => ∀ item ∈ items, item.Sound := by
  unfold arrayItems
  refine finds_bind fun _ => (finds_many ?_).bind fun items sound =>
    finds_bind fun _ => finds_pure sound
  refine finds_bind fun _ => ?_
  split
  · exact finds_pure nofun
  · refine finds.bind fun item sound => finds_bind fun _ => finds_bind fun comma => ?_
    have here : ∀ found ∈ some item, found.Sound := fun found same => Option.some.inj same ▸ sound
    have ends : Finds (do
        gap
        return some item) fun next => ∀ found ∈ next, found.Sound :=
      finds_bind fun _ => finds_pure here
    split
    · exact finds_bind fun _ => finds_bind fun _ => ends
    · exact ends

theorem finds_pair (finds : inner.Finds Value.Sound) :
    (pair inner).Finds fun found => found.2.Sound :=
  finds_bind fun _ => finds_bind fun _ => finds_bind fun _ =>
    finds.bind fun _ sound => finds_pure sound

theorem finds_braceFields (finds : inner.Finds Value.Sound) :
    (braceFields inner).Finds Fields.Sound := by
  unfold braceFields
  refine finds_bind fun _ => finds_bind fun closing => ?_
  split
  · exact finds_pure Fields.sound_nil
  refine (finds_pair finds).bind fun first sound => finds_bind fun _ => ?_
  refine (@finds_many _ (fun found => found.2.Sound) _ (finds_bind fun comma => ?_)).bind
    fun more all => finds_bind fun _ => ?_
  · split
    · exact finds_pure nofun
    · refine (finds_pair finds).bind fun next here => finds_bind fun _ => ?_
      exact finds_pure fun found same => Option.some.inj same ▸ here
  refine finds_foldlM ?_ Fields.sound_nil (List.forall_mem_cons.mpr ⟨sound, all⟩)
  rintro fields ⟨⟨path, last⟩, item⟩ before here place found after ran
  obtain ⟨_, inserted, same⟩ := Option.bind_eq_some_iff.mp ran
  obtain ⟨rfl, rfl⟩ := Prod.mk.inj (Option.some.inj same)
  exact before.insert here inserted

theorem finds_valueWith (finds : inner.Finds Value.Sound) : (valueWith inner).Finds Value.Sound := by
  unfold valueWith
  refine finds_bind fun _ => finds_bind fun _ => ?_
  split
  · refine finds_bind fun _ => (finds_arrayItems finds).bind fun items all => ?_
    exact finds_bind fun _ => finds_pure (.array all)
  · refine finds_bind fun _ => (finds_braceFields finds).bind fun fields sound => ?_
    exact finds_bind fun _ => finds_pure (Fields.sound_table_iff.mpr sound)
  · exact finds_leaf

/-- However deep values are nested, no table in them has a key twice. -/
theorem finds_value (depth : Nat) : (value depth).Finds Value.Sound := by
  induction depth with
  | zero => exact finds_leaf
  | succ depth ih => exact finds_valueWith ih

theorem finds_header : header.Finds Line.Sound := by
  unfold header
  refine finds_bind fun _ => ?_
  exact finds_pure .header

theorem finds_line? : line?.Finds fun next => ∀ line, next = some (some line) → line.Sound := by
  unfold line?
  refine finds_bind fun _ => finds_bind fun _ => ?_
  split
  · exact finds_pure nofun
  · exact finds_bind fun _ => finds_pure nofun
  · exact finds_bind fun _ => finds_pure nofun
  · exact finds_bind fun _ => finds_pure nofun
  · refine finds_header.bind fun line sound => finds_bind fun _ => finds_pure ?_
    rintro _ ⟨⟩
    exact sound
  · refine (finds_pair (finds_value _)).bind ?_
    rintro ⟨⟨path, last⟩, found⟩ sound
    refine finds_bind fun _ => finds_pure ?_
    rintro _ ⟨⟩
    exact .pair sound

theorem finds_lines : lines.Finds fun all => ∀ line ∈ all, line.Sound := by
  unfold lines
  have said : line?.Finds fun next => ∀ found ∈ next, ∀ line, found = some line → line.Sound := by
    intro place next after ran found same line here
    exact finds_line? place next after ran line (by rw [same, here])
  refine finds_bind fun _ => (finds_many said).bind fun all sound => finds_pure fun line member => ?_
  obtain ⟨next, given, same⟩ := List.mem_filterMap.mp member
  exact sound next given line same

end Reader

/-- No key stands twice in a table that a document describes. -/
theorem Document.sound_of_ofText? {text : String} {table : Fields}
    (document : ofText? text = some table) : table.Sound := by
  obtain ⟨⟨lines, _⟩, read, made⟩ := Option.bind_eq_some_iff.mp document
  exact sound_ofLines? (Reader.finds_lines _ _ _ read) made

end LineShell.Toml
