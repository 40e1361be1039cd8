import LineShell.Command
/-!
Arguments read one word at a time. Where no flag takes a value, each word by itself takes the reading
one step further, so what has been read of the words at the front does not depend on those behind.
-/

namespace LineShell

variable {α : Type}

/-- Every flag stands for itself. -/
def ArgumentRules.OnlySwitches (rules : ArgumentRules α) : Prop :=
  ∀ word set, rules.flag? word ≠ some (.valued set)

namespace Arguments

/-- How far arguments have been read: whether all words from here on are values, whether help has
been asked for, and the values so far. -/
@[ext] structure Reading (α : Type) where
  plain : Bool := false
  help : Bool := false
  values : α

namespace Reading

variable {rules : ArgumentRules α} {reading : Reading α} {word : String} {words : List String}

/-- The reading after one more word, or what is wrong with the word. -/
def next (rules : ArgumentRules α) (reading : Reading α) (word : String) :
    Except String (Reading α) :=
  if !reading.plain && isHelp word then .ok { reading with help := true }
  else if !reading.plain && isDashed word then
    if word = "--" then .ok { reading with plain := true }
    else if reading.help then .error afterHelp
    else
      match rules.flag? word with
      | some (.switch set) => .ok { reading with values := set reading.values }
      | _ => .error (unrecognized word)
  else (rules.value word reading.values).map fun values =>
    { reading with plain := reading.plain || rules.greedy, values }

/-- The reading after more words, or what is wrong with the first that is refused. -/
def readAll (rules : ArgumentRules α) (reading : Reading α) (words : List String) :
    Except String (Reading α) :=
  words.foldlM (next rules) reading

/-- What a reading comes to when no word is left. -/
def answer (reading : Reading α) : Except Refusal α :=
  if reading.help then .error .help else .ok reading.values

@[simp] theorem readAll_nil (reading : Reading α) : readAll rules reading [] = .ok reading := rfl

theorem readAll_cons (reading : Reading α) (word : String) (rest : List String) :
    readAll rules reading (word :: rest) =
      (next rules reading word).bind fun middle => readAll rules middle rest := by
  rw [readAll, List.foldlM_cons]
  rfl

theorem readAll_append (reading : Reading α) (front back : List String) :
    readAll rules reading (front ++ back) =
      (readAll rules reading front).bind fun middle => readAll rules middle back := by
  rw [readAll, List.foldlM_append]
  rfl

theorem readAll_cons_ok_iff {rest : List String} {after : Reading α} :
    readAll rules reading (word :: rest) = .ok after ↔
      ∃ middle, next rules reading word = .ok middle ∧ readAll rules middle rest = .ok after := by
  rw [readAll_cons]
  cases next rules reading word with
  | error text => simp [Except.bind]
  | ok middle => simp [Except.bind]

theorem readAll_append_ok_iff {front back : List String} {after : Reading α} :
    readAll rules reading (front ++ back) = .ok after ↔
      ∃ middle, readAll rules reading front = .ok middle ∧ readAll rules middle back = .ok after := by
  rw [readAll_append]
  cases readAll rules reading front with
  | error text => simp [Except.bind]
  | ok middle => simp [Except.bind]

/-- What a word that is taken does: it asks for help, ends the flags, stands for itself, or is a
value. -/
inductive Takes (rules : ArgumentRules α) (reading : Reading α) (word : String) :
    Reading α → Prop where
  | help (opened : reading.plain = false) (asks : isHelp word = true) :
      Takes rules reading word { reading with help := true }
  | closing (opened : reading.plain = false) (dashes : word = "--") :
      Takes rules reading word { reading with plain := true }
  | switch {set : α → α} (opened : reading.plain = false) (silent : isHelp word = false)
      (dashed : isDashed word = true) (other : word ≠ "--") (unasked : reading.help = false)
      (known : rules.flag? word = some (.switch set)) :
      Takes rules reading word { reading with values := set reading.values }
  | value {given : α} (plain : reading.plain = true ∨ isHelp word = false ∧ isDashed word = false)
      (accepted : rules.value word reading.values = .ok given) :
      Takes rules reading word
        { reading with plain := reading.plain || rules.greedy, values := given }

theorem next_eq_ok_iff {after : Reading α} :
    next rules reading word = .ok after ↔ Takes rules reading word after := by
  constructor
  · intro taken
    unfold next at taken
    split at taken
    case isTrue asks =>
      obtain ⟨opened, asks⟩ : reading.plain = false ∧ isHelp word = true := by simpa using asks
      cases taken
      exact .help opened asks
    split at taken
    case isTrue silent dashed =>
      obtain ⟨opened, dashed⟩ : reading.plain = false ∧ isDashed word = true := by
        simpa using dashed
      have silent : isHelp word = false := by simpa [opened] using silent
      split at taken
      case isTrue dashes =>
        cases taken
        exact .closing opened dashes
      split at taken
      case isTrue => cases taken
      case isFalse other asked =>
        split at taken
        · rename_i set known
          cases taken
          exact .switch opened silent dashed other (by simpa using asked) known
        · cases taken
    case isFalse silent undashed =>
      cases read : rules.value word reading.values with
      | error text => simp [read, Except.map] at taken
      | ok values =>
        rw [read] at taken
        cases taken
        refine .value ?_ read
        cases plain : reading.plain with
        | true => exact .inl rfl
        | false => exact .inr (by simpa [plain] using And.intro silent undashed)
  · intro takes
    cases takes with
    | help opened asks => simp [next, opened, asks]
    | closing opened dashes =>
      have dashed : isHelp "--" = false ∧ isDashed "--" = true := by decide
      simp [next, opened, dashes, dashed]
    | switch opened silent dashed other unasked known =>
      simp [next, opened, silent, dashed, other, unasked, known]
    | value plain accepted =>
      rcases plain with plain | ⟨silent, undashed⟩
      · simp [next, plain, accepted, Except.map]
      · simp [next, silent, undashed, accepted, Except.map]

theorem takes_plain_iff {help : Bool} {values : α} {after : Reading α} :
    Takes rules ⟨true, help, values⟩ word after ↔
      ∃ given, rules.value word values = .ok given ∧ after = ⟨true, help, given⟩ := by
  constructor
  · intro takes
    cases takes with
    | help opened | closing opened | switch opened => cases opened
    | value _ accepted => exact ⟨_, accepted, rfl⟩
  · rintro ⟨given, accepted, rfl⟩
    exact .value (.inl rfl) accepted

theorem help_of_readAll {after : Reading α} (read : readAll rules reading words = .ok after)
    (asked : reading.help = true) : after.help = true := by
  induction words generalizing reading with
  | nil =>
    cases read
    exact asked
  | cons word rest ih =>
    obtain ⟨middle, first, later⟩ := readAll_cons_ok_iff.mp read
    refine ih later ?_
    cases next_eq_ok_iff.mp first with
    | help => rfl
    | closing | switch | value => exact asked

end Reading

/-- Reading arguments is reading their words one after the other. -/
theorem readFrom_eq {rules : ArgumentRules α} (switches : rules.OnlySwitches) (plain help : Bool)
    (values : α) (words : List String) :
    readFrom rules plain help values words =
      ((Reading.readAll rules ⟨plain, help, values⟩ words).mapError .misuse).bind
        Reading.answer := by
  induction words generalizing plain help values with
  | nil => cases help <;> rfl
  | cons word rest ih =>
    rw [Reading.readAll_cons, readFrom.eq_def, Reading.next]
    dsimp only
    split
    · exact ih ..
    · split
      · split
        · exact ih ..
        · split
          · rfl
          · cases flag : rules.flag? word with
            | none => rfl
            | some known =>
              cases known with
              | switch set => exact ih ..
              | valued set => exact absurd flag (switches word set)
      · cases rules.value word values with
        | error text => rfl
        | ok values => exact ih ..

/-- So arguments that start afresh are answered by the reading of all of them. -/
theorem read_eq {rules : ArgumentRules α} (switches : rules.OnlySwitches) (start : α)
    (words : List String) :
    read rules start words =
      ((Reading.readAll rules { values := start } words).mapError .misuse).bind Reading.answer :=
  readFrom_eq switches false false start words

end Arguments

end LineShell
