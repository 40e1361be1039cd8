/-!
Reading the arguments of a command from left to right: switches, options with a value, positional
values, `--` and requests for help.
-/

namespace LineShell

/-- What a word that starts with a dash does to the values read so far. -/
inductive Flag (α : Type) where
  /-- Stands for itself; giving it again changes nothing more. -/
  | switch (set : α → α)
  /-- Takes the next word, unless it has one already. -/
  | valued (set : String → α → Option α)

/-- What arguments a command takes. -/
structure ArgumentRules (α : Type) where
  flag? : String → Option (Flag α)
  /-- Take one positional value, or say why not. -/
  value : String → α → Except String α
  /-- Whether all words after the first positional value are values as they are. -/
  greedy : Bool := false

inductive Refusal where
  | help
  | misuse (text : String)
  deriving DecidableEq, Repr

namespace Arguments

def isHelp (word : String) : Bool :=
  word == "--help" || word == "help"

def isDashed (word : String) : Bool :=
  word.toList.head? == some '-'

def unrecognized (word : String) : String :=
  "Unrecognized argument: " ++ word ++ "\n"

/-- The complaint about a flag after a request for help. -/
def afterHelp : String :=
  "Trailing arguments are not allowed after `help`."

def missingValue (option : String) : String :=
  "No value provided for option '" ++ option ++ "'.\n"

def repeatedOption (option value : String) : String :=
  "Error parsing option '" ++ option ++ "' with value '" ++ value ++
    "': duplicate values provided\n"

def badValue (name value reason : String) : String :=
  "Error parsing positional argument '" ++ name ++ "' with value '" ++ value ++ "': " ++ reason ++
    "\n"

variable {α : Type}

/-- Read the rest of the arguments, knowing whether all of them are values, whether help has been
asked for, and the values so far. -/
def readFrom (rules : ArgumentRules α) : Bool → Bool → α → List String → Except Refusal α
  | _, help, values, [] => if help then .error .help else .ok values
  | plain, help, values, word :: rest =>
    if !plain && isHelp word then readFrom rules plain true values rest
    else if !plain && isDashed word then
      if word = "--" then readFrom rules true help values rest
      else if help then .error (.misuse afterHelp)
      else
        match rules.flag? word, rest with
        | none, _ => .error (.misuse (unrecognized word))
        | some (.switch set), rest => readFrom rules plain help (set values) rest
        | some (.valued _), [] => .error (.misuse (missingValue word))
        | some (.valued set), given :: rest =>
          match set given values with
          | none => .error (.misuse (repeatedOption word given))
          | some values => readFrom rules plain help values rest
    else
      match rules.value word values with
      | .error text => .error (.misuse text)
      | .ok values => readFrom rules (plain || rules.greedy) help values rest

/-- Read arguments into values that start out as given. -/
def read (rules : ArgumentRules α) (start : α) (words : List String) : Except Refusal α :=
  readFrom rules false false start words

end Arguments

end LineShell
