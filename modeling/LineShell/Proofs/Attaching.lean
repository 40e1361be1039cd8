import Mathlib.Data.List.Sort
import LineShell.Proofs.HistoryRefinement
/-!
Attaching modules: what each way of loading one comes to, and what a module of the shell's own does
to a session. Such a module is attached as a whole or, if its command's name is taken, not at all.
-/

namespace LineShell

variable {σ : Type}

open LineShell.Action

namespace NameTable

variable {α : Type} {table first second : NameTable α} {name other : String}

theorem find?_eq_some_iff : table.find? name = some value ↔ (name, value) ∈ table.entries := by
  have increasing := table.increasing
  unfold find?
  generalize table.entries = entries at increasing
  induction entries with
  | nil => simp
  | cons entry rest ih =>
    have later := List.pairwise_cons.mp increasing
    obtain ⟨first, held⟩ := entry
    by_cases here : name = first
    · subst here
      have single : (name, value) ∉ rest := fun member =>
        String.lt_irrefl _ (later.1 (name, value) member)
      simp [single, eq_comm]
    · simp [List.lookup_cons, beq_false_of_ne here, here, ih later.2]

theorem mem_names_iff : name ∈ table.names ↔ table.contains name = true := by
  simp [names, contains, Option.isSome_iff_exists, find?_eq_some_iff]

theorem ext_find? (same : ∀ name, first.find? name = second.find? name) : first = second := by
  have alike : ∀ entry, entry ∈ first.entries ↔ entry ∈ second.entries := fun entry => by
    rw [← find?_eq_some_iff, ← find?_eq_some_iff, same]
  have : Std.Irrefl fun left right : String × α => left.1 < right.1 := ⟨fun _ => String.lt_irrefl _⟩
  have : Std.Antisymm fun left right : String × α => left.1 < right.1 :=
    ⟨fun _ _ less more => absurd (String.lt_trans less more) (String.lt_irrefl _)⟩
  have entries := first.increasing.eq_of_mem_iff second.increasing alike
  cases first
  cases second
  simpa using entries

@[simp] theorem contains_insert (value : α) :
    (table.insert name value).contains other = (decide (other = name) || table.contains other) := by
  unfold contains
  rw [find?_insert]
  by_cases same : other = name <;> simp [same]

theorem erase_insert (different : name ≠ other) (value : α) :
    (table.insert name value).erase other = (table.erase other).insert name value := by
  apply ext_find?
  intro asked
  simp only [find?_insert, find?_erase]
  grind

theorem find?_erased (names : List String) (table : NameTable α) (other : String) :
    (names.foldl erase table).find? other = if other ∈ names then none else table.find? other := by
  induction names generalizing table with
  | nil => simp
  | cons name names ih =>
    rw [List.foldl_cons, ih, find?_erase]
    grind

end NameTable

namespace Session

/-- The session with a module counted as attached. -/
def counting (session : Session σ) (name : String) : Session σ :=
  { session with shell := { session.shell with modules := session.shell.modules.insert name () } }

@[simp] theorem hasModule_counting (session : Session σ) (name other : String) :
    (session.counting name).hasModule other = (decide (other = name) || session.hasModule other) :=
  NameTable.contains_insert ()

@[simp] theorem commands_counting (session : Session σ) (name : String) :
    (session.counting name).shell.commands = session.shell.commands := rfl

/-- The session with commands unbound. -/
def without (session : Session σ) (names : List String) : Session σ :=
  names.foldl (fun session name => (session.removeCommand name).2) session

theorem without_append (session : Session σ) (names others : List String) :
    session.without (names ++ others) = (session.without names).without others :=
  List.foldl_append

@[simp] theorem hasModule_without (session : Session σ) (names : List String) :
    (session.without names).hasModule = session.hasModule := by
  induction names generalizing session with
  | nil => rfl
  | cons name names ih => exact ih (session.removeCommand name).2

theorem without_eq (session : Session σ) (names : List String) :
    session.without names = { session with shell := { session.shell with
      commands := names.foldl NameTable.erase session.shell.commands } } := by
  induction names generalizing session with
  | nil => rfl
  | cons name names ih => exact ih (session.removeCommand name).2

theorem contains_without (session : Session σ) (names : List String) (other : String) :
    (session.without names).shell.commands.contains other =
      (!decide (other ∈ names) && session.shell.commands.contains other) := by
  rw [without_eq]
  by_cases member : other ∈ names <;> simp [NameTable.contains, NameTable.find?_erased, member]

/-- In what order commands are unbound makes no difference, nor does unbinding one again. -/
theorem without_eq_of_mem_iff {names others : List String} (session : Session σ)
    (same : ∀ name, name ∈ names ↔ name ∈ others) :
    session.without names = session.without others := by
  have commands : names.foldl NameTable.erase session.shell.commands =
      others.foldl NameTable.erase session.shell.commands :=
    NameTable.ext_find? fun name => by simp only [NameTable.find?_erased, same]
  rw [without_eq, without_eq, commands]

theorem counting_without (session : Session σ) (module : String) (names : List String) :
    (session.counting module).without names = (session.without names).counting module := by
  induction names generalizing session with
  | nil => rfl
  | cons name names ih => exact ih (session.removeCommand name).2

/-- What loading a module comes to: it is counted already, its own load fails, or its load succeeds
and it is counted. -/
inductive Loads (session : Session σ) (module : Module σ) :
    Except ShellError Unit → Session σ → Prop where
  | already (counted : session.hasModule module.name = true) : Loads session module (.ok ()) session
  | failed (uncounted : session.hasModule module.name = false)
      {failure : Failure} (ran : module.load.Runs session asked (.error failure) after) :
      Loads session module (.error (.moduleLoad module.name failure)) after
  | attached (uncounted : session.hasModule module.name = false)
      (ran : module.load.Runs session asked (.ok ()) middle) :
      Loads session module (.ok ()) (middle.counting module.name)

variable {session after : Session σ}

theorem loads_of_runs {module : Module σ}
    (ran : (loadModule module).Runs session asked ended after) :
    session.Loads module ended after := by
  rw [loadModule, runs_get_bind_iff] at ran
  cases counted : session.hasModule module.name with
  | true =>
    have present : session.shell.modules.contains module.name = true := counted
    simp only [present, ↓reduceIte] at ran
    obtain ⟨_, rfl, rfl⟩ := runs_record_iff.mp ran
    exact .already counted
  | false =>
    have absent : session.shell.modules.contains module.name = false := counted
    simp only [absent, Bool.false_eq_true, ↓reduceIte] at ran
    rcases runs_bind_iff.mp ran with
      ⟨error, failed, rfl⟩ | ⟨others, _, middle, _, worked, onward, _⟩
    · obtain ⟨failure, broke, rfl⟩ := runs_mapError_error_iff.mp failed
      exact .failed counted broke
    · obtain ⟨_, rfl, rfl⟩ := runs_record_iff.mp (runs_modify_bind_iff.mp onward)
      exact .attached counted (runs_mapError_ok_iff.mp worked)

/-- The session with a command of the shell's own bound, which writes to the console of now. -/
def binding (session : Session σ) (builtin : Builtin) : Session σ :=
  { session with shell := { session.shell with
    commands := session.shell.commands.insert builtin.name
      (.builtin builtin session.shell.console) } }

theorem bindBuiltin_cases {builtin : Builtin}
    (ran : (Module.bindBuiltin builtin).Runs session asked ended after) :
    (session.shell.commands.contains builtin.name = false ∧ ended = .ok () ∧
      after = session.binding builtin) ∨
    (session.shell.commands.contains builtin.name = true ∧
      ended = .error (.shell (.alreadyBound builtin.name)) ∧ after = session) := by
  rw [Module.bindBuiltin, runs_get_bind_iff] at ran
  obtain ⟨ended, bound, rfl⟩ := runs_mapError_iff.mp ran
  rcases addCommand_cases bound with ⟨free, rfl, rfl⟩ | ⟨taken, rfl, rfl⟩
  · exact .inl ⟨free, rfl, rfl⟩
  · exact .inr ⟨taken, rfl, rfl⟩

end Session

/-- The modules that a shell can bring along. -/
inductive Stock where
  | exit
  | echo
  | defaultOutcome
  | history (limit : Nat) (path : Option String)
  deriving DecidableEq, Repr

namespace Stock

def module : Stock → Module σ
  | exit => .exit
  | echo => .echo
  | defaultOutcome => .defaultOutcome
  | history limit path => .history limit path

def name (stock : Stock) : String :=
  (stock.module : Module Unit).name

@[simp] theorem name_module (stock : Stock) : (stock.module : Module σ).name = stock.name := by
  cases stock <;> rfl

@[simp] theorem name_exit : exit.name = "cmdsh::builtin::ExitCommand" := rfl

@[simp] theorem name_echo : echo.name = "cmdsh::builtin::EchoCommand" := rfl

@[simp] theorem name_defaultOutcome : defaultOutcome.name = "cmdsh::builtin::DefaultResult" := rfl

@[simp] theorem name_history (limit : Nat) (path : Option String) :
    (history limit path).name = "cmdsh::builtin::History" := rfl

/-- The command that the module binds. -/
def builtin? : Stock → Option Builtin
  | exit => some .exit
  | echo => some .echo
  | defaultOutcome => none
  | history .. => some .hist

/-- The name that the module binds a command to. -/
def command? (stock : Stock) : Option String :=
  stock.builtin?.map Builtin.name

/-- The hooks of a session with those of the module behind them. -/
def addHooks : Stock → HookTable σ → HookTable σ
  | exit, hooks => hooks
  | echo, hooks => hooks
  | defaultOutcome, hooks =>
    { hooks with
      postexecute := hooks.postexecute ++ [⟨Module.defaultOutcomeHook, .defaultOutcome⟩] }
  | history _ path, hooks => Module.addHistoryHooks path hooks

/-- The history that the module starts, instead of the one before. -/
def startHistory : Stock → History → History
  | history limit _, _ => .ofLimit limit
  | _, before => before

/-- The session with the module's command and hooks, and with its history. -/
def attach (stock : Stock) (session : Session σ) : Session σ :=
  { session with
    shell := { session.shell with
      commands := stock.builtin?.elim session.shell.commands fun builtin =>
        session.shell.commands.insert builtin.name (.builtin builtin session.shell.console)
      hooks := stock.addHooks session.shell.hooks }
    memory := { session.memory with history := stock.startHistory session.memory.history } }

@[simp] theorem modules_attach (stock : Stock) (session : Session σ) :
    (stock.attach session).shell.modules = session.shell.modules := rfl

theorem contains_attach (stock : Stock) (session : Session σ) (name : String) :
    (stock.attach session).shell.commands.contains name =
      (session.shell.commands.contains name || decide (stock.command? = some name)) := by
  cases binds : stock.builtin? with
  | none => simp [attach, command?, binds]
  | some builtin => simp [attach, command?, binds, Bool.or_comm, eq_comm]

theorem name_eq_of_command {stock other : Stock} (binds : stock.command? = some command)
    (same : other.command? = some command) : stock.name = other.name := by
  have alike := binds.trans same.symm
  cases stock <;> cases other <;>
    first | rfl | simp [command?, builtin?, Builtin.name] at alike

/-- The name of the module's command, if it is taken. -/
def clash? (stock : Stock) (session : Session σ) : Option String :=
  stock.command?.filter session.shell.commands.contains

theorem clash?_eq_some_iff {stock : Stock} {session : Session σ} :
    stock.clash? session = some command ↔
      stock.command? = some command ∧ session.shell.commands.contains command = true :=
  Option.filter_eq_some_iff

/-- A command that is none of the module's may be unbound before it is attached as well as after. -/
theorem attach_without {stock : Stock} {names : List String} (session : Session σ)
    (apart : ∀ command, stock.command? = some command → command ∉ names) :
    (stock.attach session).without names = stock.attach (session.without names) := by
  induction names generalizing session with
  | nil => rfl
  | cons name names ih =>
    have first : ((stock.attach session).removeCommand name).2 =
        stock.attach (session.removeCommand name).2 := by
      cases binds : stock.builtin? with
      | none => simp [attach, Session.removeCommand, binds]
      | some builtin =>
        have different : builtin.name ≠ name := fun same =>
          apart builtin.name (by simp [command?, binds]) (same ▸ List.mem_cons_self)
        simp [attach, Session.removeCommand, binds, NameTable.erase_insert different]
    refine (congrArg (Session.without · names) first).trans (ih _ fun command bound member => ?_)
    exact apart command bound (List.mem_cons_of_mem _ member)

variable {session after : Session σ}

/-- The load of one of the shell's own modules attaches all of it or, if its command's name is taken,
nothing. -/
theorem load_cases {stock : Stock}
    (ran : (stock.module : Module σ).load.Runs session asked ended after) :
    (stock.clash? session = none ∧ ended = .ok () ∧ after = stock.attach session) ∨
    ∃ command, stock.clash? session = some command ∧
      ended = .error (.shell (.alreadyBound command)) ∧ after = session := by
  cases stock with
  | exit | echo =>
    rcases Session.bindBuiltin_cases ran with ⟨free, rfl, rfl⟩ | ⟨taken, rfl, rfl⟩
    · exact .inl ⟨by simp [clash?, command?, builtin?, Option.filter, free], rfl, rfl⟩
    · exact .inr ⟨_, by simp [clash?, command?, builtin?, Option.filter, taken], rfl, rfl⟩
  | defaultOutcome =>
    obtain ⟨_, rfl, rfl⟩ := runs_modify_iff.mp ran
    exact .inl ⟨rfl, rfl, rfl⟩
  | history limit path =>
    rcases runs_bind_iff.mp ran with ⟨_, failed, rfl⟩ | ⟨_, _, _, _, bound, onward, _⟩
    · rcases Session.bindBuiltin_cases failed with ⟨_, impossible, _⟩ | ⟨taken, same, rfl⟩
      · cases impossible
      · cases same
        exact .inr ⟨_, by simp [clash?, command?, builtin?, Option.filter, taken], rfl, rfl⟩
    · rcases Session.bindBuiltin_cases bound with ⟨free, _, rfl⟩ | ⟨_, impossible, _⟩
      · obtain ⟨_, rfl, rfl⟩ := runs_modify_iff.mp (runs_modify_bind_iff.mp onward)
        exact .inl ⟨by simp [clash?, command?, builtin?, Option.filter, free], rfl, rfl⟩
      · cases impossible

end Stock

end LineShell
