import LineShell.Proofs.Attaching
import LineShell.Proofs.ByteOrder
import LineShell.Proofs.ExitArguments
import LineShell.Proofs.Frame
/-!
The commands of a session form a finite map. Whatever is bound and unbound, loaded and executed, and in
whatever order, a name stands for the command of its last binding that was not refused, unless it was
unbound after that. This is what look-ups find and what lines are dispatched to.
-/

namespace LineShell

variable {σ : Type}

open LineShell.Action

/-- What is done with a session's commands, by a client or by the load of a module. What comes next may
depend on how each step ended; work of other kinds leaves the commands alone. -/
inductive CommandScript (σ : Type) where
  | done
  | fail (failure : Failure)
  | bind (name : String) (command : Command σ) (next : Except ShellError Unit → CommandScript σ)
  | unbind (name : String) (next : Bool → CommandScript σ)
  | find (name : String) (next : Option (Command σ) → CommandScript σ)
  | execute (line : String) (next : Except ShellError (Option Outcome) → CommandScript σ)
  | load (module : String) (body : CommandScript σ) (next : Except ShellError Unit → CommandScript σ)
  | work (own : Action Failure (Session σ) Unit)
      (apart : own.Leaves fun session => session.shell.commands) (next : Session σ → CommandScript σ)

/-- A step that concerns the commands, with what came of it. -/
inductive CommandDeed (σ : Type) where
  | bind (name : String) (command : Command σ) (ended : Except ShellError Unit)
  | unbind (name : String) (bound : Bool)
  | find (name : String) (found : Option (Command σ))
  | execute (line : String) (asked : List Exchange) (ended : Except ShellError (Option Outcome))

/-- A step between the session before it and the one after it. -/
structure CommandStep (σ : Type) where
  deed : CommandDeed σ
  before : Session σ
  after : Session σ

namespace CommandScript

def run : CommandScript σ → Action Failure (Session σ) Unit
  | done => pure ()
  | fail failure => throw failure
  | bind name command next => do
    let ended ← (Session.addCommand name command).result
    (next ended).run
  | unbind name next => do
    let session ← get
    modify fun session => (session.removeCommand name).2
    (next (session.removeCommand name).1).run
  | find name next => do
    let session ← get
    (next (session.shell.commands.find? name)).run
  | execute line next => do
    let ended ← (Action.ofFun fun session => session.execute line).result
    (next ended).run
  | load module body next => do
    let ended ← (Session.loadModule ⟨module, body.run⟩).result
    (next ended).run
  | work own _ next => do
    own
    (next (← get)).run

/-- A script as it was carried out, with the steps that concern the commands, those of the loads within
it among them. -/
inductive Told : CommandScript σ → Session σ → List (CommandStep σ) → Except Failure Unit →
    Session σ → Prop where
  | done : Told done session [] (.ok ()) session
  | fail {failure : Failure} : Told (fail failure) session [] (.error failure) session
  | bind (ran : (Session.addCommand name command).Runs before asked ended middle)
      (rest : Told (next ended) middle steps last after) :
      Told (bind name command next) before (⟨.bind name command ended, before, middle⟩ :: steps)
        last after
  | unbind (removed : before.removeCommand name = (bound, middle))
      (rest : Told (next bound) middle steps last after) :
      Told (unbind name next) before (⟨.unbind name bound, before, middle⟩ :: steps) last after
  | find (found : before.shell.commands.find? name = command)
      (rest : Told (next command) before steps last after) :
      Told (find name next) before (⟨.find name command, before, before⟩ :: steps) last after
  | execute (ran : (before.execute line).Runs asked (ended, middle))
      (rest : Told (next ended) middle steps last after) :
      Told (execute line next) before (⟨.execute line asked ended, before, middle⟩ :: steps)
        last after
  | already (attached : before.hasModule module = true)
      (rest : Told (next (.ok ())) before steps last after) :
      Told (load module body next) before steps last after
  | failed {failure : Failure} (new : before.hasModule module = false)
      (inside : Told body before steps (.error failure) middle)
      (rest : Told (next (.error (.moduleLoad module failure))) middle more last after) :
      Told (load module body next) before (steps ++ more) last after
  | attached (new : before.hasModule module = false)
      (inside : Told body before steps (.ok ()) middle)
      (rest : Told (next (.ok ())) (middle.counting module) more last after) :
      Told (load module body next) before (steps ++ more) last after
  | broke {failure : Failure} (apart : own.Leaves fun session => session.shell.commands)
      (ran : own.Runs before asked (.error failure) after) :
      Told (work own apart next) before [] (.error failure) after
  | worked (apart : own.Leaves fun session => session.shell.commands)
      (ran : own.Runs before asked (.ok ()) middle)
      (rest : Told (next middle) middle steps last after) :
      Told (work own apart next) before steps last after

variable {script : CommandScript σ} {before after : Session σ}

theorem told_of_runs (ran : script.run.Runs before asked ended after) :
    ∃ steps, script.Told before steps ended after := by
  induction script generalizing before asked ended after with
  | done =>
    obtain ⟨_, rfl, rfl⟩ := runs_pure_iff.mp ran
    exact ⟨[], .done⟩
  | fail failure =>
    obtain ⟨_, rfl, rfl⟩ := runs_throw_iff.mp ran
    exact ⟨[], .fail⟩
  | bind name command next ih =>
    obtain ⟨_, _, _, _, bound, onward, _⟩ := runs_result_bind_iff.mp ran
    obtain ⟨steps, rest⟩ := ih _ onward
    exact ⟨_, .bind bound rest⟩
  | unbind name next ih =>
    obtain ⟨steps, rest⟩ := ih _ (runs_modify_bind_iff.mp (runs_get_bind_iff.mp ran))
    exact ⟨_, .unbind rfl rest⟩
  | find name next ih =>
    obtain ⟨steps, rest⟩ := ih _ (runs_get_bind_iff.mp ran)
    exact ⟨_, .find rfl rest⟩
  | execute line next ih =>
    obtain ⟨_, _, _, _, executed, onward, _⟩ := runs_result_bind_iff.mp ran
    obtain ⟨steps, rest⟩ := ih _ onward
    exact ⟨_, .execute executed rest⟩
  | load module body next ihBody ihNext =>
    obtain ⟨_, _, _, _, loaded, onward, _⟩ := runs_result_bind_iff.mp ran
    obtain ⟨more, rest⟩ := ihNext _ onward
    cases Session.loads_of_runs loaded with
    | already attached => exact ⟨more, .already attached rest⟩
    | failed new broke =>
      obtain ⟨steps, inside⟩ := ihBody broke
      exact ⟨steps ++ more, .failed new inside rest⟩
    | attached new worked =>
      obtain ⟨steps, inside⟩ := ihBody worked
      exact ⟨steps ++ more, .attached new inside rest⟩
  | work own apart next ih =>
    rcases runs_bind_iff.mp ran with
      ⟨failure, broke, rfl⟩ | ⟨_, _, middle, _, worked, onward, _⟩
    · exact ⟨[], .broke apart broke⟩
    · obtain ⟨steps, rest⟩ := ih middle (runs_get_bind_iff.mp onward)
      exact ⟨steps, .worked apart worked rest⟩

end CommandScript

namespace CommandDeed

/-- The deed binds the name to the command, and is not refused. -/
def Binds (deed : CommandDeed σ) (name : String) (command : Command σ) : Prop :=
  deed = .bind name command (.ok ())

def Unbinds (deed : CommandDeed σ) (name : String) : Prop :=
  ∃ bound, deed = .unbind name bound

/-- After the deed the name stands for something else, or for nothing. -/
def Settles (deed : CommandDeed σ) (name : String) : Prop :=
  (∃ command, deed.Binds name command) ∨ deed.Unbinds name

end CommandDeed

/-- One session is another in which something else is found for one name. -/
structure Session.DiffersAt (name : String) (found : Option (Command σ)) (before after : Session σ) :
    Prop where
  here : after.shell.commands.find? name = found
  elsewhere : ∀ other, other ≠ name →
    after.shell.commands.find? other = before.shell.commands.find? other
  otherwise : after = { before with
    shell := { before.shell with commands := after.shell.commands } }

/-- A line that has got as far as a statement goes on with the command that is found for the
statement's first word. If there is none, that is the error. -/
structure Shell.Dispatches (shell : Shell σ) (line : String) (before : Memory σ)
    (exchanges : List Exchange) (ended : Except ShellError (Option Outcome)) (after : Memory σ) :
    Prop where
  found : ∀ asked later statement middle command,
    shell.Prepared line before asked statement middle → exchanges = asked ++ later →
    shell.commands.find? statement.command = some command →
      shell.Dispatched statement command middle later ended after
  missing : ∀ asked later statement middle,
    shell.Prepared line before asked statement middle → exchanges = asked ++ later →
    shell.commands.find? statement.command = none →
      ended = .error (.commandNotFound statement) ∧ later = [] ∧ after = middle

/-- What a step comes to. -/
def CommandStep.Lawful (step : CommandStep σ) : Prop :=
  match step.deed with
  | .bind name command ended =>
    (step.before.shell.commands.contains name = true →
      ended = .error (.alreadyBound name) ∧ step.after = step.before) ∧
    (step.before.shell.commands.contains name = false →
      ended = .ok () ∧ step.before.DiffersAt name (some command) step.after)
  | .unbind name bound =>
    bound = step.before.shell.commands.contains name ∧ step.before.DiffersAt name none step.after
  | .find name found => found = step.before.shell.commands.find? name ∧ step.after = step.before
  | .execute line asked ended =>
    step.after.shell = step.before.shell ∧
      step.before.shell.Dispatches line step.before.memory asked ended step.after.memory

section Steps

variable {before after : Session σ} {name : String} {command : Command σ}

theorem Session.lawful_of_addCommand
    (ran : (Session.addCommand name command).Runs before asked ended after) :
    CommandStep.Lawful ⟨.bind name command ended, before, after⟩ := by
  rcases Session.addCommand_cases ran with ⟨free, rfl, rfl⟩ | ⟨taken, rfl, rfl⟩
  · refine ⟨fun taken => ?_, fun _ => ⟨rfl, ⟨?_, fun other different => ?_, rfl⟩⟩⟩
    · cases free.symm.trans taken
    · simp [NameTable.find?_insert]
    · simp [NameTable.find?_insert, different]
  · refine ⟨fun _ => ⟨rfl, rfl⟩, fun free => ?_⟩
    cases free.symm.trans taken

theorem Session.lawful_of_removeCommand (removed : before.removeCommand name = (bound, after)) :
    CommandStep.Lawful ⟨.unbind name bound, before, after⟩ := by
  obtain ⟨rfl, rfl⟩ := Prod.mk.inj removed
  refine ⟨rfl, ⟨?_, fun other different => ?_, rfl⟩⟩
  · simp [NameTable.find?_erase]
  · simp [NameTable.find?_erase, different]

theorem Shell.Prepared.missing {shell : Shell σ} {memory left : Memory σ}
    (prepared : shell.Prepared line memory asked statement middle)
    (unbound : shell.commands.find? statement.command = none)
    (ran : (shell.execute line).Runs memory (asked ++ later) ended left) :
    ended = .error (.commandNotFound statement) ∧ later = [] ∧ left = middle := by
  have unresolved := Shell.runs_of_pipeline (.notFound ⟨prepared, unbound⟩)
  obtain ⟨same, rfl, rfl⟩ := unresolved.unique ran (List.append_nil _).symm
  exact ⟨rfl, List.self_eq_append_right.mp same, rfl⟩

theorem Session.lawful_of_execute (executed : (before.execute line).Runs asked (ended, after)) :
    CommandStep.Lawful ⟨.execute line asked ended, before, after⟩ := by
  obtain ⟨memory, ran, rfl⟩ := Session.runs_execute_iff.mp executed
  refine ⟨rfl, ⟨?found, ?missing⟩⟩
  case found =>
    rintro others later statement middle command prepared rfl bound
    obtain ⟨rest, dispatched, same⟩ := prepared.dispatched bound ran (List.append_nil _)
    rwa [List.append_cancel_left same]
  case missing =>
    rintro others later statement middle prepared rfl unbound
    exact prepared.missing unbound ran

theorem Session.DiffersAt.find?_eq {found : Option (Command σ)}
    (differs : before.DiffersAt name found after) (other : String) :
    after.shell.commands.find? other =
      if other = name then found else before.shell.commands.find? other := by
  by_cases same : other = name
  · simp [same, differs.here]
  · simp [same, differs.elsewhere other same]

/-- After a step a name stands for the command that the step binds it to, or for what it stood for
before, if the step settles nothing for it. -/
theorem CommandStep.Lawful.find?_eq_some_iff {step : CommandStep σ} (lawful : step.Lawful) :
    step.after.shell.commands.find? name = some command ↔
      step.deed.Binds name command ∨
        step.before.shell.commands.find? name = some command ∧ ¬step.deed.Settles name := by
  obtain ⟨deed, before, after⟩ := step
  unfold CommandDeed.Settles CommandDeed.Binds CommandDeed.Unbinds
  cases deed with
  | bind bound given ended =>
    cases taken : before.shell.commands.contains bound with
    | true =>
      obtain ⟨rfl, (rfl : after = before)⟩ := lawful.1 taken
      simp
    | false =>
      obtain ⟨rfl, differs⟩ := lawful.2 taken
      by_cases same : name = bound <;> simp [differs.find?_eq, same, eq_comm]
  | unbind unbound there =>
    by_cases same : name = unbound <;> simp [lawful.2.find?_eq, same, eq_comm]
  | find sought found =>
    obtain ⟨_, (rfl : after = before)⟩ := lawful
    simp
  | execute line asked ended =>
    have kept : after.shell = before.shell := lawful.1
    simp [kept]

end Steps

/-- The last of the steps that settles what the name stands for binds it to the command. -/
def LastBound (name : String) (command : Command σ) (steps : List (CommandStep σ)) : Prop :=
  ∃ front step back, steps = front ++ step :: back ∧ step.deed.Binds name command ∧
    ∀ later ∈ back, ¬later.deed.Settles name

/-- What a name stands for after steps that began with a table: the command it was last bound to, or
else what the table has for it, unless the name was unbound after that. -/
def Stands (start : NameTable (Command σ)) (steps : List (CommandStep σ)) (name : String)
    (command : Command σ) : Prop :=
  LastBound name command steps ∨
    start.find? name = some command ∧ ∀ step ∈ steps, ¬step.deed.Settles name

/-- Lawful steps, with the commands left alone between one and the next. -/
inductive Linked : NameTable (Command σ) → List (CommandStep σ) → NameTable (Command σ) → Prop where
  | nil : Linked table [] table
  | cons {step : CommandStep σ} (lawful : step.Lawful)
      (rest : Linked step.after.shell.commands steps last) :
      Linked step.before.shell.commands (step :: steps) last

section Rows

variable {first last start table : NameTable (Command σ)} {front steps back : List (CommandStep σ)}
  {step : CommandStep σ} {name : String} {command : Command σ}

theorem lastBound_concat_iff :
    LastBound name command (steps ++ [step]) ↔
      step.deed.Binds name command ∨ LastBound name command steps ∧ ¬step.deed.Settles name := by
  constructor
  · rintro ⟨front, binding, back, same, binds, unsettled⟩
    -- The step that binds is the new one, or it was there before and the new one settles nothing.
    rcases List.eq_nil_or_concat' back with rfl | ⟨back, last, rfl⟩
    · obtain ⟨rfl, alike⟩ := List.append_inj' same rfl
      obtain rfl := List.singleton_inj.mp alike
      exact .inl binds
    · rw [← List.cons_append, ← List.append_assoc] at same
      obtain ⟨rfl, alike⟩ := List.append_inj' same rfl
      obtain rfl := List.singleton_inj.mp alike
      refine .inr ⟨⟨front, binding, back, rfl, binds, fun later member => ?_⟩, ?_⟩
      · exact unsettled later (List.mem_append_left _ member)
      · exact unsettled step (List.mem_append_right _ List.mem_cons_self)
  · rintro (binds | ⟨⟨front, binding, back, rfl, binds, unsettled⟩, same⟩)
    · exact ⟨steps, step, [], rfl, binds, by simp⟩
    · refine ⟨front, binding, back ++ [step], by simp, binds, fun later member => ?_⟩
      rcases List.mem_append.mp member with old | new
      · exact unsettled later old
      · rwa [List.mem_singleton.mp new]

theorem stands_concat_iff :
    Stands start (steps ++ [step]) name command ↔
      step.deed.Binds name command ∨ Stands start steps name command ∧ ¬step.deed.Settles name := by
  unfold Stands
  rw [lastBound_concat_iff]
  simp only [List.mem_append, List.mem_singleton, or_imp, forall_and, forall_eq]
  tauto

theorem Linked.append (ahead : Linked first front table) (behind : Linked table back last) :
    Linked first (front ++ back) last := by
  induction ahead with
  | nil => exact behind
  | cons lawful _ ih => exact .cons lawful (ih behind)

theorem Linked.parts (linked : Linked first (front ++ step :: back) last) :
    Linked first front step.before.shell.commands ∧ step.Lawful := by
  induction front generalizing first with
  | nil =>
    cases linked with
    | cons lawful => exact ⟨.nil, lawful⟩
  | cons earlier front ih =>
    cases linked with
    | cons lawful rest =>
      obtain ⟨ahead, here⟩ := ih rest
      exact ⟨.cons lawful ahead, here⟩

theorem Linked.found_from (linked : Linked first steps last)
    (found : ∀ name command, first.find? name = some command ↔ Stands start front name command)
    (name : String) (command : Command σ) :
    last.find? name = some command ↔ Stands start (front ++ steps) name command := by
  -- The table before each step is what the steps ahead of it have made of the first one.
  induction linked generalizing front with
  | nil => rw [List.append_nil, found]
  | @cons steps last step lawful _ ih =>
    rw [List.append_cons]
    refine ih fun name command => ?_
    rw [stands_concat_iff, lawful.find?_eq_some_iff, found]

/-- After linked steps, what is found is what names stand for. -/
theorem Linked.found (linked : Linked first steps last) (name : String) (command : Command σ) :
    last.find? name = some command ↔ Stands first steps name command := by
  have unchanged (name : String) (command : Command σ) :
      first.find? name = some command ↔ Stands first [] name command := by
    simp [Stands, LastBound]
  exact linked.found_from unchanged name command

end Rows

/-- Bind one of the shell's own commands, and go on if that is not refused. -/
def CommandScript.binding (builtin : Builtin) (next : CommandScript σ) : CommandScript σ :=
  work (pure ()) (leaves_pure ()) fun session =>
    bind builtin.name (.builtin builtin session.shell.console) fun
      | .ok () => next
      | .error error => fail (.shell error)

namespace Stock

/-- The module's load as a script. -/
def script : Stock → CommandScript σ
  | exit => .binding .exit .done
  | echo => .binding .echo .done
  | defaultOutcome => .work Module.defaultOutcome.load (leaves_modify fun _ => rfl) fun _ => .done
  | history limit path =>
    .binding .hist <|
      .work
        (modify fun session =>
          { session with memory := { session.memory with history := .ofLimit limit } })
        (leaves_modify fun _ => rfl) fun _ =>
      .work (Session.modifyHooks (Module.addHistoryHooks path)) (leaves_modify fun _ => rfl) fun _ =>
      .done

end Stock

namespace CommandScript

variable {script : CommandScript σ} {before after : Session σ} {steps : List (CommandStep σ)}

theorem Told.linked (told : script.Told before steps ended after) :
    Linked before.shell.commands steps after.shell.commands := by
  induction told with
  | done | fail => exact .nil
  | bind ran _ rest => exact .cons (Session.lawful_of_addCommand ran) rest
  | unbind removed _ rest => exact .cons (Session.lawful_of_removeCommand removed) rest
  | find found _ rest =>
    have lawful : CommandStep.Lawful ⟨.find _ _, _, _⟩ := ⟨found.symm, rfl⟩
    exact .cons lawful rest
  | execute ran _ rest => exact .cons (Session.lawful_of_execute ran) rest
  | already _ _ rest => exact rest
  | failed _ _ _ inside rest | attached _ _ _ inside rest => exact inside.append rest
  | broke apart ran =>
    have kept := apart _ _ _ _ ran
    beta_reduce at kept
    exact kept ▸ .nil
  | worked apart ran _ rest =>
    have kept := apart _ _ _ _ ran
    beta_reduce at kept
    exact kept ▸ rest

end CommandScript

end LineShell
