import LineShell.Proofs.Alike
/-!
Programs without their logs. What a program asks for besides keeping records is what is left of it,
and it comes to the same.
-/

namespace LineShell

variable {ε ε' σ τ α β δ : Type}

/-- An exchange, unless it keeps a record. -/
def Exchange.spoken? : Exchange → Option Exchange
  | ⟨.record _, _⟩ => none
  | exchange => some exchange

namespace Program

/-- The program without its requests to keep records. -/
def unlogged : Program α → Program α
  | done value => done value
  | ask (.record _) next => (next ()).unlogged
  | ask (.write console channel text) next =>
    ask (.write console channel text) fun answer => (next answer).unlogged
  | ask (.load path) next => ask (.load path) fun answer => (next answer).unlogged
  | ask (.save path content) next => ask (.save path content) fun answer => (next answer).unlogged
  | ask (.startLog threshold path) next =>
    ask (.startLog threshold path) fun answer => (next answer).unlogged

/-- Whatever the program is answered, it asks only for what is allowed. -/
def Asks (allowed : Request → Prop) : Program α → Prop
  | done _ => True
  | ask asked next => allowed asked ∧ ∀ answer, (next answer).Asks allowed

variable {allowed wider : Request → Prop}

@[simp] theorem unlogged_pure (value : α) : (pure value : Program α).unlogged = pure value := rfl

@[simp] theorem unlogged_load (path : String) : (load path).unlogged = load path := rfl

@[simp] theorem unlogged_bind (program : Program α) (next : α → Program β) :
    (program >>= next).unlogged = program.unlogged >>= fun value => (next value).unlogged := by
  induction program with
  | done value => rfl
  | ask asked rest ih =>
    cases asked with
    | record entry => exact ih ()
    | write | load | save | startLog => exact congrArg (ask _) (funext ih)

theorem unlogged_mapM (programs : α → Program β) (values : List α) :
    (values.mapM programs).unlogged = values.mapM fun value => (programs value).unlogged := by
  induction values with
  | nil => rfl
  | cons first later ih => simp only [List.mapM_cons, unlogged_bind, ih, unlogged_pure]

theorem Asks.bind {program : Program α} {next : α → Program β} (first : program.Asks allowed)
    (onward : ∀ value, (next value).Asks allowed) : (program >>= next).Asks allowed := by
  induction program with
  | done value => exact onward value
  | ask asked rest ih => exact ⟨first.1, fun answer => ih answer (first.2 answer)⟩

theorem Asks.map {program : Program α} (change : α → β) (asks : program.Asks allowed) :
    (change <$> program).Asks allowed := by
  rw [← bind_pure_comp]
  exact asks.bind fun _ => trivial

theorem Asks.mono {program : Program α} (asks : program.Asks allowed)
    (less : ∀ asked, allowed asked → wider asked) : program.Asks wider := by
  induction program with
  | done value => trivial
  | ask asked rest ih => exact ⟨less asked asks.1, fun answer => ih answer (asks.2 answer)⟩

theorem Asks.mapM {programs : α → Program β} {values : List α}
    (asks : ∀ value ∈ values, (programs value).Asks allowed) : (values.mapM programs).Asks allowed := by
  induction values with
  | nil => trivial
  | cons first later ih =>
    rw [List.mapM_cons]
    have rest := ih fun value member => asks value (List.mem_cons_of_mem first member)
    exact (asks first List.mem_cons_self).bind fun _ => rest.bind fun _ => trivial

/-- A program without its log runs as the program does, but for keeping records. -/
theorem runs_unlogged_iff {program : Program α} :
    program.unlogged.Runs spoken value ↔
      ∃ exchanges, program.Runs exchanges value ∧ spoken = exchanges.filterMap Exchange.spoken? := by
  induction program generalizing spoken with
  | done final =>
    constructor
    · intro ran
      cases ran
      exact ⟨[], .done _, rfl⟩
    · rintro ⟨_, ran, rfl⟩
      cases ran
      exact .done _
  | ask asked next ih =>
    have told : (∃ exchanges, (ask asked next).Runs exchanges value ∧
          spoken = exchanges.filterMap Exchange.spoken?) ↔
        ∃ answer exchanges, (next answer).Runs exchanges value ∧
          spoken = (⟨asked, answer⟩ :: exchanges).filterMap Exchange.spoken? := by
      constructor
      · rintro ⟨_, ran, rfl⟩
        cases ran with
        | ask answer rest => exact ⟨answer, _, rest, rfl⟩
      · rintro ⟨answer, exchanges, rest, rfl⟩
        exact ⟨_, .ask answer rest, rfl⟩
    rw [told]
    cases asked with
    | record entry =>
      exact (ih ()).trans ⟨fun ⟨exchanges, rest, same⟩ => ⟨(), exchanges, rest, same⟩,
        fun ⟨(), exchanges, rest, same⟩ => ⟨exchanges, rest, same⟩⟩
    | write | load | save | startLog =>
      constructor
      · intro ran
        cases ran with
        | ask answer rest =>
          obtain ⟨exchanges, onward, rfl⟩ := (ih answer).mp rest
          exact ⟨answer, exchanges, onward, rfl⟩
      · rintro ⟨answer, exchanges, rest, rfl⟩
        exact .ask answer ((ih answer).mpr ⟨exchanges, rest, rfl⟩)

/-- Programs are the same without their logs if for each run of the one there is a run of the other
that differs in keeping records only. -/
theorem unlogged_eq_of_runs {first second : Program α}
    (follows : ∀ exchanges value, first.Runs exchanges value → ∃ others, second.Runs others value ∧
      exchanges.filterMap Exchange.spoken? = others.filterMap Exchange.spoken?) :
    first.unlogged = second.unlogged := by
  refine (alike_of_runs fun spoken value ran => ⟨value, ?_, rfl⟩).eq
  obtain ⟨exchanges, logged, rfl⟩ := runs_unlogged_iff.mp ran
  obtain ⟨others, alike, same⟩ := follows exchanges value logged
  exact runs_unlogged_iff.mpr ⟨others, alike, same⟩

end Program

namespace Action

theorem runFrom_map (change : α → β) (action : Action ε σ α) (state : σ) :
    (change <$> action).runFrom state =
      (fun result => (result.1.map change, result.2)) <$> action.runFrom state := by
  rw [← bind_pure_comp, ← bind_pure_comp, runFrom_bind]
  refine congrArg (Bind.bind _) (funext fun result => ?_)
  obtain ⟨result, after⟩ := result
  cases result <;> rfl

theorem unlogged_runFrom_record_bind (level : Log.Level) (target text : String)
    (next : Unit → Action ε σ α) (state : σ) :
    ((record level target text >>= next).runFrom state).unlogged =
      ((next ()).runFrom state).unlogged := rfl

end Action

end LineShell
