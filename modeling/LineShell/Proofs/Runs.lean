import LineShell.Action
/-!
Runs: what a program asks of its surroundings, what it is answered, and what it comes to. A program
has a run for every way of answering it.
-/

namespace LineShell

variable {ε ε' σ τ α β δ : Type}

/-- A request and what it was answered with. -/
abbrev Exchange := (asked : Request) × asked.Answer

/-- A run of a program: its exchanges in order, and the value at its end. -/
inductive Program.Runs : Program α → List Exchange → α → Prop where
  | done (value : α) : Runs (.done value) [] value
  | ask {asked : Request} {next : asked.Answer → Program α} (answer : asked.Answer)
      (rest : Runs (next answer) exchanges value) :
      Runs (.ask asked next) (⟨asked, answer⟩ :: exchanges) value

namespace Program

theorem runs_pure_iff {value ended : α} :
    (pure value : Program α).Runs exchanges ended ↔ exchanges = [] ∧ ended = value := by
  constructor
  · intro ran
    cases ran
    exact ⟨rfl, rfl⟩
  · rintro ⟨rfl, rfl⟩
    exact .done _

theorem runs_pure_pair_iff {value : α} {state : σ} :
    (pure (value, state) : Program (α × σ)).Runs exchanges (ended, after) ↔
      exchanges = [] ∧ ended = value ∧ after = state := by
  rw [runs_pure_iff, Prod.mk.injEq]

theorem runs_request_iff {asked : Request} {answer : asked.Answer} :
    (request asked).Runs exchanges answer ↔ exchanges = [⟨asked, answer⟩] := by
  constructor
  · intro ran
    cases ran with
    | ask answer rest =>
      cases rest
      rfl
  · rintro rfl
    exact .ask answer (.done answer)

theorem runs_write_iff {console : ConsoleId} {channel : Channel} {text : String} :
    (write console channel text).Runs exchanges written ↔
      exchanges = [⟨.write console channel text, written⟩] :=
  runs_request_iff

theorem Runs.bind {program : Program α} {next : α → Program β}
    (first : program.Runs asked value) (second : (next value).Runs later ended) :
    (program >>= next).Runs (asked ++ later) ended := by
  induction first with
  | done value => exact second
  | ask answer rest ih => exact .ask answer (ih second)

theorem Runs.bind_pure {program : Program α} {next : α → Program β}
    (first : program.Runs exchanges value) (last : next value = pure ended) :
    (program >>= next).Runs exchanges ended := by
  rw [← List.append_nil exchanges]
  exact first.bind (last ▸ .done ended)

/-- A run of one program after another is a run of each. -/
theorem runs_bind_iff {program : Program α} {next : α → Program β} {ended : β} :
    (program >>= next).Runs exchanges ended ↔
      ∃ asked value later, program.Runs asked value ∧ (next value).Runs later ended ∧
        exchanges = asked ++ later := by
  constructor
  · intro ran
    induction program generalizing exchanges with
    | done value => exact ⟨[], value, exchanges, .done value, ran, rfl⟩
    | ask request rest ih =>
      cases ran with
      | ask answer ran =>
        obtain ⟨asked, value, later, first, second, rfl⟩ := ih answer ran
        exact ⟨_, value, later, .ask answer first, second, rfl⟩
  · rintro ⟨asked, value, later, first, second, rfl⟩
    exact first.bind second

theorem runs_map_iff (program : Program α) (change : α → β) {ended : β} :
    (program >>= fun value => pure (change value)).Runs exchanges ended ↔
      ∃ value, program.Runs exchanges value ∧ ended = change value := by
  constructor
  · intro changed
    obtain ⟨asked, value, later, ran, finished, rfl⟩ := runs_bind_iff.mp changed
    obtain ⟨rfl, rfl⟩ := runs_pure_iff.mp finished
    exact ⟨value, by rwa [List.append_nil], rfl⟩
  · rintro ⟨value, ran, rfl⟩
    exact ran.bind_pure rfl

theorem runs_mapBoth_iff (program : Program (α × σ)) (first : α → β) (second : σ → τ) :
    (program >>= fun found => pure (first found.1, second found.2)).Runs exchanges (ended, after) ↔
      ∃ value state, program.Runs exchanges (value, state) ∧ ended = first value ∧
        after = second state := by
  rw [runs_map_iff program fun found => (first found.1, second found.2)]
  constructor
  · intro ⟨found, ran, same⟩
    obtain ⟨left, right⟩ := Prod.mk.inj same
    exact ⟨found.1, found.2, ran, left, right⟩
  · intro ⟨value, state, ran, left, right⟩
    exact ⟨(value, state), ran, Prod.ext left right⟩

/-- A program that is answered in the same way runs in the same way. -/
theorem Runs.unique {program : Program α} (first : program.Runs asked value)
    (second : program.Runs others ended) (same : asked ++ rest = others ++ more) :
    asked = others ∧ value = ended := by
  induction first generalizing others with
  | done value =>
    cases second
    exact ⟨rfl, rfl⟩
  | ask answer onward ih =>
    cases second with
    | ask other further =>
      obtain ⟨alike, later⟩ := List.cons.inj same
      obtain rfl : answer = other := eq_of_heq (Sigma.mk.inj alike).2
      obtain ⟨rfl, rfl⟩ := ih further later
      exact ⟨rfl, rfl⟩

/-- The exchanges of a program with surroundings that answer its requests. -/
def exchangesWith (answer : (asked : Request) → τ → asked.Answer × τ) : Program α → τ → List Exchange
  | done _, _ => []
  | ask asked next, state =>
    let (reply, after) := answer asked state
    ⟨asked, reply⟩ :: (next reply).exchangesWith answer after

/-- Whatever the surroundings, a program runs on them. -/
theorem runs_run (answer : (asked : Request) → τ → asked.Answer × τ) (program : Program α)
    (state : τ) : program.Runs (program.exchangesWith answer state) (program.run answer state).1 := by
  induction program generalizing state with
  | done value => exact .done value
  | ask asked next ih => exact .ask _ (ih _ _)

/-- The surroundings answer requests, one after the other, as in the exchanges. -/
inductive Answered (answer : (asked : Request) → τ → asked.Answer × τ) :
    τ → List Exchange → τ → Prop where
  | none : Answered answer state [] state
  | next {asked : Request} {reply : asked.Answer} (given : answer asked state = (reply, middle))
      (rest : Answered answer middle exchanges after) :
      Answered answer state (⟨asked, reply⟩ :: exchanges) after

theorem answered_run (answer : (asked : Request) → τ → asked.Answer × τ) (program : Program α)
    (state : τ) :
    Answered answer state (program.exchangesWith answer state) (program.run answer state).2 := by
  induction program generalizing state with
  | done value => exact .none
  | ask asked next ih => exact .next rfl (ih _ _)

theorem Answered.split {answer : (asked : Request) → τ → asked.Answer × τ}
    {state after : τ} {front back : List Exchange}
    (answered : Answered answer state (front ++ back) after) :
    ∃ middle, Answered answer state front middle ∧
      Answered answer middle back after := by
  induction front generalizing state with
  | nil => exact ⟨state, .none, answered⟩
  | cons first front ih =>
    cases answered with
    | next given rest =>
      obtain ⟨middle, reached, onward⟩ := ih rest
      exact ⟨middle, .next given reached, onward⟩

/-- A run that is answered as the surroundings answer is the run on these surroundings. -/
theorem Runs.run_eq {answer : (asked : Request) → τ → asked.Answer × τ} {program : Program α}
    {state : τ} (ran : program.Runs exchanges value) (answered : Answered answer state exchanges after) :
    program.run answer state = (value, after) ∧
      program.exchangesWith answer state = exchanges := by
  induction ran generalizing state with
  | done value =>
    cases answered
    exact ⟨rfl, rfl⟩
  | ask reply rest ih =>
    cases answered with
    | next given later =>
      obtain ⟨ended, asked⟩ := ih later
      simp only [run, exchangesWith, given]
      exact ⟨ended, congrArg (_ :: ·) asked⟩

end Program

/-- A run of an action: the state before it, its exchanges, its result and the state after it. -/
def Action.Runs (action : Action ε σ α) (before : σ) (exchanges : List Exchange)
    (ended : Except ε α) (after : σ) : Prop :=
  (action.runFrom before).Runs exchanges (ended, after)

namespace Action

theorem runs_pure_iff {value : α} :
    (pure value : Action ε σ α).Runs before exchanges ended after ↔
      exchanges = [] ∧ ended = .ok value ∧ after = before := by
  rw [Runs, runFrom_pure, Program.runs_pure_pair_iff]

theorem runs_throw_iff {error : ε} :
    (throw error : Action ε σ α).Runs before exchanges ended after ↔
      exchanges = [] ∧ ended = .error error ∧ after = before := by
  rw [Runs, runFrom_throw, Program.runs_pure_pair_iff]

theorem runs_get_bind_iff {next : σ → Action ε σ β} :
    (get >>= next).Runs before exchanges ended after ↔
      (next before).Runs before exchanges ended after := by
  rw [Runs, runFrom_bind, runFrom_get, pure_bind, Runs]

theorem Runs.unique {action : Action ε σ α} (first : action.Runs before asked ended after)
    (second : action.Runs before others found last) (same : asked ++ rest = others ++ more) :
    asked = others ∧ ended = found ∧ after = last := by
  obtain ⟨alike, both⟩ := Program.Runs.unique first second same
  exact ⟨alike, Prod.mk.inj both⟩

theorem Runs.bind {action : Action ε σ α} {next : α → Action ε σ β}
    (first : action.Runs before asked (.ok value) middle)
    (second : (next value).Runs middle later ended after) :
    (action >>= next).Runs before (asked ++ later) ended after := by
  rw [Runs, runFrom_bind]
  exact Program.Runs.bind first second

theorem Runs.bind_error {action : Action ε σ α} {next : α → Action ε σ β}
    (first : action.Runs before exchanges (.error error) after) :
    (action >>= next).Runs before exchanges (.error error) after := by
  rw [Runs, runFrom_bind]
  exact Program.Runs.bind_pure first rfl

/-- One action after another fails with the first, or goes on with the second where the first
ended. -/
theorem runs_bind_iff {action : Action ε σ α} {next : α → Action ε σ β} :
    (action >>= next).Runs before exchanges ended after ↔
      (∃ error, action.Runs before exchanges (.error error) after ∧ ended = .error error) ∨
      ∃ asked value middle later, action.Runs before asked (.ok value) middle ∧
        (next value).Runs middle later ended after ∧ exchanges = asked ++ later := by
  constructor
  · intro ran
    rw [Runs, runFrom_bind, Program.runs_bind_iff] at ran
    obtain ⟨asked, ⟨outcome, middle⟩, later, first, second, rfl⟩ := ran
    cases outcome with
    | error error =>
      obtain ⟨rfl, rfl, rfl⟩ := Program.runs_pure_pair_iff.mp second
      rw [List.append_nil]
      exact .inl ⟨error, first, rfl⟩
    | ok value => exact .inr ⟨asked, value, middle, later, first, second, rfl⟩
  · rintro (⟨error, first, rfl⟩ | ⟨asked, value, middle, later, first, second, rfl⟩)
    · exact first.bind_error
    · exact first.bind second

theorem runs_ofTotal_iff {step : StateT σ Program α} {ended : Except ε α} :
    (ofTotal step).Runs before exchanges ended after ↔
      ∃ value, (step before).Runs exchanges (value, after) ∧ ended = .ok value := by
  refine (Program.runs_mapBoth_iff (step before) Except.ok id).trans ?_
  constructor
  · rintro ⟨value, _, ran, rfl, rfl⟩
    exact ⟨value, ran, rfl⟩
  · rintro ⟨value, ran, rfl⟩
    exact ⟨value, after, ran, rfl, rfl⟩

theorem runs_attempt_iff {wrap : δ → ε} {program : Program (Except δ α)} {before : σ} :
    (attempt wrap program).Runs before exchanges ended after ↔
      ∃ outcome, program.Runs exchanges outcome ∧ ended = outcome.mapError wrap ∧
        after = before := by
  refine (Program.runs_map_iff program fun outcome => (outcome.mapError wrap, before)).trans ?_
  simp only [Prod.mk.injEq]

theorem runs_mapError_iff {wrap : ε → ε'} {action : Action ε σ α} :
    (action.mapError wrap).Runs before exchanges ended after ↔
      ∃ outcome, action.Runs before exchanges outcome after ∧ ended = outcome.mapError wrap := by
  refine (Program.runs_mapBoth_iff (action.runFrom before) (Except.mapError wrap) id).trans ?_
  constructor
  · rintro ⟨outcome, middle, ran, rfl, rfl⟩
    exact ⟨outcome, ran, rfl⟩
  · rintro ⟨outcome, ran, rfl⟩
    exact ⟨outcome, after, ran, rfl, rfl⟩

theorem runs_mapError_ok_iff {wrap : ε → ε'} {action : Action ε σ α} {value : α} :
    (action.mapError wrap).Runs before exchanges (.ok value) after ↔
      action.Runs before exchanges (.ok value) after := by
  rw [runs_mapError_iff]
  constructor
  · rintro ⟨outcome, ran, same⟩
    cases outcome with
    | error error => cases same
    | ok found => exact Except.ok.inj same ▸ ran
  · intro ran
    exact ⟨.ok value, ran, rfl⟩

theorem runs_mapError_error_iff {wrap : ε → ε'} {action : Action ε σ α} {error : ε'} :
    (action.mapError wrap).Runs before exchanges (.error error) after ↔
      ∃ cause, action.Runs before exchanges (.error cause) after ∧ error = wrap cause := by
  rw [runs_mapError_iff]
  constructor
  · rintro ⟨outcome, ran, same⟩
    cases outcome with
    | error cause => exact ⟨cause, ran, Except.error.inj same⟩
    | ok found => cases same
  · rintro ⟨cause, ran, rfl⟩
    exact ⟨.error cause, ran, rfl⟩

theorem runs_onPart_iff {part : τ → σ} {withPart : τ → σ → τ} {action : Action ε σ α} :
    (action.onPart part withPart).Runs before exchanges ended after ↔
      ∃ changed, action.Runs (part before) exchanges ended changed ∧
        after = withPart before changed := by
  refine (Program.runs_mapBoth_iff (action.runFrom (part before)) id (withPart before)).trans ?_
  constructor
  · rintro ⟨outcome, changed, ran, rfl, rfl⟩
    exact ⟨changed, ran, rfl⟩
  · rintro ⟨changed, ran, rfl⟩
    exact ⟨ended, changed, ran, rfl, rfl⟩

theorem runs_result_iff {action : Action ε σ α} {ended : Except ε' (Except ε α)} :
    action.result.Runs before exchanges ended after ↔
      ∃ outcome, action.Runs before exchanges outcome after ∧ ended = .ok outcome := by
  refine (Program.runs_mapBoth_iff (action.runFrom before) Except.ok id).trans ?_
  constructor
  · rintro ⟨outcome, middle, ran, rfl, rfl⟩
    exact ⟨outcome, ran, rfl⟩
  · rintro ⟨outcome, ran, rfl⟩
    exact ⟨outcome, after, ran, rfl, rfl⟩

theorem runs_result_bind_iff {action : Action ε σ α} {next : Except ε α → Action ε' σ β} :
    (action.result >>= next).Runs before exchanges ended after ↔
      ∃ asked outcome middle later, action.Runs before asked outcome middle ∧
        (next outcome).Runs middle later ended after ∧ exchanges = asked ++ later := by
  rw [runs_bind_iff]
  constructor
  · rintro (⟨_, failed, _⟩ | ⟨asked, _, middle, later, worked, onward, rfl⟩)
    · obtain ⟨_, _, impossible⟩ := runs_result_iff.mp failed
      cases impossible
    · obtain ⟨_, ran, same⟩ := runs_result_iff.mp worked
      cases same
      exact ⟨asked, _, middle, later, ran, onward, rfl⟩
  · rintro ⟨asked, outcome, middle, later, ran, onward, rfl⟩
    exact .inr ⟨asked, outcome, middle, later, runs_result_iff.mpr ⟨outcome, ran, rfl⟩, onward, rfl⟩

theorem runs_map_iff {change : α → β} {action : Action ε σ α} :
    (change <$> action).Runs before exchanges ended after ↔
      ∃ outcome, action.Runs before exchanges outcome after ∧ ended = outcome.map change := by
  rw [map_eq_pure_bind, runs_bind_iff]
  constructor
  · rintro (⟨error, ran, rfl⟩ | ⟨asked, value, middle, later, ran, finished, rfl⟩)
    · exact ⟨.error error, ran, rfl⟩
    · obtain ⟨rfl, rfl, rfl⟩ := runs_pure_iff.mp finished
      exact ⟨.ok value, by rwa [List.append_nil], rfl⟩
  · rintro ⟨outcome, ran, rfl⟩
    cases outcome with
    | error error => exact .inl ⟨error, ran, rfl⟩
    | ok value =>
      exact .inr ⟨exchanges, value, after, [], ran, runs_pure_iff.mpr ⟨rfl, rfl, rfl⟩,
        (List.append_nil _).symm⟩

theorem runs_bind_pure_iff {change : α → β} {action : Action ε σ α} :
    (action >>= fun value => pure (change value)).Runs before exchanges ended after ↔
      ∃ outcome, action.Runs before exchanges outcome after ∧ ended = outcome.map change := by
  rw [← map_eq_pure_bind]
  exact runs_map_iff

/-- The exchange that keeps a record. -/
def recorded (level : Log.Level) (target text : String) : Exchange :=
  ⟨.record { level, target, text }, ()⟩

theorem runs_ofProgram_iff {program : Program α} {before : σ} {ended : Except ε α} :
    (ofProgram program).Runs before exchanges ended after ↔
      ∃ value, program.Runs exchanges value ∧ ended = .ok value ∧ after = before := by
  refine (Program.runs_map_iff program fun value => (Except.ok value, before)).trans ?_
  simp only [Prod.mk.injEq]

theorem runs_record_iff {level : Log.Level} {target text : String} {before : σ} :
    (record level target text : Action ε σ Unit).Runs before exchanges ended after ↔
      exchanges = [recorded level target text] ∧ ended = .ok () ∧ after = before := by
  rw [record, runs_ofProgram_iff]
  constructor
  · intro ⟨_, ran, same⟩
    exact ⟨Program.runs_request_iff.mp ran, same⟩
  · intro ⟨asked, same⟩
    exact ⟨(), Program.runs_request_iff.mpr asked, same⟩

theorem runs_record_bind_iff {level : Log.Level} {target text : String}
    {next : Unit → Action ε σ β} :
    (record level target text >>= next).Runs before exchanges ended after ↔
      ∃ later, (next ()).Runs before later ended after ∧
        exchanges = recorded level target text :: later := by
  rw [runs_bind_iff]
  constructor
  · rintro (⟨error, ran, _⟩ | ⟨asked, value, middle, later, ran, rest, rfl⟩)
    · cases (runs_record_iff.mp ran).2.1
    · obtain ⟨rfl, _, rfl⟩ := runs_record_iff.mp ran
      exact ⟨later, rest, rfl⟩
  · rintro ⟨later, ran, rfl⟩
    exact .inr ⟨_, (), before, later, runs_record_iff.mpr ⟨rfl, rfl, rfl⟩, ran, rfl⟩

end Action

end LineShell
