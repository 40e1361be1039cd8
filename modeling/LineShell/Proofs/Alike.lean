import LineShell.Proofs.Runs
/-!
Programs that differ only in what they come to: they ask for the same, however they are answered.
-/

namespace LineShell

variable {ε σ τ α β γ δ : Type}

/-- The programs ask for the same, however they are answered, and what they come to is related. -/
inductive Program.Alike (related : α → β → Prop) : Program α → Program β → Prop where
  | done (both : related value other) : Alike related (.done value) (.done other)
  | ask {asked : Request} {next : asked.Answer → Program α} {after : asked.Answer → Program β}
      (onward : ∀ answer, Alike related (next answer) (after answer)) :
      Alike related (.ask asked next) (.ask asked after)

/-- Some answer to a request. -/
def Request.anyAnswer : (asked : Request) → asked.Answer
  | .write .. => .ok ()
  | .load _ => .ok []
  | .save .. => .ok ()
  | .record _ => ()
  | .startLog .. => .ok ()

namespace Program

variable {related : α → β → Prop} {first : Program α} {second : Program β}

theorem Alike.refl (program : Program α) : program.Alike Eq program := by
  induction program with
  | done value => exact .done rfl
  | ask asked next ih => exact .ask ih

theorem Alike.bind {wanted : γ → δ → Prop} {next : α → Program γ} {after : β → Program δ}
    (alike : first.Alike related second)
    (onward : ∀ value other, related value other → (next value).Alike wanted (after other)) :
    (first >>= next).Alike wanted (second >>= after) := by
  induction alike with
  | done both => exact onward _ _ both
  | ask _ ih => exact .ask ih

theorem Alike.eq {other : Program α} (alike : Program.Alike Eq first other) : first = other := by
  induction alike with
  | done both => rw [both]
  | ask _ ih => exact congrArg _ (funext ih)

/-- On the same surroundings, the programs come to what is related, and leave them the same. -/
theorem Alike.run (alike : first.Alike related second)
    (answer : (asked : Request) → τ → asked.Answer × τ) (surroundings : τ) :
    related (first.run answer surroundings).1 (second.run answer surroundings).1 ∧
      (first.run answer surroundings).2 = (second.run answer surroundings).2 ∧
      first.exchangesWith answer surroundings = second.exchangesWith answer surroundings := by
  induction alike generalizing surroundings with
  | done both => exact ⟨both, rfl, rfl⟩
  | ask onward ih =>
    obtain ⟨ended, left, asked⟩ := ih (answer _ surroundings).1 (answer _ surroundings).2
    exact ⟨ended, left, congrArg (_ :: ·) asked⟩

theorem exists_runs (program : Program α) : ∃ exchanges value, program.Runs exchanges value :=
  ⟨_, _, runs_run (fun asked (_ : Unit) => (asked.anyAnswer, ())) program ()⟩

theorem runs_run_pair (answer : (asked : Request) → τ → asked.Answer × τ) (program : Program (α × β))
    (surroundings : τ) :
    program.Runs (program.exchangesWith answer surroundings)
      ((program.run answer surroundings).1.1, (program.run answer surroundings).1.2) :=
  runs_run answer program surroundings

/-- Programs are alike if for each run of the one there is a run of the other, in which the same is
asked and answered and which comes to something related. -/
theorem alike_of_runs
    (follows : ∀ exchanges value, first.Runs exchanges value →
      ∃ other, second.Runs exchanges other ∧ related value other) :
    first.Alike related second := by
  induction first generalizing second with
  | done value =>
    obtain ⟨other, ran, both⟩ := follows [] value (.done value)
    cases ran
    exact .done both
  | ask asked next ih =>
    obtain ⟨exchanges, value, some⟩ := (next asked.anyAnswer).exists_runs
    obtain ⟨_, other, _⟩ := follows _ _ (.ask asked.anyAnswer some)
    cases other with
    | ask answer rest =>
      refine .ask fun answer => ih answer fun exchanges value ran => ?_
      obtain ⟨_, other, both⟩ := follows _ _ (.ask answer ran)
      cases other with
      | ask answer rest => exact ⟨_, rest, both⟩

end Program

/-- From states that are related, the actions ask for the same, come to the same result, and leave
states that are related again. -/
def Action.Alike (related : σ → τ → Prop) (first : Action ε σ α) (second : Action ε τ α) : Prop :=
  ∀ state other, related state other →
    (first.runFrom state).Alike (fun left right => left.1 = right.1 ∧ related left.2 right.2)
      (second.runFrom other)

namespace Action

variable {related : σ → τ → Prop}

theorem alike_pure (value : α) :
    Alike related (pure value : Action ε σ α) (pure value : Action ε τ α) :=
  fun _ _ both => .done ⟨rfl, both⟩

theorem alike_modify {change : σ → σ} {other : τ → τ}
    (kept : ∀ state last, related state last → related (change state) (other last)) :
    Alike related (modify change : Action ε σ PUnit) (modify other : Action ε τ PUnit) :=
  fun state last both => .done ⟨rfl, kept state last both⟩

theorem Alike.bind {first : Action ε σ α} {second : Action ε τ α} {next : α → Action ε σ β}
    {after : α → Action ε τ β} (alike : Alike related first second)
    (onward : ∀ value, Alike related (next value) (after value)) :
    Alike related (first >>= next) (second >>= after) := by
  intro state other both
  rw [runFrom_bind, runFrom_bind]
  apply (alike state other both).bind
  rintro ⟨ended, left⟩ ⟨_, right⟩ ⟨rfl, still⟩
  cases ended with
  | error error => exact .done ⟨rfl, still⟩
  | ok value => exact onward value left right still

theorem alike_get_bind {next : σ → Action ε σ β} {after : τ → Action ε τ β}
    (onward : ∀ state other, related state other → Alike related (next state) (after other)) :
    Alike related (get >>= next) (get >>= after) := by
  intro state other both
  rw [runFrom_bind, runFrom_bind]
  exact onward state other both state other both

theorem Alike.mapError {first : Action ε σ α} {second : Action ε τ α} (wrap : ε → δ)
    (alike : Alike related first second) :
    Alike related (first.mapError wrap) (second.mapError wrap) := by
  intro state other both
  apply (alike state other both).bind
  rintro ⟨ended, left⟩ ⟨_, right⟩ ⟨rfl, still⟩
  exact .done ⟨rfl, still⟩

theorem alike_attempt (wrap : δ → ε) (program : Program (Except δ α)) :
    Alike related (attempt wrap program : Action ε σ α) (attempt wrap program : Action ε τ α) := by
  intro state other both
  apply (Program.Alike.refl program).bind
  rintro value _ rfl
  exact .done ⟨rfl, both⟩

theorem alike_record (level : Log.Level) (target text : String) :
    Alike related (record level target text : Action ε σ Unit)
      (record level target text : Action ε τ Unit) := by
  intro state other both
  apply (Program.Alike.refl (Program.record level target text)).bind
  rintro value _ rfl
  exact .done ⟨rfl, both⟩

end Action

end LineShell
