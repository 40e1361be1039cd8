import LineShell.Program
/-!
Actions: programs that may fail and that keep a state, which a failure does not undo. The lemmas
say what each way of making an action does when it is run from a state.
-/

namespace LineShell

/-- A program over a state that ends in a value or an error. -/
abbrev Action (ε σ α : Type) : Type :=
  ExceptT ε (StateT σ Program) α

namespace Action

variable {ε ε' σ τ α β δ : Type}

/-- The action that a function of the state describes. -/
def ofFun (step : σ → Program (Except ε α × σ)) : Action ε σ α :=
  ExceptT.mk step

def runFrom (action : Action ε σ α) (state : σ) : Program (Except ε α × σ) :=
  StateT.run (ExceptT.run action) state

/-- Actions that do the same from every state are the same. -/
theorem ext {first second : Action ε σ α}
    (same : ∀ state, first.runFrom state = second.runFrom state) : first = second :=
  funext same

@[simp] theorem runFrom_ofFun (step : σ → Program (Except ε α × σ)) (state : σ) :
    (ofFun step).runFrom state = step state := rfl

@[simp] theorem runFrom_pure (value : α) (state : σ) :
    (pure value : Action ε σ α).runFrom state = pure (.ok value, state) := rfl

@[simp] theorem runFrom_throw (error : ε) (state : σ) :
    (throw error : Action ε σ α).runFrom state = pure (.error error, state) := rfl

/-- One action after another: the second runs from where the first ended, unless that failed. -/
theorem runFrom_bind (action : Action ε σ α) (next : α → Action ε σ β) (state : σ) :
    (action >>= next).runFrom state =
      action.runFrom state >>= fun result =>
        match result with
        | (.ok value, after) => (next value).runFrom after
        | (.error error, after) => pure (.error error, after) := by
  refine congrArg (action.runFrom state >>= ·) (funext fun result => ?_)
  rcases result with ⟨_ | _, _⟩ <;> rfl

@[simp] theorem runFrom_get (state : σ) :
    (get : Action ε σ σ).runFrom state = pure (.ok state, state) := rfl

@[simp] theorem runFrom_set (state after : σ) :
    (set after : Action ε σ PUnit).runFrom state = pure (.ok ⟨⟩, after) := rfl

@[simp] theorem runFrom_modify (change : σ → σ) (state : σ) :
    (modify change : Action ε σ PUnit).runFrom state = pure (.ok ⟨⟩, change state) := rfl

/-- The action of a program that does not fail. -/
def ofProgram (program : Program α) : Action ε σ α :=
  ofFun fun state => do return (.ok (← program), state)

/-- The action of a computation on the state that does not fail. -/
def ofTotal (step : StateT σ Program α) : Action ε σ α :=
  ofFun fun state => do
    let (value, after) ← step.run state
    return (.ok value, after)

/-- The action of a program that may fail, with its errors made errors of the action. -/
def attempt (wrap : δ → ε) (program : Program (Except δ α)) : Action ε σ α :=
  ofFun fun state => do return ((← program).mapError wrap, state)

def mapError (wrap : ε → ε') (action : Action ε σ α) : Action ε' σ α :=
  ofFun fun state => do
    let (result, after) ← action.runFrom state
    return (result.mapError wrap, after)

/-- Let an action work on a part of a larger state. -/
def onPart (part : τ → σ) (withPart : τ → σ → τ) (action : Action ε σ α) : Action ε τ α :=
  ofFun fun state => do
    let (result, after) ← action.runFrom (part state)
    return (result, withPart state after)

def result (action : Action ε σ α) : Action ε' σ (Except ε α) :=
  ofFun fun state => do
    let (result, after) ← action.runFrom state
    return (.ok result, after)

def record (level : Log.Level) (target text : String) : Action ε σ Unit :=
  ofProgram (Program.record level target text)

end Action

end LineShell
