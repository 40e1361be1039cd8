import LineShell.Module
import LineShell.Proofs.Calls
/-!
Registering hooks. Whatever is registered and run, and in whatever order, the hooks at a point are
those that were accepted there, and a run of the point calls them from the front, up to the first
that fails.
-/

namespace LineShell

variable {σ κ β : Type}

/-- Which hooks fit which points. -/
inductive HookAction.Fits : HookAction σ → HookPoint → Prop where
  | preloop (hook : LoopHook σ) : Fits (.onLoop hook) .preloop
  | postloop (hook : LoopHook σ) : Fits (.onLoop hook) .postloop
  | postparse (hook : StatementHook σ) : Fits (.onStatement hook) .postparse
  | postexecute (hook : OutcomeHook σ) : Fits (.onOutcome hook) .postexecute

theorem HookAction.fits_iff {action : HookAction σ} {point : HookPoint} :
    action.Fits point ↔ action.kind = point.kind := by
  constructor
  · intro fits
    cases fits <;> rfl
  · intro same
    cases action <;> cases point <;> first | constructor | cases same

instance (action : HookAction σ) (point : HookPoint) : Decidable (action.Fits point) :=
  decidable_of_iff _ HookAction.fits_iff.symm

theorem HookKind.signature_inj {kind other : HookKind} :
    kind.signature = other.signature ↔ kind = other := by
  cases kind <;> cases other <;> simp [signature]

/-- A hook for a point as one of any kind. -/
def HookPoint.wrap : (point : HookPoint) → point.Fitting σ → HookAction σ
  | .preloop, hook => .onLoop hook
  | .postloop, hook => .onLoop hook
  | .postparse, hook => .onStatement hook
  | .postexecute, hook => .onOutcome hook

theorem HookAction.Fits.exists_wrap {action : HookAction σ} {point : HookPoint}
    (fits : action.Fits point) : ∃ fitting : point.Fitting σ, action = point.wrap fitting := by
  cases fits with
  | preloop hook => exact ⟨hook, rfl⟩
  | postloop hook => exact ⟨hook, rfl⟩
  | postparse hook => exact ⟨hook, rfl⟩
  | postexecute hook => exact ⟨hook, rfl⟩

namespace HookTable

variable {table : HookTable σ} {point : HookPoint} {hook : Hook σ}

/-- The hooks at a point, in order, as hooks of any kind. -/
def hooksAt (table : HookTable σ) : HookPoint → List (Hook σ)
  | .preloop => table.preloop.map fun hook => ⟨hook.name, .onLoop hook.action⟩
  | .postloop => table.postloop.map fun hook => ⟨hook.name, .onLoop hook.action⟩
  | .postparse => table.postparse.map fun hook => ⟨hook.name, .onStatement hook.action⟩
  | .postexecute => table.postexecute.map fun hook => ⟨hook.name, .onOutcome hook.action⟩

theorem names_eq (table : HookTable σ) (point : HookPoint) :
    table.names point = (table.hooksAt point).map Named.name := by
  cases point <;> simp [names, hooksAt]

theorem size_eq (table : HookTable σ) (point : HookPoint) :
    table.size point = (table.hooksAt point).length := by
  rw [size, names_eq, List.length_map]

/-- A hook that fits its point goes behind those of the point, and nowhere else. -/
theorem hooksAt_add (table : HookTable σ) (point other : HookPoint)
    (hook : Named (point.Fitting σ)) :
    (table.add point hook).hooksAt other =
      table.hooksAt other ++ if other = point then [⟨hook.name, point.wrap hook.action⟩] else [] := by
  cases point <;> cases other <;> simp [add, hooksAt, HookPoint.wrap]

/-- A hook that fits is registered as by the point's own method. -/
theorem register_wrap (table : HookTable σ) (point : HookPoint) (name : String)
    (fitting : point.Fitting σ) :
    table.register point ⟨name, point.wrap fitting⟩ = .ok (table.add point ⟨name, fitting⟩) := by
  cases point <;> rfl

theorem register_of_misfit (misfit : ¬hook.action.Fits point) :
    table.register point hook = .error (.hookMismatch hook.name point hook.action.kind) := by
  obtain ⟨name, action⟩ := hook
  cases point <;> cases action <;> first | rfl | exact absurd (by constructor) misfit

end HookTable

/-- What a point is run with. -/
inductive HookStimulus where
  | preloop
  | postloop
  | postparse (statement : Statement)
  | postexecute (statement : Statement) (outcome : Option Outcome)

def HookStimulus.point : HookStimulus → HookPoint
  | preloop => .preloop
  | postloop => .postloop
  | postparse _ => .postparse
  | postexecute _ _ => .postexecute

/-- Run the hooks at the stimulus's point, whatever they give in the end. -/
def HookTable.runAt (table : HookTable σ) : HookStimulus → Action Failure (Memory σ) Unit
  | .preloop => table.runPreloop
  | .postloop => table.runPostloop
  | .postparse statement => (fun _ => ()) <$> table.runPostparse statement
  | .postexecute statement outcome => (fun _ => ()) <$> table.runPostexecute statement outcome

/-- The hook that is called, and the point it is called at. -/
def Callee.hook? : Callee σ → Option (HookPoint × Hook σ)
  | loopHook point hook => some (point, ⟨hook.name, .onLoop hook.action⟩)
  | statementHook hook _ => some (.postparse, ⟨hook.name, .onStatement hook.action⟩)
  | outcomeHook hook _ _ => some (.postexecute, ⟨hook.name, .onOutcome hook.action⟩)
  | parser .. => none
  | command .. => none
  | endOfInput .. => none

/-- The call of a hook works out or fails. -/
def Call.Ends (call : Call σ) (ended : Except Failure Unit) : Prop :=
  match call.callee with
  | .loopHook _ hook => hook.action.run.Runs call.before call.asked ended call.after
  | .statementHook hook statement =>
    ((fun _ => ()) <$> hook.action.run statement).Runs call.before call.asked ended call.after
  | .outcomeHook hook statement outcome =>
    ((fun _ => ()) <$> hook.action.run statement outcome).Runs call.before call.asked ended
      call.after
  | .parser .. => False
  | .command .. => False
  | .endOfInput .. => False

/-- Hooks at a point are called from the front, each once, up to the first that fails. -/
structure CallsInOrder (point : HookPoint) (hooks : List (Hook σ)) (calls : List (Call σ))
    (ended : Except Failure Unit) : Prop where
  /-- Those that are called are the first ones. -/
  front : calls.map (·.callee.hook?) <+: hooks.map fun hook => some (point, hook)
  /-- If the run works out, it has called them all, and each call has worked out. -/
  whole : ended = .ok () → calls.length = hooks.length ∧ ∀ call ∈ calls, call.Ends (.ok ())
  /-- If it fails, then by the last call, and the calls before that have worked out. -/
  broken : ∀ failure, ended = .error failure →
    ∃ done last, calls = done ++ [last] ∧ (∀ call ∈ done, call.Ends (.ok ())) ∧
      last.Ends (.error failure)

namespace CallsInOrder

variable {point : HookPoint} {hook : Hook σ} {hooks : List (Hook σ)} {call : Call σ}

theorem nil : CallsInOrder point ([] : List (Hook σ)) [] (.ok ()) where
  front := List.prefix_rfl
  whole _ := ⟨rfl, fun _ member => absurd member List.not_mem_nil⟩
  broken _ impossible := nomatch impossible

theorem failed {failure : Failure} (called : call.callee.hook? = some (point, hook))
    (ends : call.Ends (.error failure)) :
    CallsInOrder point (hook :: hooks) [call] (.error failure) where
  front := by
    rw [List.map_singleton, called, List.map_cons]
    exact List.cons_prefix_cons.mpr ⟨rfl, List.nil_prefix⟩
  whole impossible := nomatch impossible
  broken other same := by
    cases same
    exact ⟨[], call, rfl, fun _ member => absurd member List.not_mem_nil, ends⟩

theorem next (called : call.callee.hook? = some (point, hook)) (ends : call.Ends (.ok ()))
    (rest : CallsInOrder point hooks calls ended) :
    CallsInOrder point (hook :: hooks) (call :: calls) ended where
  front := by
    rw [List.map_cons, called, List.map_cons]
    exact List.cons_prefix_cons.mpr ⟨rfl, rest.front⟩
  whole ok := by
    obtain ⟨alike, worked⟩ := rest.whole ok
    exact ⟨congrArg (· + 1) alike, List.forall_mem_cons.mpr ⟨ends, worked⟩⟩
  broken failure error := by
    obtain ⟨done, last, rfl, worked, failed⟩ := rest.broken failure error
    exact ⟨call :: done, last, rfl, List.forall_mem_cons.mpr ⟨ends, worked⟩, failed⟩

end CallsInOrder

theorem CallsThrough.inOrder {callee : Named κ → β → Callee σ}
    {run : κ → β → Action Failure (Memory σ) β} {point : HookPoint} {wrap : Named κ → Hook σ}
    (known : ∀ hook value, (callee hook value).hook? = some (point, wrap hook))
    (ends : ∀ {hook value before asked ended after},
      (run hook.action value).Runs before asked ended after →
        Call.Ends ⟨callee hook value, before, asked, after⟩ (ended.map fun _ => ()))
    (through : CallsThrough callee run hooks value before calls ended after) :
    CallsInOrder point (hooks.map wrap) calls (ended.map fun _ => ()) := by
  induction through with
  | done => exact .nil
  | failed ran => exact .failed (known _ _) (ends ran)
  | next ran rest ih => exact .next (known _ _) (ends ran) ih

theorem LoopHookCalls.inOrder {point : HookPoint} {hooks : List (Named (LoopHook σ))}
    (calls : LoopHookCalls point hooks before called ended after) :
    CallsInOrder point (hooks.map fun hook => ⟨hook.name, .onLoop hook.action⟩) called ended := by
  have same : ∀ given : Except Failure Unit, (given.map fun _ => ()) = given := by
    rintro (_ | _) <;> rfl
  rw [← same ended]
  exact CallsThrough.inOrder (fun _ _ => rfl) (fun ran => (same _).symm ▸ ran) calls

theorem StatementHookCalls.inOrder {hooks : List (Named (StatementHook σ))}
    (calls : StatementHookCalls hooks statement before called ended after) :
    CallsInOrder .postparse (hooks.map fun hook => ⟨hook.name, .onStatement hook.action⟩) called
      (ended.map fun _ => ()) := by
  refine CallsThrough.inOrder (fun _ _ => rfl) ?_ calls
  exact fun ran => Action.runs_map_iff.mpr ⟨_, ran, rfl⟩

theorem OutcomeHookCalls.inOrder {hooks : List (Named (OutcomeHook σ))}
    (calls : OutcomeHookCalls statement hooks outcome before called ended after) :
    CallsInOrder .postexecute (hooks.map fun hook => ⟨hook.name, .onOutcome hook.action⟩) called
      (ended.map fun _ => ()) := by
  refine CallsThrough.inOrder (fun _ _ => rfl) ?_ calls
  exact fun ran => Action.runs_map_iff.mpr ⟨_, ran, rfl⟩

/-- A run of a point calls its hooks in order, and asks for nothing but what announces them and what
they ask for. -/
theorem HookTable.calls_of_runs {table : HookTable σ} {stimulus : HookStimulus}
    (ran : (table.runAt stimulus).Runs before exchanges ended after) :
    ∃ calls, CallsInOrder stimulus.point (table.hooksAt stimulus.point) calls ended ∧
      exchanges = calls.flatMap Call.exchanges := by
  cases stimulus with
  | preloop =>
    obtain ⟨calls, through, rfl⟩ := loopHooksRun_iff_calls.mp (runs_loop_iff.mp ran)
    exact ⟨calls, through.inOrder, rfl⟩
  | postloop =>
    obtain ⟨calls, through, rfl⟩ := loopHooksRun_iff_calls.mp (runs_loop_iff.mp ran)
    exact ⟨calls, through.inOrder, rfl⟩
  | postparse statement =>
    obtain ⟨given, handed, rfl⟩ := Action.runs_map_iff.mp ran
    obtain ⟨calls, through, rfl⟩ := statementHooksRun_iff_calls.mp (runs_statement_iff.mp handed)
    exact ⟨calls, through.inOrder, rfl⟩
  | postexecute statement outcome =>
    obtain ⟨given, handed, rfl⟩ := Action.runs_map_iff.mp ran
    obtain ⟨calls, through, rfl⟩ := outcomeHooksRun_iff_calls.mp (runs_outcome_iff.mp handed)
    exact ⟨calls, through.inOrder, rfl⟩

/-- Let the hooks at a point run on the session's memory. -/
def Session.runHooks (stimulus : HookStimulus) : Action ShellError (Session σ) Unit := do
  let session ← get
  ((session.shell.hooks.runAt stimulus).mapError .command).onPart Session.memory
    fun session memory => { session with memory }

section Registrations

variable {before after : Session σ} {point : HookPoint}

/-- A session with other hooks. -/
def Session.withHooks (session : Session σ) (hooks : HookTable σ) : Session σ :=
  { session with shell := { session.shell with hooks } }

theorem Session.runs_modifyHooks_iff {change : HookTable σ → HookTable σ} :
    (Session.modifyHooks change : Action ShellError (Session σ) Unit).Runs before asked ended after ↔
      asked = [] ∧ ended = .ok () ∧ after = before.withHooks (change before.shell.hooks) := by
  rw [Session.modifyHooks, Action.Runs, Action.runFrom_modify]
  exact Program.runs_pure_pair_iff

theorem Session.hooksAt_of_addHook {hook : Named (point.Fitting σ)}
    (added : (Session.addHook point hook).Runs before asked ended after) :
    ended = (.ok () : Except ShellError Unit) ∧ ∀ other, after.shell.hooks.hooksAt other =
      before.shell.hooks.hooksAt other ++
        if other = point then [⟨hook.name, point.wrap hook.action⟩] else [] := by
  obtain ⟨_, ok, rfl⟩ := Session.runs_modifyHooks_iff.mp added
  exact ⟨ok, fun other => HookTable.hooksAt_add _ point other hook⟩

theorem Session.registerHook_wrap (point : HookPoint) (name : String) (fitting : point.Fitting σ) :
    Session.registerHook point ⟨name, point.wrap fitting⟩ = Session.addHook point ⟨name, fitting⟩ := by
  refine Action.ext fun session => ?_
  simp only [Session.registerHook, Session.addHook, Session.modifyHooks, Action.runFrom_bind,
    Action.runFrom_get, pure_bind, HookTable.register_wrap, Action.runFrom_modify]

theorem Session.runs_registerHook_of_misfit {hook : Hook σ} (misfit : ¬hook.action.Fits point)
    (ran : (Session.registerHook point hook).Runs before asked ended after) :
    ended = .error (.hookMismatch hook.name point hook.action.kind) ∧ after = before := by
  have refused := Action.runs_get_bind_iff.mp ran
  rw [HookTable.register_of_misfit misfit] at refused
  exact (Action.runs_throw_iff.mp refused).2

theorem Session.calls_of_runHooks {stimulus : HookStimulus}
    (ran : (Session.runHooks stimulus).Runs before asked ended after) :
    after.shell = before.shell ∧ ∃ calls result,
      CallsInOrder stimulus.point (before.shell.hooks.hooksAt stimulus.point) calls result ∧
        asked = calls.flatMap Call.exchanges ∧ ended = result.mapError .command := by
  have running := Action.runs_get_bind_iff.mp ran
  obtain ⟨memory, worked, rfl⟩ := Action.runs_onPart_iff.mp running
  obtain ⟨result, called, rfl⟩ := Action.runs_mapError_iff.mp worked
  obtain ⟨calls, ordered, asks⟩ := HookTable.calls_of_runs called
  exact ⟨rfl, calls, result, ordered, asks, rfl⟩

end Registrations

/-- One thing that is done with the hooks of a session. -/
inductive HookOperation (σ : Type) where
  /-- Register a hook through the method for its point. -/
  | add (point : HookPoint) (hook : Named (point.Fitting σ))
  /-- Register a hook of any kind at any point. -/
  | register (point : HookPoint) (hook : Hook σ)
  /-- Run the hooks at a point. -/
  | run (stimulus : HookStimulus)

namespace HookOperation

def action : HookOperation σ → Action ShellError (Session σ) Unit
  | add point hook => Session.addHook point hook
  | register point hook => Session.registerHook point hook
  | run stimulus => Session.runHooks stimulus

/-- What the operation registers at a point: a hook that fits, if that is its point. -/
def accepted (point : HookPoint) : HookOperation σ → List (Hook σ)
  | add place hook => if point = place then [⟨hook.name, place.wrap hook.action⟩] else []
  | register place hook => if point = place ∧ hook.action.Fits place then [hook] else []
  | run _ => []

end HookOperation

/-- An operation as it was carried out. -/
structure HookStep (σ : Type) where
  operation : HookOperation σ
  before : Session σ
  asked : List Exchange
  ended : Except ShellError Unit
  after : Session σ

namespace HookStep

/-- The step is refused, for a hook of a kind that does not fit: the error tells the hook, the point
and both signatures, which differ, and nothing has changed. -/
structure Refused (step : HookStep σ) (point : HookPoint) (hook : Hook σ) : Prop where
  error : step.ended = .error (.hookMismatch hook.name point hook.action.kind)
  message : (ShellError.hookMismatch hook.name point hook.action.kind).message =
    "hook " ++ hook.name ++ " has signature " ++ hook.action.kind.signature ++ ", but " ++
      point.name ++ " hooks must be " ++ point.kind.signature
  differ : hook.action.kind.signature ≠ point.kind.signature
  unchanged : step.after = step.before

/-- What a step comes to, besides what it registers. -/
def Lawful (step : HookStep σ) : Prop :=
  match step.operation with
  | .add _ _ => step.ended = .ok ()
  | .register point hook =>
    (hook.action.Fits point → step.ended = .ok ()) ∧ (¬hook.action.Fits point → step.Refused point hook)
  | .run stimulus => step.after.shell = step.before.shell ∧
    ∃ calls result,
      CallsInOrder stimulus.point (step.before.shell.hooks.hooksAt stimulus.point) calls result ∧
        step.asked = calls.flatMap Call.exchanges ∧ step.ended = result.mapError .command

end HookStep

/-- A history of steps, from one table to another. Between the steps, anything may be done with a
session but what concerns its hooks. -/
inductive HookHistory : HookTable σ → List (HookStep σ) → HookTable σ → Prop where
  | nil : HookHistory table [] table
  | cons (ran : operation.action.Runs before asked ended after)
      (rest : HookHistory after.shell.hooks later last) :
      HookHistory before.shell.hooks (⟨operation, before, asked, ended, after⟩ :: later) last

/-- All hooks that steps have registered at a point, in order. -/
def acceptedHooks (point : HookPoint) (steps : List (HookStep σ)) : List (Hook σ) :=
  steps.flatMap fun step => step.operation.accepted point

/-- At every point, a table holds what another one holds and then, in order, what steps have
registered. -/
structure HookTable.Registered (start : HookTable σ) (steps : List (HookStep σ))
    (table : HookTable σ) : Prop where
  hooks : ∀ point, table.hooksAt point = start.hooksAt point ++ acceptedHooks point steps
  names : ∀ point, table.names point =
    start.names point ++ (acceptedHooks point steps).map Named.name
  size : ∀ point, table.size point = start.size point + (acceptedHooks point steps).length

section Steps

variable {step : HookStep σ} {start table last : HookTable σ}

theorem HookTable.registered_of_hooks
    (hooks : ∀ point, table.hooksAt point = start.hooksAt point ++ acceptedHooks point steps) :
    start.Registered steps table where
  hooks := hooks
  names point := by rw [names_eq, names_eq, hooks, List.map_append]
  size point := by rw [size_eq, size_eq, hooks, List.length_append]

/-- One step: what it registers, and what it comes to. -/
theorem HookOperation.lawful_of_runs {operation : HookOperation σ} {before after : Session σ}
    (ran : operation.action.Runs before asked ended after) :
    (∀ point, after.shell.hooks.hooksAt point =
      before.shell.hooks.hooksAt point ++ operation.accepted point) ∧
      HookStep.Lawful ⟨operation, before, asked, ended, after⟩ := by
  cases operation with
  | add point hook =>
    obtain ⟨ok, added⟩ := Session.hooksAt_of_addHook ran
    exact ⟨added, ok⟩
  | register point hook =>
    by_cases fits : hook.action.Fits point
    · obtain ⟨name, action⟩ := hook
      obtain ⟨fitting, rfl⟩ := fits.exists_wrap
      have registered : (Session.registerHook point ⟨name, point.wrap fitting⟩).Runs before asked
        ended after := ran
      rw [Session.registerHook_wrap] at registered
      obtain ⟨ok, added⟩ := Session.hooksAt_of_addHook registered
      refine ⟨fun other => ?_, fun _ => ok, fun misfit => absurd fits misfit⟩
      refine (added other).trans ?_
      simp [HookOperation.accepted, fits]
    · obtain ⟨error, unchanged⟩ := Session.runs_registerHook_of_misfit fits ran
      refine ⟨fun other => ?_, fun fitting => absurd fitting fits, fun _ => ?_⟩
      · refine (congrArg (·.shell.hooks.hooksAt other) unchanged).trans ?_
        simp [HookOperation.accepted, fits]
      · have differ := fun same => fits (HookAction.fits_iff.mpr (HookKind.signature_inj.mp same))
        exact ⟨error, rfl, differ, unchanged⟩
  | run stimulus =>
    obtain ⟨same, called⟩ := Session.calls_of_runHooks ran
    refine ⟨fun point => ?_, same, called⟩
    exact (congrArg (·.hooks.hooksAt point) same).trans (List.append_nil _).symm

theorem HookHistory.split (history : HookHistory start (front ++ step :: back) last) :
    HookHistory start front step.before.shell.hooks ∧
      step.operation.action.Runs step.before step.asked step.ended step.after := by
  induction front generalizing start with
  | nil =>
    cases history with
    | cons ran rest => exact ⟨.nil, ran⟩
  | cons first front ih =>
    cases history with
    | cons ran rest =>
      obtain ⟨earlier, here⟩ := ih rest
      exact ⟨.cons ran earlier, here⟩

theorem HookHistory.registered (history : HookHistory start steps last) :
    start.Registered steps last := by
  apply HookTable.registered_of_hooks
  induction history with
  | nil => exact fun point => (List.append_nil _).symm
  | cons ran rest ih =>
    intro point
    rw [ih point, (HookOperation.lawful_of_runs ran).1 point, List.append_assoc]
    rfl

/-- However registrations and runs follow one another, at every moment each point holds the hooks
that were accepted there, in order, and every step is lawful. -/
theorem HookHistory.registered_in_order (history : HookHistory start steps last) :
    start.Registered steps last ∧
      ∀ front step back, steps = front ++ step :: back →
        start.Registered front step.before.shell.hooks ∧ step.Lawful := by
  refine ⟨history.registered, ?_⟩
  rintro front step back rfl
  obtain ⟨earlier, ran⟩ := history.split
  exact ⟨earlier.registered, (HookOperation.lawful_of_runs ran).2⟩

/-- A hook for the loop is refused among statements, and a second one, which fails, is registered
behind the first one. A run of the point ends with its failure. -/
theorem HookHistory.registered_in_order_of_refusal :
    ∃ (steps : List (HookStep Unit)) (last : HookTable Unit), HookHistory {} steps last ∧
      steps.map HookStep.ended = [.ok (), .error (.hookMismatch "greet" .postparse .onLoop), .ok (),
        .error (.command (.text "no"))] ∧
      last.names .preloop = ["greet", "break"] ∧
      HookTable.Registered {} steps last ∧
      ∀ front step back, steps = front ++ step :: back →
        HookTable.Registered {} front step.before.shell.hooks ∧ step.Lawful := by
  let calm : LoopHook Unit := .custom (pure ())
  let broken : LoopHook Unit := .custom (throw (.text "no"))
  let bare : Session Unit := { memory := { client := () } }
  let one := bare.withHooks { preloop := [⟨"greet", calm⟩] }
  let both := bare.withHooks { preloop := [⟨"greet", calm⟩, ⟨"break", broken⟩] }
  let announced := [HookTable.announced "preloop hook greet", HookTable.announced "preloop hook break"]
  have added : (HookOperation.add .preloop ⟨"greet", calm⟩).action.Runs bare [] (.ok ()) one :=
    .done _
  have refused : (HookOperation.register .postparse ⟨"greet", .onLoop calm⟩).action.Runs one []
      (.error (.hookMismatch "greet" .postparse .onLoop)) one :=
    .done _
  have registered : (HookOperation.register .preloop ⟨"break", .onLoop broken⟩).action.Runs one []
      (.ok ()) both :=
    .done _
  have ran : (HookOperation.run .preloop).action.Runs both announced
      (.error (.command (.text "no"))) both := by
    apply Program.Runs.ask
    apply Program.Runs.ask
    exact .done _
  have history : HookHistory {} _ both.shell.hooks :=
    .cons added (.cons refused (.cons registered (.cons ran .nil)))
  exact ⟨_, _, history, rfl, rfl, history.registered_in_order⟩

end Steps

end LineShell
