import LineShell.Proofs.Pipeline
/-!
What actions leave alone. The shell's own hooks and commands change nothing but the history, so
what the client's code leaves alone stays as it is while lines are executed.
-/

namespace LineShell

variable {ε ε' σ τ α β δ ν : Type}

namespace Action

/-- The action never changes what the view shows, not even when it fails. -/
def Leaves (action : Action ε σ α) (view : σ → ν) : Prop :=
  ∀ before exchanges ended after, action.Runs before exchanges ended after →
    view after = view before

variable {view : σ → ν}

theorem leaves_of_const (action : Action ε σ α) (shown : ν) : action.Leaves fun _ => shown := by
  intro before exchanges ended after ran
  rfl

theorem leaves_pure (value : α) : (pure value : Action ε σ α).Leaves view := by
  intro before exchanges ended after ran
  obtain ⟨_, _, same⟩ := runs_pure_iff.mp ran
  rw [same]

theorem leaves_throw (error : ε) : (throw error : Action ε σ α).Leaves view := by
  intro before exchanges ended after ran
  obtain ⟨_, _, same⟩ := runs_throw_iff.mp ran
  rw [same]

theorem leaves_get : (get : Action ε σ σ).Leaves view := by
  intro before exchanges ended after ran
  rw [Runs, runFrom_get, Program.runs_pure_pair_iff] at ran
  rw [ran.2.2]

theorem leaves_modify {change : σ → σ} (same : ∀ state, view (change state) = view state) :
    (modify change : Action ε σ PUnit).Leaves view := by
  intro before exchanges ended after ran
  rw [Runs, runFrom_modify, Program.runs_pure_pair_iff] at ran
  rw [ran.2.2]
  exact same before

theorem Leaves.bind {action : Action ε σ α} {next : α → Action ε σ β}
    (first : action.Leaves view) (second : ∀ value, (next value).Leaves view) :
    (action >>= next).Leaves view := by
  intro before exchanges ended after ran
  rcases runs_bind_iff.mp ran with
    ⟨error, failed, _⟩ | ⟨asked, value, middle, later, worked, onward, _⟩
  · exact first _ _ _ _ failed
  · exact (second value _ _ _ _ onward).trans (first _ _ _ _ worked)

theorem Leaves.map {action : Action ε σ α} (change : α → β) (leaves : action.Leaves view) :
    (change <$> action).Leaves view := by
  intro before exchanges ended after ran
  obtain ⟨outcome, worked, _⟩ := runs_map_iff.mp ran
  exact leaves _ _ _ _ worked

theorem Leaves.mapError {action : Action ε σ α} (wrap : ε → ε') (leaves : action.Leaves view) :
    (action.mapError wrap).Leaves view := by
  intro before exchanges ended after ran
  obtain ⟨outcome, worked, _⟩ := runs_mapError_iff.mp ran
  exact leaves _ _ _ _ worked

theorem leaves_attempt (wrap : δ → ε) (program : Program (Except δ α)) :
    (attempt wrap program : Action ε σ α).Leaves view := by
  intro before exchanges ended after ran
  obtain ⟨outcome, _, _, same⟩ := runs_attempt_iff.mp ran
  rw [same]

theorem leaves_ofProgram (program : Program α) : (ofProgram program : Action ε σ α).Leaves view := by
  intro before exchanges ended after ran
  obtain ⟨value, _, _, same⟩ := runs_ofProgram_iff.mp ran
  rw [same]

theorem Leaves.total {step : StateT σ Program α} (leaves : (ofTotal step : Action ε σ α).Leaves view)
    (ran : (step before).Runs exchanges (value, after)) : view after = view before :=
  leaves _ _ _ _ (runs_ofTotal_iff.mpr ⟨value, ran, rfl⟩)

theorem leaves_record (level : Log.Level) (target text : String) :
    (record level target text : Action ε σ Unit).Leaves view :=
  leaves_ofProgram _

theorem leaves_ofExcept (result : Except ε α) :
    (MonadExcept.ofExcept result : Action ε σ α).Leaves view := by
  cases result with
  | error error => exact leaves_throw error
  | ok value => exact leaves_pure value

theorem Leaves.ofClient {action : Action ε σ α} (leaves : action.Leaves view) :
    action.ofClient.Leaves (view ∘ Memory.client) := by
  intro before exchanges ended after ran
  obtain ⟨client, worked, same⟩ := runs_onPart_iff.mp ran
  rw [same]
  exact leaves _ _ _ _ worked

end Action

open LineShell.Action

variable (view : σ → ν)

theorem History.leaves_restoreFrom (path : String) :
    (History.restoreFrom path : Action Failure (Memory σ) Unit).Leaves (view ∘ Memory.client) := by
  unfold restoreFrom
  apply leaves_get.bind
  intro memory
  dsimp only
  split
  · exact leaves_pure _
  apply (leaves_ofProgram _).bind
  intro loaded
  split
  · apply (leaves_record _ _ _).bind
    intro _
    exact leaves_modify fun _ => rfl
  · exact leaves_throw _
  · split
    · exact leaves_throw _
    · apply Leaves.bind
      · exact leaves_modify fun _ => rfl
      · intro _
        exact leaves_record _ _ _

theorem History.leaves_saveTo (path : String) :
    (History.saveTo path : Action Failure (Memory σ) Unit).Leaves (view ∘ Memory.client) := by
  unfold saveTo
  apply leaves_get.bind
  intro memory
  exact leaves_attempt _ _

theorem Builtin.leaves_refuse (builtin : Builtin) (console : ConsoleId) (refusal : Refusal)
    (shown : Memory σ → ν) : (builtin.refuse console refusal).Leaves shown := by
  cases refusal with
  | help =>
    apply (leaves_attempt _ _).bind
    intro _
    exact leaves_pure _
  | misuse text =>
    apply (leaves_attempt _ _).bind
    intro _
    exact leaves_pure _

theorem Builtin.leaves_run (console : ConsoleId) (words : List String) (builtin : Builtin) :
    (builtin.run console words : Action Failure (Memory σ) Outcome).Leaves
      (view ∘ Memory.client) := by
  cases builtin with
  | exit =>
    simp only [run]
    split
    · exact leaves_refuse _ _ _ _
    · exact leaves_pure _
  | echo =>
    simp only [run]
    split
    · exact leaves_refuse _ _ _ _
    · apply (leaves_attempt _ _).bind
      intro _
      exact leaves_pure _
  | hist =>
    simp only [run]
    split
    · exact leaves_refuse _ _ _ _
    · apply Leaves.bind
      · exact leaves_modify fun _ => rfl
      · intro _
        exact leaves_pure _
    · apply leaves_get.bind
      intro memory
      apply (leaves_attempt _ _).bind
      intro _
      exact leaves_pure _

/-- The client's parser, hooks, commands, prompts and end of input never change what the view shows. -/
structure Shell.LeavesAlone (shell : Shell σ) (view : σ → ν) : Prop where
  parser : ∀ {parse}, shell.parser = .custom parse → ∀ line, (parse line).Leaves view
  preloop : ∀ {hook action}, hook ∈ shell.hooks.preloop → hook.action = .custom action →
    action.Leaves view
  postloop : ∀ {hook action}, hook ∈ shell.hooks.postloop → hook.action = .custom action →
    action.Leaves view
  postparse : ∀ {hook action}, hook ∈ shell.hooks.postparse → hook.action = .custom action →
    ∀ statement, (action statement).Leaves view
  postexecute : ∀ {hook action}, hook ∈ shell.hooks.postexecute → hook.action = .custom action →
    ∀ statement outcome, (action statement outcome).Leaves view
  command : ∀ {name action}, shell.commands.find? name = some (.custom action) →
    ∀ statement, (action statement).Leaves view
  renderer : ∀ {render}, shell.renderer = some render →
    ∀ prompt, (ofTotal (render prompt) : Action Empty σ String).Leaves view
  endOfInput : ∀ {handle}, shell.endOfInput = some handle →
    ∀ interactive, (handle interactive).Leaves view

variable {view} {shell : Shell σ}

theorem Shell.leavesAlone_of_const (shell : Shell σ) (shown : ν) :
    shell.LeavesAlone fun _ => shown where
  parser _ _ := leaves_of_const _ _
  preloop _ _ := leaves_of_const _ _
  postloop _ _ := leaves_of_const _ _
  postparse _ _ _ := leaves_of_const _ _
  postexecute _ _ _ _ := leaves_of_const _ _
  command _ _ := leaves_of_const _ _
  renderer _ _ := leaves_of_const _ _
  endOfInput _ _ := leaves_of_const _ _

/-- What every hook leaves alone, all of them together leave alone. -/
theorem HandedThrough.leaves {κ : Type} {view : Memory σ → ν} {text : Named κ → β → String}
    {run : κ → β → Action Failure (Memory σ) β} {hooks : List (Named κ)}
    (handed : HandedThrough text run hooks value before exchanges ended after)
    (each : ∀ hook ∈ hooks, ∀ given, (run hook.action given).Leaves view) :
    view after = view before := by
  induction handed with
  | done => rfl
  | failed ran => exact each _ List.mem_cons_self _ _ _ _ _ ran
  | next ran rest ih =>
    have first := each _ List.mem_cons_self _ _ _ _ _ ran
    have later := ih fun hook member => each hook (List.mem_cons_of_mem _ member)
    exact later.trans first

theorem LoopHook.leaves_run {hook : LoopHook σ}
    (custom : ∀ {action}, hook = .custom action → action.Leaves view) :
    hook.run.Leaves (view ∘ Memory.client) := by
  cases hook with
  | restoreHistory path => exact History.leaves_restoreFrom view path
  | saveHistory path => exact History.leaves_saveTo view path
  | custom action => exact (custom rfl).ofClient

theorem LoopHooksRun.leaves {point : HookPoint} {hooks : List (Named (LoopHook σ))}
    (ran : LoopHooksRun point hooks before exchanges ended after)
    (custom : ∀ {hook action}, hook ∈ hooks → hook.action = .custom action → action.Leaves view) :
    view after.client = view before.client := by
  change (view ∘ Memory.client) after = (view ∘ Memory.client) before
  apply HandedThrough.leaves ran
  intro hook member given
  exact LoopHook.leaves_run (custom member)

namespace Shell.LeavesAlone

theorem parse (alone : shell.LeavesAlone view) (line : String) :
    (shell.parser.parse line).Leaves (view ∘ Memory.client) := by
  unfold Parser.parse
  split
  · exact leaves_ofExcept _
  · rename_i custom
    exact (alone.parser custom line).ofClient

theorem renderPrompt (alone : shell.LeavesAlone view)
    (rendered : (shell.renderPrompt before).Runs exchanges (text, after)) :
    view after = view before := by
  cases custom : shell.renderer with
  | none =>
    rw [renderPrompt_of_none custom] at rendered
    obtain ⟨_, _, rfl⟩ := Program.runs_pure_pair_iff.mp rendered
    rfl
  | some render =>
    rw [renderPrompt_of_some custom] at rendered
    exact (alone.renderer custom shell.prompt).total rendered

theorem runPostparse (alone : shell.LeavesAlone view) (statement : Statement) :
    (shell.hooks.runPostparse statement).Leaves (view ∘ Memory.client) := by
  intro before exchanges ended after ran
  apply HandedThrough.leaves (HookTable.runs_statement_iff.mp ran)
  intro hook member given
  cases custom : hook.action with
  | recordHistory =>
    apply Leaves.bind
    · exact leaves_modify fun _ => rfl
    · intro _
      exact leaves_pure _
  | custom action => exact (alone.postparse member custom given).ofClient

theorem runPostexecute (alone : shell.LeavesAlone view) (statement : Statement)
    (outcome : Option Outcome) :
    (shell.hooks.runPostexecute statement outcome).Leaves (view ∘ Memory.client) := by
  intro before exchanges ended after ran
  apply HandedThrough.leaves (HookTable.runs_outcome_iff.mp ran)
  intro hook member given
  cases custom : hook.action with
  | defaultOutcome => exact leaves_pure _
  | custom action => exact (alone.postexecute member custom statement given).ofClient

theorem runCommand (alone : shell.LeavesAlone view)
    {bound : Command σ} (found : shell.commands.find? name = some bound) (statement : Statement) :
    (bound.run statement).Leaves (view ∘ Memory.client) := by
  cases bound with
  | builtin which console => exact (Builtin.leaves_run view console _ which).map _
  | custom action => exact (alone.command found statement).ofClient

theorem execute (alone : shell.LeavesAlone view) (line : String) :
    (shell.execute line).Leaves (view ∘ Memory.client) := by
  unfold Shell.execute
  apply (alone.parse line).bind
  intro parsed
  apply ((alone.runPostparse parsed).mapError _).bind
  intro statement
  split
  · exact leaves_throw _
  · rename_i found
    apply (leaves_record _ _ _).bind
    intro _
    apply ((alone.runCommand found statement).mapError _).bind
    intro outcome
    exact (alone.runPostexecute statement outcome).mapError _

end Shell.LeavesAlone

end LineShell
