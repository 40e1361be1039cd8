import LineShell.Proofs.HistoryLog
import LineShell.Proofs.Reading
import LineShell.Proofs.Unlogged
/-!
What a session asks for. Besides what the client's code asks for, lines and turns only write to
consoles and keep records, and the hooks of the loop that come with the shell use the history's file.
-/

namespace LineShell

variable {ε ε' σ τ α β κ : Type} {allowed : Request → Prop}

theorem Program.Asks.of_runs {program : Program α} (asks : program.Asks allowed)
    (ran : program.Runs exchanges value) : ∀ exchange ∈ exchanges, allowed exchange.1 := by
  induction ran with
  | done => nofun
  | ask answer rest ih => exact List.forall_mem_cons.mpr ⟨asks.1, ih (asks.2 answer)⟩

theorem Program.asks_request {asked : Request} (permitted : allowed asked) :
    (request asked).Asks allowed :=
  ⟨permitted, fun _ => trivial⟩

namespace Action

/-- From whatever state it is run, the action asks only for what is allowed. -/
def Asks (allowed : Request → Prop) (action : Action ε σ α) : Prop :=
  ∀ state, (action.runFrom state).Asks allowed

theorem Asks.of_runs {action : Action ε σ α} (asks : action.Asks allowed)
    (ran : action.Runs before exchanges ended after) :
    ∀ exchange ∈ exchanges, allowed exchange.1 :=
  (asks before).of_runs ran

theorem asks_pure (value : α) : (pure value : Action ε σ α).Asks allowed :=
  fun _ => trivial

theorem asks_throw (error : ε) : (throw error : Action ε σ α).Asks allowed :=
  fun _ => trivial

theorem asks_modify (change : σ → σ) : (modify change : Action ε σ PUnit).Asks allowed :=
  fun _ => trivial

theorem asks_attempt {program : Program (Except β α)} (wrap : β → ε)
    (asks : program.Asks allowed) : (attempt wrap program : Action ε σ α).Asks allowed :=
  fun _ => asks.bind fun _ => trivial

theorem asks_ofProgram {program : Program α} (asks : program.Asks allowed) :
    (ofProgram program : Action ε σ α).Asks allowed :=
  fun _ => asks.bind fun _ => trivial

theorem asks_ofExcept (result : Except ε α) :
    (MonadExcept.ofExcept result : Action ε σ α).Asks allowed := by
  cases result with
  | error error => exact asks_throw error
  | ok value => exact asks_pure value

theorem Asks.bind {action : Action ε σ α} {next : α → Action ε σ β} (first : action.Asks allowed)
    (onward : ∀ value, (next value).Asks allowed) : (action >>= next).Asks allowed := by
  intro state
  rw [runFrom_bind]
  apply (first state).bind
  intro ended
  obtain ⟨result, after⟩ := ended
  cases result with
  | error error => trivial
  | ok value => exact onward value after

theorem asks_get_bind {next : σ → Action ε σ β} (onward : ∀ state, (next state).Asks allowed) :
    (get >>= next).Asks allowed :=
  fun state => onward state state

theorem Asks.map {action : Action ε σ α} (change : α → β) (asks : action.Asks allowed) :
    (change <$> action).Asks allowed := by
  intro state
  rw [runFrom_map]
  exact (asks state).map _

theorem Asks.mapError {action : Action ε σ α} (wrap : ε → ε') (asks : action.Asks allowed) :
    (action.mapError wrap).Asks allowed :=
  fun state => (asks state).bind fun _ => trivial

theorem Asks.ofClient {action : Action ε σ α} (asks : action.Asks allowed) :
    action.ofClient.Asks allowed :=
  fun memory => (asks memory.client).bind fun _ => trivial

end Action

open LineShell.Action

/-- Writing to consoles, reading files and keeping records are allowed. -/
structure Request.Lenient (allowed : Request → Prop) : Prop where
  write : ∀ console channel text, allowed (.write console channel text)
  load : ∀ path, allowed (.load path)
  record : ∀ entry, allowed (.record entry)

namespace Request.Lenient

theorem asks_write (lenient : Lenient allowed) (wrap : DeviceError → ε) (console : ConsoleId)
    (channel : Channel) (text : String) :
    (attempt wrap (Program.write console channel text) : Action ε σ Unit).Asks allowed :=
  asks_attempt wrap (Program.asks_request (lenient.write console channel text))

theorem asks_record (lenient : Lenient allowed) (level : Log.Level) (target text : String) :
    (Action.record level target text : Action ε σ Unit).Asks allowed :=
  asks_ofProgram (Program.asks_request (lenient.record _))

theorem asks_refuse (lenient : Lenient allowed) (builtin : Builtin) (console : ConsoleId)
    (refusal : Refusal) : (builtin.refuse console refusal : Action Failure σ Outcome).Asks allowed := by
  cases refusal with
  | help =>
    apply (lenient.asks_write _ _ _ _).bind
    intro _
    exact asks_pure _
  | misuse text =>
    apply (lenient.asks_write _ _ _ _).bind
    intro _
    exact asks_pure _

theorem asks_builtin (lenient : Lenient allowed) (builtin : Builtin) (console : ConsoleId)
    (words : List String) :
    (builtin.run console words : Action Failure (Memory σ) Outcome).Asks allowed := by
  cases builtin with
  | exit =>
    simp only [Builtin.run]
    split
    · exact lenient.asks_refuse _ _ _
    · exact asks_pure _
  | echo =>
    simp only [Builtin.run]
    split
    · exact lenient.asks_refuse _ _ _
    · apply (lenient.asks_write _ _ _ _).bind
      intro _
      exact asks_pure _
  | hist =>
    simp only [Builtin.run]
    split
    · exact lenient.asks_refuse _ _ _
    · apply (asks_modify _).bind
      intro _
      exact asks_pure _
    · apply asks_get_bind
      intro memory
      apply (lenient.asks_write _ _ _ _).bind
      intro _
      exact asks_pure _

theorem asks_restoreFrom (lenient : Lenient allowed) (path : String) :
    (History.restoreFrom path : Action Failure (Memory σ) Unit).Asks allowed := by
  unfold History.restoreFrom
  apply asks_get_bind
  intro memory
  dsimp only
  split
  · exact asks_pure _
  apply (asks_ofProgram (Program.asks_request (lenient.load path))).bind
  intro answer
  split
  · apply (lenient.asks_record _ _ _).bind
    intro _
    exact asks_modify _
  · exact asks_throw _
  · split
    · exact asks_throw _
    · apply (asks_modify _).bind
      intro _
      exact lenient.asks_record _ _ _

/-- A hook of the loop that does not save the history asks for no more than the client's hooks do. -/
theorem asks_loopHook (lenient : Lenient allowed) {hook : LoopHook σ}
    (custom : ∀ {action}, hook = .custom action → action.Asks allowed)
    (reads : ∀ path, hook ≠ .saveHistory path) : hook.run.Asks allowed := by
  cases hook with
  | restoreHistory path => exact lenient.asks_restoreFrom path
  | saveHistory path => exact absurd rfl (reads path)
  | custom action => exact (custom rfl).ofClient

end Request.Lenient

/-- The client's parser, hooks, commands, prompts and end of input ask only for what is allowed. -/
structure Shell.ClientAsks (allowed : Request → Prop) (shell : Shell σ) : Prop where
  parser : ∀ {parse}, shell.parser = .custom parse → ∀ line, (parse line).Asks allowed
  preloop : ∀ {hook action}, hook ∈ shell.hooks.preloop → hook.action = .custom action →
    action.Asks allowed
  postloop : ∀ {hook action}, hook ∈ shell.hooks.postloop → hook.action = .custom action →
    action.Asks allowed
  postparse : ∀ {hook action}, hook ∈ shell.hooks.postparse → hook.action = .custom action →
    ∀ statement, (action statement).Asks allowed
  postexecute : ∀ {hook action}, hook ∈ shell.hooks.postexecute → hook.action = .custom action →
    ∀ statement outcome, (action statement outcome).Asks allowed
  command : ∀ {name action}, shell.commands.find? name = some (.custom action) →
    ∀ statement, (action statement).Asks allowed
  renderer : ∀ {render}, shell.renderer = some render →
    ∀ prompt client, (render prompt client).Asks allowed
  endOfInput : ∀ {handle}, shell.endOfInput = some handle →
    ∀ interactive, (handle interactive).Asks allowed

/-- A source of the client's asks only for what is allowed. -/
def Source.ClientAsks (allowed : Request → Prop) : Source σ → Prop
  | .custom asks next => (∀ client, (asks client).Asks allowed) ∧
      ∀ prompt console, (next prompt console).Asks allowed
  | _ => True

theorem Source.ClientAsks.isInteractive {source : Source σ} (asks : source.ClientAsks allowed)
    (said : (source.isInteractive client).Runs exchanges (interactive, changed)) :
    ∀ exchange ∈ exchanges, allowed exchange.1 := by
  cases source with
  | empty | buffered | editor =>
    obtain ⟨rfl, _⟩ := Program.runs_pure_pair_iff.mp said
    exact nofun
  | custom => exact (asks.1 client).of_runs said

theorem Source.Reads.asks {source later : Source σ} {client changed : σ}
    (reads : Reads prompt place source client exchanges ended later changed)
    (asks : source.ClientAsks allowed) (lenient : Request.Lenient allowed) :
    (∀ exchange ∈ exchanges, allowed exchange.1) ∧ later.ClientAsks allowed := by
  cases reads with
  | empty | piped | editor => exact ⟨nofun, trivial⟩
  | unshown | shown => exact ⟨List.forall_mem_singleton.mpr (lenient.write _ _ _), trivial⟩
  | custom ran => exact ⟨(asks.2 _ _).of_runs ran, asks⟩

theorem CallsThrough.callee_of_mem {callee : Named κ → β → Callee σ}
    {run : κ → β → Action Failure (Memory σ) β} {hooks : List (Named κ)}
    (called : CallsThrough callee run hooks value before calls ended after) :
    ∀ call ∈ calls, ∃ hook ∈ hooks, ∃ given, call.callee = callee hook given := by
  induction called with
  | done => nofun
  | failed ran =>
    intro call member
    rw [List.mem_singleton.mp member]
    exact ⟨_, List.mem_cons_self, _, rfl⟩
  | next ran rest ih =>
    intro call member
    rcases List.mem_cons.mp member with same | further
    · rw [same]
      exact ⟨_, List.mem_cons_self, _, rfl⟩
    · obtain ⟨other, among, found⟩ := ih call further
      exact ⟨other, List.mem_cons_of_mem _ among, found⟩

/-- What the shell calls while it takes turns: anything but the hooks of the loop. -/
def Callee.OfTurn (shell : Shell σ) : Callee σ → Prop
  | .parser rule _ => rule = shell.parser
  | .loopHook .. => False
  | .statementHook hook _ => hook ∈ shell.hooks.postparse
  | .command bound statement => shell.commands.find? statement.command = some bound
  | .outcomeHook hook _ _ => hook ∈ shell.hooks.postexecute
  | .endOfInput handle _ => shell.endOfInput = some handle

variable {shell : Shell σ}

theorem Callee.OfTurn.asks {call : Call σ} (ofTurn : call.callee.OfTurn shell)
    (client : shell.ClientAsks allowed) (lenient : Request.Lenient allowed)
    (ran : call.callee.Runs call.before call.asked call.after) :
    ∀ exchange ∈ call.exchanges, allowed exchange.1 := by
  obtain ⟨callee, before, asked, after⟩ := call
  have announced : ∀ exchange ∈ callee.announced, allowed exchange.1 := by
    cases callee with
    | parser | endOfInput => nofun
    | loopHook | statementHook | command | outcomeHook =>
      exact List.forall_mem_singleton.mpr (lenient.record _)
  have asks : ∀ exchange ∈ asked, allowed exchange.1 := by
    cases callee with
    | loopHook => cases ofTurn
    | parser rule line =>
      obtain ⟨ended, ran⟩ := ran
      cases rule with
      | words rule => exact (asks_ofExcept _).of_runs ran
      | custom parse => exact (client.parser ofTurn.symm line).ofClient.of_runs ran
    | statementHook hook statement =>
      obtain ⟨ended, ran⟩ := ran
      cases custom : hook.action with
      | recordHistory =>
        rw [custom, StatementHook.run] at ran
        exact ((asks_modify _).bind fun _ => asks_pure _).of_runs ran
      | custom action =>
        rw [custom] at ran
        exact (client.postparse ofTurn custom statement).ofClient.of_runs ran
    | command command statement =>
      obtain ⟨ended, ran⟩ := ran
      cases command with
      | builtin which console => exact ((lenient.asks_builtin which console _).map _).of_runs ran
      | custom action => exact (client.command ofTurn statement).ofClient.of_runs ran
    | outcomeHook hook statement outcome =>
      obtain ⟨ended, ran⟩ := ran
      cases custom : hook.action with
      | defaultOutcome =>
        rw [custom] at ran
        exact (asks_pure _).of_runs ran
      | custom action =>
        rw [custom] at ran
        exact (client.postexecute ofTurn custom statement outcome).ofClient.of_runs ran
    | endOfInput handle interactive =>
      obtain ⟨ended, ran⟩ := ran
      exact (client.endOfInput ofTurn interactive).ofClient.of_runs ran
  exact List.forall_mem_append.mpr ⟨announced, asks⟩

namespace Shell

theorem LineCalls.ofTurn (told : shell.LineCalls line before calls ended after) :
    ∀ call ∈ calls, call.callee.OfTurn shell := by
  have hooked : ∀ {statement memory made result left},
      StatementHookCalls shell.hooks.postparse statement memory made result left →
        ∀ call ∈ made, call.callee.OfTurn shell := by
    intro statement memory made result left handed call member
    obtain ⟨hook, among, given, same⟩ := handed.callee_of_mem call member
    rw [same]
    exact among
  cases told with
  | unparsed parsed => exact List.forall_mem_singleton.mpr rfl
  | refused parsed handed | notFound parsed handed =>
    exact List.forall_mem_cons.mpr ⟨rfl, hooked handed⟩
  | failed parsed handed bound ran =>
    refine List.forall_mem_cons.mpr ⟨rfl, List.forall_mem_append.mpr ⟨hooked handed, ?_⟩⟩
    exact List.forall_mem_singleton.mpr bound
  | finished parsed handed bound ran closing =>
    refine List.forall_mem_cons.mpr ⟨rfl, List.forall_mem_append.mpr ⟨hooked handed, ?_⟩⟩
    refine List.forall_mem_cons.mpr ⟨bound, fun call member => ?_⟩
    obtain ⟨hook, among, given, same⟩ := closing.callee_of_mem call member
    rw [same]
    exact among

theorem LineCalls.asks {before after : Memory σ}
    (told : shell.LineCalls line before calls ended after) (client : shell.ClientAsks allowed)
    (lenient : Request.Lenient allowed) :
    ∀ exchange ∈ calls.flatMap Call.exchanges, allowed exchange.1 := by
  intro exchange member
  obtain ⟨call, made, asked⟩ := List.mem_flatMap.mp member
  obtain ⟨front, back, rfl⟩ := List.append_of_mem made
  exact (told.ofTurn call made).asks client lenient told.passes.at_call.2 exchange asked

variable {before after : LoopState σ}

theorem ClientAsks.renderPrompt (client : shell.ClientAsks allowed)
    (rendered : (shell.renderPrompt state).Runs exchanges (text, changed)) :
    ∀ exchange ∈ exchanges, allowed exchange.1 := by
  cases custom : shell.renderer with
  | none =>
    rw [renderPrompt_of_none custom] at rendered
    obtain ⟨rfl, _⟩ := Program.runs_pure_pair_iff.mp rendered
    exact nofun
  | some render =>
    rw [renderPrompt_of_some custom] at rendered
    exact (client.renderer custom shell.prompt state).of_runs rendered

theorem nextLine_asks (client : shell.ClientAsks allowed)
    (source : before.input.source.ClientAsks allowed)
    (lenient : Request.Lenient allowed) (took : shell.nextLine.Runs before taking ended after) :
    (∀ exchange ∈ taking, allowed exchange.1) ∧ after.input.source.ClientAsks allowed := by
  obtain ⟨⟨queue, source⟩, memory⟩ := before
  cases queue with
  | cons line queue =>
    obtain ⟨rfl, _, rfl⟩ := runs_nextLine_queued_iff.mp took
    exact ⟨nofun, source⟩
  | nil =>
    obtain ⟨later, changed, ⟨rendered, read⟩, rfl⟩ := runs_nextLine_live_iff.mp took
    obtain ⟨reading, kept⟩ := (Source.reads_of_runs read).asks source lenient
    exact ⟨List.forall_mem_append.mpr ⟨client.renderPrompt rendered, reading⟩, kept⟩

theorem TurnCalls.ofTurn (turn : shell.TurnCalls before step calls after) :
    ∀ call ∈ calls, call.callee.OfTurn shell := by
  cases turn with
  | unread | unhandled | blank => nofun
  | handled took said handler ran => exact List.forall_mem_singleton.mpr handler
  | executed took filled ran | unresolved took filled ran => exact ran.ofTurn

theorem TurnCalls.asks (turn : shell.TurnCalls before step calls after)
    (client : shell.ClientAsks allowed) (lenient : Request.Lenient allowed)
    (source : before.input.source.ClientAsks allowed) :
    (∀ exchange ∈ step.exchanges shell.console, allowed exchange.1) ∧
      after.input.source.ClientAsks allowed := by
  have announced : ∀ interactive, allowed (endAnnounced interactive).1 :=
    fun interactive => lenient.record _
  cases turn with
  | unread took | blank took => exact nextLine_asks client source lenient took
  | handled took said handler ran =>
    obtain ⟨taking, kept⟩ := nextLine_asks client source lenient took
    have asks := (client.endOfInput handler _).ofClient.of_runs ran
    refine ⟨List.forall_mem_append.mpr ⟨taking, ?_⟩, kept⟩
    refine List.forall_mem_append.mpr ⟨kept.isInteractive said, ?_⟩
    exact List.forall_mem_cons.mpr ⟨announced _, asks⟩
  | unhandled took handler met =>
    obtain ⟨taking, kept⟩ := nextLine_asks client source lenient took
    cases met with
    | handled _ other ran => cases handler.symm.trans other
    | person said =>
      refine ⟨List.forall_mem_append.mpr ⟨taking, ?_⟩, kept⟩
      refine List.forall_mem_append.mpr ⟨kept.isInteractive said, ?_⟩
      refine List.forall_mem_cons.mpr ⟨announced true, ?_⟩
      exact List.forall_mem_singleton.mpr (lenient.write _ _ _)
    | finished said =>
      refine ⟨List.forall_mem_append.mpr ⟨taking, ?_⟩, kept⟩
      refine List.forall_mem_append.mpr ⟨kept.isInteractive said, ?_⟩
      exact List.forall_mem_singleton.mpr (announced false)
  | executed took filled ran =>
    obtain ⟨taking, kept⟩ := nextLine_asks client source lenient took
    exact ⟨List.forall_mem_append.mpr ⟨taking, ran.asks client lenient⟩, kept⟩
  | @unresolved _ _ _ _ statement _ reported took filled ran =>
    obtain ⟨taking, kept⟩ := nextLine_asks client source lenient took
    have reports : ∀ exchange ∈ reporting shell.console statement reported, allowed exchange.1 :=
      List.forall_mem_cons.mpr
        ⟨lenient.record _, List.forall_mem_singleton.mpr (lenient.write _ _ _)⟩
    refine ⟨List.forall_mem_append.mpr ⟨taking, ?_⟩, kept⟩
    exact List.forall_mem_append.mpr ⟨ran.asks client lenient, reports⟩

theorem TurnsCalls.ofTurn (took : shell.TurnsCalls before steps calls ending after) :
    ∀ call ∈ calls, call.callee.OfTurn shell := by
  induction took with
  | unfinished => nofun
  | last turn ends => exact turn.ofTurn
  | next turn goesOn rest ih => exact List.forall_mem_append.mpr ⟨turn.ofTurn, ih⟩

theorem TurnsCalls.asks (took : shell.TurnsCalls before steps calls ending after)
    (client : shell.ClientAsks allowed) (lenient : Request.Lenient allowed)
    (source : before.input.source.ClientAsks allowed) :
    (∀ exchange ∈ steps.flatMap (LoopStep.exchanges shell.console), allowed exchange.1) ∧
      after.input.source.ClientAsks allowed := by
  induction took with
  | unfinished => exact ⟨nofun, source⟩
  | last turn ends =>
    rw [List.flatMap_singleton]
    exact turn.asks client lenient source
  | next turn goesOn rest ih =>
    obtain ⟨first, kept⟩ := turn.asks client lenient source
    obtain ⟨others, last⟩ := ih kept
    exact ⟨List.forall_mem_append.mpr ⟨first, others⟩, last⟩

end Shell

/-- All that hooks of the loop ask for is allowed, if it is for each of them. -/
theorem LoopHookCalls.asks {point : HookPoint} {hooks : List (Named (LoopHook σ))}
    (called : LoopHookCalls point hooks before calls ended after)
    (each : ∀ hook ∈ hooks, hook.action.run.Asks allowed) (lenient : Request.Lenient allowed) :
    ∀ exchange ∈ calls.flatMap Call.exchanges, allowed exchange.1 := by
  intro exchange member
  obtain ⟨call, made, asked⟩ := List.mem_flatMap.mp member
  obtain ⟨hook, among, _, same⟩ := CallsThrough.callee_of_mem called call made
  obtain ⟨front, back, rfl⟩ := List.append_of_mem made
  have ran := called.passes.at_call.2
  rw [Call.exchanges, same] at asked
  rw [same] at ran
  obtain ⟨result, ran⟩ := ran
  rcases List.mem_cons.mp asked with announced | later
  · rw [announced]
    exact lenient.record _
  · exact (each hook among).of_runs ran exchange later

end LineShell
