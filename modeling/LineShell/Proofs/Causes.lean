import LineShell.Host
import LineShell.Proofs.Attaching
import LineShell.Proofs.Reports
/-!
Chains of causes. An error shows a message and may name a cause, which shows a message in turn, down
to the root. What the client raises is told in full: by the error that a line or the loop ends with,
and by the error of a module that cannot be loaded, however deep the load was nested.
-/

namespace LineShell

variable {σ : Type}

/-- The message about a module that cannot be loaded, with what the load showed. -/
def loadMessage (module detail : String) : String :=
  "failed to load module " ++ module ++ ": " ++ detail

/-- What a reader meets who follows an error to its root. -/
inductive Cause where
  | shell (error : ShellError)
  | failure (failure : Failure)
  | editor (error : DeviceError)
  | device (error : DeviceError)

mutual

/-- The message that an error shows on its own. That of a command's failure is the failure's. -/
def ShellError.shown : ShellError → String
  | .commandNotFound statement => statement.command ++ ": command not found"
  | .hookMismatch hook point found =>
    "hook " ++ hook ++ " has signature " ++ found.signature ++ ", but " ++ point.name ++
      " hooks must be " ++ point.kind.signature
  | .alreadyBound name => "command already bound: " ++ name
  | .parse detail => "parse error: " ++ detail
  | .moduleLoad module cause => loadMessage module cause.shown
  | .command failure => failure.shown
  | .config detail => "configuration error: " ++ detail
  | .editor error => "line editor error: " ++ error.message
  | .device error => "i/o error: " ++ error.message

/-- The message that a failure shows on its own: that of the outermost context, if it has any. -/
def Failure.shown : Failure → String
  | .text message => message
  | .device error => error.message
  | .shell error => error.shown
  | .context message _ => message

end

mutual

/-- The cause that an error names. That of a command's failure is the failure's. -/
def ShellError.source? : ShellError → Option Cause
  | .commandNotFound _ | .hookMismatch .. | .alreadyBound _ | .parse _ | .config _ => none
  | .moduleLoad _ cause => some (.failure cause)
  | .command failure => failure.source?
  | .editor error => some (.editor error)
  | .device error => some (.device error)

/-- The cause that a failure names: what its outermost context was added to. -/
def Failure.source? : Failure → Option Cause
  | .text _ | .device _ => none
  | .shell error => error.source?
  | .context _ inner => some (.failure inner)

end

namespace Cause

def shown : Cause → String
  | shell error => error.shown
  | failure raised => raised.shown
  | editor error | device error => error.message

def source? : Cause → Option Cause
  | shell error => error.source?
  | failure raised => raised.source?
  | editor error => some (.device error)
  | device _ => none

/-- The messages met on the way to the root, from one cause to the next. -/
inductive Explained : Cause → List String → Prop where
  | root {cause : Cause} (bare : cause.source? = none) : Explained cause [cause.shown]
  | because {cause inner : Cause} (source : cause.source? = some inner)
      (rest : Explained inner texts) : Explained cause (cause.shown :: texts)

theorem Explained.unique {cause : Cause} (first : cause.Explained texts)
    (second : cause.Explained others) : texts = others := by
  induction first generalizing others with
  | root bare =>
    cases second with
    | root => rfl
    | because source =>
      rw [bare] at source
      cases source
  | because source rest ih =>
    cases second with
    | root bare =>
      rw [source] at bare
      cases bare
    | because other more =>
      obtain rfl := Option.some.inj (source.symm.trans other)
      rw [ih more]

theorem Explained.forward {cause other : Cause} (told : cause.Explained texts)
    (shown : other.shown = cause.shown) (source : other.source? = cause.source?) :
    other.Explained texts := by
  cases told with
  | root bare =>
    rw [← shown]
    exact .root (source.trans bare)
  | because named rest =>
    rw [← shown]
    exact .because (source.trans named) rest

theorem explained_device (error : DeviceError) : (device error).Explained [error.message] :=
  .root rfl

theorem Explained.headD {cause : Cause} (told : cause.Explained texts) :
    texts.headD "" = cause.shown := by
  cases told <;> rfl

end Cause

mutual

theorem ShellError.explained : (error : ShellError) → (Cause.shell error).Explained error.chain
  | .commandNotFound _ | .hookMismatch .. | .alreadyBound _ | .parse _ | .config _ => .root rfl
  | .moduleLoad module cause => by
    have inner := cause.explained
    rw [ShellError.chain, inner.headD]
    exact .because rfl inner
  | .command failure => by
    rw [ShellError.chain]
    exact failure.explained.forward rfl rfl
  | .editor error => .because rfl (.because rfl (Cause.explained_device error))
  | .device error => .because rfl (Cause.explained_device error)

theorem Failure.explained : (failure : Failure) → (Cause.failure failure).Explained failure.chain
  | .text _ | .device _ => .root rfl
  | .shell error => by
    rw [Failure.chain]
    exact error.explained.forward rfl rfl
  | .context _ inner => .because rfl inner.explained

end

/-- Following an error to its root gives its chain, and nothing else. -/
theorem ShellError.explained_iff {error : ShellError} :
    (Cause.shell error).Explained texts ↔ texts = error.chain :=
  ⟨fun told => told.unique error.explained, fun same => same ▸ error.explained⟩

/-- Following a failure to its root gives its chain, and nothing else. -/
theorem Failure.explained_iff {failure : Failure} :
    (Cause.failure failure).Explained texts ↔ texts = failure.chain :=
  ⟨fun told => told.unique failure.explained, fun same => same ▸ failure.explained⟩

/-- Contexts are told before what they were added to, the outermost first. -/
theorem Failure.chain_contexts (contexts : List String) (root : Failure) :
    (contexts.foldr Failure.context root).chain = contexts ++ root.chain := by
  induction contexts with
  | nil => rfl
  | cons message contexts ih => rw [List.foldr_cons, Failure.chain, ih, List.cons_append]

namespace Shell

variable {shell : Shell σ}

theorem Turns.followed (earlier : shell.Turns before front .unfinished reached)
    (turn : shell.Turn reached step after) (ends : step.ending? = some ending) :
    shell.Turns before (front ++ [step]) ending after := by
  generalize cut : Ending.unfinished = last at earlier
  induction earlier with
  | unfinished => exact .last turn ends
  | last _ stops =>
    rw [← cut] at stops
    exact absurd stops (Ending.ofResult?_ne_unfinished _)
  | next first goesOn _ ih => exact .next first goesOn (ih turn cut)

end Shell

namespace Session

variable {session after : Session σ}

/-- A hook, a command or the client's end of input fails in a run of the loop, when all that comes
before it has gone on. The number is that of the turns begun by then. -/
inductive Raises (session : Session σ) : List Exchange → Nat → Failure → Session σ → Prop where
  | preloop
      (hooked : LoopHooksRun .preloop session.shell.hooks.preloop session.memory asked
        (.error broken) entered) :
      Raises session asked 0 broken (session.left ⟨session.input, entered⟩)
  | line
      (hooked : LoopHooksRun .preloop session.shell.hooks.preloop session.memory asked (.ok ())
        entered)
      (turned : session.shell.Turns ⟨session.input, entered⟩ steps .unfinished reached)
      (took : session.shell.nextLine.Runs reached taking (.ok (some line)) middle)
      (filled : Text.isBlankLine line = false)
      (raised : session.shell.Raised line middle.memory following broken held) :
      Raises session
        (asked ++ (steps.flatMap (LoopStep.exchanges session.shell.console) ++
          (taking ++ following)))
        (steps.length + 1) broken (session.left { middle with memory := held })
  | endOfInput
      (hooked : LoopHooksRun .preloop session.shell.hooks.preloop session.memory asked (.ok ())
        entered)
      (turned : session.shell.Turns ⟨session.input, entered⟩ steps .unfinished reached)
      (took : session.shell.nextLine.Runs reached taking (.ok none) middle)
      (said : (middle.input.source.isInteractive middle.memory.client).Runs first
        (interactive, told))
      (handler : session.shell.endOfInput = some handle)
      (ran : (handle interactive).Runs told following (.error broken) client) :
      Raises session
        (asked ++ (steps.flatMap (LoopStep.exchanges session.shell.console) ++
          (taking ++ (first ++ Shell.endAnnounced interactive :: following))))
        (steps.length + 1) broken
        (session.left { middle with memory := { middle.memory with client } })
  | postloop
      (hooked : LoopHooksRun .preloop session.shell.hooks.preloop session.memory asked (.ok ())
        entered)
      (turned : session.shell.Turns ⟨session.input, entered⟩ steps (.stopped outcome) reached)
      (closing : LoopHooksRun .postloop session.shell.hooks.postloop reached.memory last
        (.error broken) held) :
      Raises session
        (asked ++ (steps.flatMap (LoopStep.exchanges session.shell.console) ++ last))
        steps.length broken (session.left { reached with memory := held })

/-- What fails in a turn ends the loop with that turn. -/
private theorem CommandLoop.of_turn
    (hooked : LoopHooksRun .preloop session.shell.hooks.preloop session.memory asked (.ok ())
      entered)
    (turned : session.shell.Turns ⟨session.input, entered⟩ steps .unfinished reached)
    (turn : session.shell.Turn reached step state) (failed : step.result = .error error) :
    session.CommandLoop
      (asked ++ (steps.flatMap (LoopStep.exchanges session.shell.console) ++
        step.exchanges session.shell.console))
      (steps ++ [step]) (.failed error) (session.left state) := by
  have took := turned.followed turn (LoopStep.ending?_eq_failed_iff.mpr failed)
  simpa using CommandLoop.failed hooked took

theorem Raises.commandLoop (raises : session.Raises exchanges turns broken after) :
    ∃ steps, steps.length = turns ∧
      session.CommandLoop exchanges steps (.failed (.command broken)) after := by
  cases raises with
  | preloop hooked => exact ⟨[], rfl, .preloopFailed hooked⟩
  | line hooked turned took filled raised =>
    have turn := Shell.Turn.executed took filled (Shell.runs_execute_iff.mpr (.raised raised)) nofun
    exact ⟨_, by simp, .of_turn hooked turned turn rfl⟩
  | endOfInput hooked turned took said handler ran =>
    have turn := Shell.Turn.endOfInput took (Shell.atEndOfInput_of_raised said handler ran)
    exact ⟨_, by simp, .of_turn hooked turned turn rfl⟩
  | postloop hooked turned closing => exact ⟨_, rfl, .postloopFailed hooked turned closing⟩

/-- What is raised in the loop is what the run ends with, given turns enough to get there. -/
theorem Raises.runs (raises : session.Raises exchanges turns broken after)
    (enough : turns ≤ limit) :
    (session.run limit).Runs exchanges (.failed (.command broken), after) := by
  obtain ⟨steps, rfl, looped⟩ := raises.commandLoop
  exact looped.runs ⟨enough, nofun⟩

/-- Loading a module fails when its own load does, with an error that keeps the failure. -/
theorem runs_loadModule_error_iff {module : Module σ} :
    (loadModule module).Runs session asked (.error error) after ↔
      session.hasModule module.name = false ∧ ∃ failure,
        module.load.Runs session asked (.error failure) after ∧
          error = .moduleLoad module.name failure := by
  rw [loadModule, Action.runs_get_bind_iff, hasModule]
  cases counted : session.shell.modules.contains module.name with
  | true =>
    simp only [↓reduceIte, Bool.true_eq_false, false_and, iff_false]
    intro ran
    obtain ⟨_, impossible, _⟩ := Action.runs_record_iff.mp ran
    cases impossible
  | false =>
    simp only [Bool.false_eq_true, ↓reduceIte, true_and]
    constructor
    · intro ran
      rcases Action.runs_bind_iff.mp ran with ⟨_, failed, same⟩ | ⟨_, _, _, _, _, onward, _⟩
      · cases same
        exact Action.runs_mapError_error_iff.mp failed
      · obtain ⟨_, impossible, _⟩ := Action.runs_record_iff.mp (Action.runs_modify_bind_iff.mp onward)
        cases impossible
    · intro failed
      exact Action.Runs.bind_error (Action.runs_mapError_error_iff.mpr failed)

end Session

namespace Module

/-- A module that is not attached yet fails to load: by itself, or because it loads another one that
does and passes on the error of that. The names are those of the modules on the way down. -/
inductive FailsThrough : Module σ → List String → Session σ → List Exchange → Failure →
    Session σ → Prop where
  | own {module : Module σ} {failure : Failure} {before : Session σ}
      (uncounted : before.hasModule module.name = false)
      (ran : module.load.Runs before asked (.error failure) after) :
      FailsThrough module [module.name] before asked failure after
  | passed {module inner : Module σ} {failure : Failure} {before : Session σ} {α : Type} {given : α}
      {front : Action Failure (Session σ) α} {back : α → Action Failure (Session σ) Unit}
      (uncounted : before.hasModule module.name = false)
      (passes : module.load = do
        let found ← front
        (Session.loadModule inner).mapError .shell
        back found)
      (began : front.Runs before asked (.ok given) middle)
      (fails : FailsThrough inner names middle others failure after) :
      FailsThrough module (module.name :: names) before (asked ++ others) failure after

variable {module : Module σ} {failure : Failure}

theorem runs_loadModule_of_error (uncounted : before.hasModule module.name = false)
    (ran : module.load.Runs before asked (.error failure) after) :
    (Session.loadModule module).Runs before asked (.error (.moduleLoad module.name failure)) after :=
  Session.runs_loadModule_error_iff.mpr ⟨uncounted, _, ran, rfl⟩

theorem runs_load_of_passed {inner : Module σ} {α : Type} {given : α}
    {front : Action Failure (Session σ) α} {back : α → Action Failure (Session σ) Unit}
    (passes : module.load = do
      let found ← front
      (Session.loadModule inner).mapError .shell
      back found)
    (began : front.Runs before asked (.ok given) middle)
    (ran : (Session.loadModule inner).Runs middle others (.error error) after) :
    module.load.Runs before (asked ++ others) (.error (.shell error)) after := by
  rw [passes]
  exact began.bind (Action.Runs.bind_error (Action.runs_mapError_error_iff.mpr ⟨_, ran, rfl⟩))

private theorem headD_wayDown (names : List String) (outer : String) (causes : List String) :
    (names.tails.map (·.foldr loadMessage outer) ++ causes).headD "" =
      names.foldr loadMessage outer := by
  cases names <;> rfl

/-- Each module on the way down puts a message before the chain of the error that it is passed, and
the innermost one before that of its failure. -/
theorem FailsThrough.runs (fails : module.FailsThrough names before asked failure after) :
    ∃ error, (Session.loadModule module).Runs before asked (.error error) after ∧
      error.chain =
        names.tails.map (·.foldr loadMessage failure.message) ++ failure.causes := by
  induction fails with
  | own uncounted ran =>
    refine ⟨_, runs_loadModule_of_error uncounted ran, ?_⟩
    rw [ShellError.chain, ← Failure.message_causes]
    rfl
  | passed uncounted passes began fails ih =>
    obtain ⟨error, ran, chain⟩ := ih
    have failed := runs_load_of_passed passes began ran
    refine ⟨_, runs_loadModule_of_error uncounted failed, ?_⟩
    rw [ShellError.chain, Failure.chain, chain, headD_wayDown]
    rfl

end Module

namespace Session

/-- The messages from an error to its root. The error of a line, or of the loop, shows those of what the
client raised, the outermost context first. The error of a module that cannot be loaded shows one more
in front of them for every load on the way down. -/
theorem tells_whole_chain (session : Session σ) :
    (∀ error texts, (Cause.shell error).Explained texts ↔ texts = error.message :: error.causes) ∧
    (∀ contexts root texts, (Cause.failure root).Explained texts →
      (∀ line exchanges memory,
        session.shell.Raised line session.memory exchanges (contexts.foldr .context root) memory →
        ∃ error, (session.execute line).Runs exchanges (.error error, { session with memory }) ∧
          (Cause.shell error).Explained (contexts ++ texts)) ∧
      ∀ exchanges turns after limit,
        session.Raises exchanges turns (contexts.foldr .context root) after → turns ≤ limit →
        ∃ error, (session.run limit).Runs exchanges (.failed error, after) ∧
          (Cause.shell error).Explained (contexts ++ texts)) ∧
    (∀ module failure outer causes, (Cause.failure failure).Explained (outer :: causes) →
      (∀ asked after, session.hasModule module.name = false →
        module.load.Runs session asked (.error failure) after →
        ∃ error, (loadModule module).Runs session asked (.error error) after ∧
          (Cause.shell error).Explained (loadMessage module.name outer :: outer :: causes)) ∧
      ∀ names asked after, module.FailsThrough names session asked failure after →
        ∃ error, (loadModule module).Runs session asked (.error error) after ∧
          (Cause.shell error).Explained
            (names.tails.map (·.foldr loadMessage outer) ++ causes)) := by
  refine ⟨fun error texts => ?_, fun contexts root texts told => ?_,
    fun module failure outer causes told => ?_⟩
  · rw [error.message_causes]
    exact ShellError.explained_iff
  · obtain rfl := Failure.explained_iff.mp told
    rw [← Failure.chain_contexts]
    refine ⟨fun line exchanges memory raised => ?_,
      fun exchanges turns after limit raises enough => ?_⟩
    · have ran := Shell.runs_execute_iff.mpr (.raised raised)
      exact ⟨_, runs_execute_iff.mpr ⟨memory, ran, rfl⟩, ShellError.explained _⟩
    · exact ⟨_, raises.runs enough, ShellError.explained _⟩
  · have whole := failure.message_causes.trans (Failure.explained_iff.mp told).symm
    obtain ⟨rfl, rfl⟩ := List.cons.inj whole
    have load : ∀ names asked after, module.FailsThrough names session asked failure after →
        ∃ error, (loadModule module).Runs session asked (.error error) after ∧
          (Cause.shell error).Explained
            (names.tails.map (·.foldr loadMessage failure.message) ++ failure.causes) := by
      intro names asked after fails
      obtain ⟨error, ran, chain⟩ := fails.runs
      exact ⟨error, ran, ShellError.explained_iff.mpr chain.symm⟩
    exact ⟨fun asked after uncounted ran => load _ asked after (.own uncounted ran), load⟩

/-- The missing command of another shell is told under its contexts, and a device that fails a module
within a module within a module under the three of them. -/
theorem tells_whole_chain_of_nested :
    let root : Failure := .shell (.commandNotFound ⟨"ls", ["ls"]⟩)
    let inner : Module Unit := ⟨"c", throw (.context "no room" (.device .notFound))⟩
    let around (name : String) (module : Module Unit) : Module Unit :=
      ⟨name, do
        let found ← get
        (loadModule module).mapError .shell
        set found⟩
    let session : Session Unit := {
      shell := { commands := NameTable.insert ∅ "sync" (.custom fun _ =>
        throw (["cannot sync", "remote"].foldr .context root)) }
      input := { queue := ["sync"] }
      memory := { client := () } }
    (∃ exchanges error, (session.execute "sync").Runs exchanges (.error error, session) ∧
      (Cause.shell error).Explained ["cannot sync", "remote", "ls: command not found"]) ∧
    (∃ exchanges error after, (session.run 1).Runs exchanges (.failed error, after) ∧
      (Cause.shell error).Explained ["cannot sync", "remote", "ls: command not found"]) ∧
    ∃ error, (loadModule (around "a" (around "b" inner))).Runs session [] (.error error) session ∧
      (Cause.shell error).Explained [
        "failed to load module a: failed to load module b: failed to load module c: no room",
        "failed to load module b: failed to load module c: no room",
        "failed to load module c: no room",
        "no room", "No such file or directory (os error 2)"] := by
  intro root inner around session
  obtain ⟨_, raises, loads⟩ := tells_whole_chain session
  obtain ⟨line, loop⟩ := raises ["cannot sync", "remote"] root ["ls: command not found"] (.root rfl)
  have raised : ∀ memory, session.shell.Raised "sync" memory [Shell.dispatching ⟨"sync", ["sync"]⟩]
      (["cannot sync", "remote"].foldr .context root) memory := by
    intro memory
    have parsed : (session.shell.parser.parse "sync").Runs memory [] (.ok ⟨"sync", ["sync"]⟩)
        memory := Program.Runs.done _
    exact .command (.intro parsed .done) rfl (Program.Runs.done _)
  refine ⟨?_, ?_, ?_⟩
  · exact ⟨_, line "sync" _ _ (raised _)⟩
  · have hooked : LoopHooksRun .preloop session.shell.hooks.preloop session.memory [] (.ok ())
        session.memory := .done
    have took : session.shell.nextLine.Runs ⟨session.input, session.memory⟩ []
        (.ok (some "sync")) ⟨{ session.input with queue := [] }, session.memory⟩ :=
      Program.Runs.done _
    have looped := Raises.line hooked .unfinished took (by decide +kernel) (raised _)
    obtain ⟨error, ran, told⟩ := loop _ _ _ 1 looped (Nat.le_refl 1)
    exact ⟨_, error, _, ran, told⟩
  · have told : (Cause.failure (.context "no room" (.device .notFound))).Explained
        ["no room", "No such file or directory (os error 2)"] := .because rfl (.root rfl)
    obtain ⟨_, nested⟩ := loads (around "a" (around "b" inner)) _ "no room" _ told
    have began : (get : Action Failure (Session Unit) (Session Unit)).Runs session [] (.ok session)
        session := Program.Runs.done _
    have innermost : inner.FailsThrough ["c"] session [] _ session :=
      .own (by decide +kernel) (Program.Runs.done _)
    have between : (around "b" inner).FailsThrough ["b", "c"] session [] _ session :=
      .passed (by decide +kernel) rfl began innermost
    have outermost :
        (around "a" (around "b" inner)).FailsThrough ["a", "b", "c"] session [] _ session :=
      .passed (by decide +kernel) rfl began between
    exact nested _ _ _ outermost

end Session

end LineShell
