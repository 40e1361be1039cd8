import LineShell.CommandLine
import LineShell.Host
import LineShell.Proofs.Alike
import LineShell.Proofs.Calls
import LineShell.Proofs.PlainLines
/-!
How lines are fed to a session. Lines that wait in the queue and lines that a source without a person
gives are the same to the loop: it takes them in order, and nothing else depends on where they wait.
-/

namespace LineShell

variable {ε σ : Type}

/-- Nobody types into the source, and it gives the lines one by one and then ends. -/
inductive Source.Gives : Source σ → List String → Prop where
  | empty : Gives .empty []
  | buffered {cursor : ByteCursor} (held : cursor.lines = lines.map .ok) :
      Gives (.buffered false cursor) lines

/-- The lines wait, in order: those of the queue, and then those that the source gives. -/
def Input.Holds (input : Input σ) (lines : List String) : Prop :=
  ∃ live, lines = input.queue ++ live ∧ input.source.Gives live

theorem Source.gives_ofLines {lines : List String} (plain : ∀ line ∈ lines, Lines.Plain line) :
    Gives (.buffered false (.ofLines lines) : Source σ) lines :=
  .buffered (ByteCursor.lines_ofLines plain)

namespace Source.Gives

theorem isInteractive {source : Source σ} (gives : source.Gives lines) :
    source.isInteractive = pure false := by
  cases gives <;> rfl

theorem read {source : Source σ} (gives : source.Gives lines) :
    ∃ later : Source σ, later.Gives lines.tail ∧
      ∀ prompt console client,
        source.read prompt console client = pure (.ok lines.head?, later, client) := by
  cases gives with
  | empty => exact ⟨.empty, .empty, fun _ _ _ => rfl⟩
  | @buffered lines cursor held =>
    refine ⟨.buffered false (nextLine cursor).2, ?_⟩
    by_cases empty : cursor.rest = []
    · obtain ⟨given, left⟩ := nextLine_of_rest_eq_nil empty
      rw [ByteCursor.lines_of_rest_eq_nil empty] at held
      obtain rfl := List.map_eq_nil_iff.mp held.symm
      refine ⟨.buffered (ByteCursor.lines_of_rest_eq_nil left), fun prompt console client => ?_⟩
      simp only [Source.read, given]
      rfl
    · have given := nextLine_of_rest_ne_nil empty
      rw [ByteCursor.lines_of_rest_ne_nil empty] at held
      obtain ⟨line, later, rfl, first, rest⟩ := List.map_eq_cons_iff.mp held.symm
      refine ⟨.buffered rest.symm, fun prompt console client => ?_⟩
      simp only [Source.read, given, ← first]
      rfl

theorem unique {source : Source σ} (gives : source.Gives lines) (alike : source.Gives others) :
    lines = others := by
  cases gives with
  | empty =>
    cases alike
    rfl
  | buffered held =>
    cases alike with
    | buffered same =>
      have both := held.symm.trans same
      exact (List.map_inj_right fun _ _ => Except.ok.inj).mp both

end Source.Gives

namespace Input.Holds

variable {input other : Input σ}

theorem isInteractive (holds : input.Holds lines) :
    input.source.isInteractive = pure false := by
  obtain ⟨live, _, gives⟩ := holds
  exact gives.isInteractive

theorem unique (holds : input.Holds lines) (alike : input.Holds others) : lines = others := by
  obtain ⟨live, rfl, gives⟩ := holds
  obtain ⟨rest, rfl, same⟩ := alike
  rw [gives.unique same]

theorem nextLine (holds : input.Holds lines) {shell : Shell σ} (quiet : shell.PromptsQuietly) :
    ∃ rest : Input σ, rest.Holds lines.tail ∧ ∀ memory taking ended after,
      shell.nextLine.Runs ⟨input, memory⟩ taking ended after ↔
        taking = [] ∧ ended = .ok lines.head? ∧ after = ⟨rest, memory⟩ := by
  obtain ⟨live, rfl, gives⟩ := holds
  obtain ⟨queue, source⟩ := input
  cases queue with
  | cons line queue =>
    refine ⟨⟨queue, source⟩, ⟨live, rfl, gives⟩, ?_⟩
    intro memory taking ended after
    exact Shell.runs_nextLine_queued_iff
  | nil =>
    obtain ⟨later, left, reads⟩ := gives.read
    refine ⟨⟨[], later⟩, ⟨_, rfl, left⟩, ?_⟩
    intro memory taking ended after
    simp only [Shell.runs_nextLine_live_iff, quiet.lineRead_iff, reads]
    constructor
    · rintro ⟨_, _, ⟨_, _, read⟩, rfl⟩
      obtain ⟨rfl, rfl, same⟩ := Program.runs_pure_pair_iff.mp read
      cases same
      exact ⟨rfl, rfl, rfl⟩
    · rintro ⟨rfl, rfl, rfl⟩
      obtain ⟨prompt, renders⟩ := quiet memory.client
      exact ⟨later, memory.client, ⟨prompt, renders, .done _⟩, rfl⟩

end Input.Holds

namespace Shell

variable {shell : Shell σ} {input other : Input σ} {memory : Memory σ}

/-- What the end of input comes to depends on the input only by whether a person is there. -/
theorem EndMet.refed {after : LoopState σ} (met : shell.EndMet ⟨input, memory⟩ asked ended after)
    (same : other.source.isInteractive = input.source.isInteractive) :
    shell.EndMet ⟨other, memory⟩ asked ended ⟨other, after.memory⟩ ∧ after.input = input := by
  cases met with
  | handled said handler ran => exact ⟨.handled (same ▸ said) handler ran, rfl⟩
  | person said unhandled => exact ⟨.person (same ▸ said) unhandled, rfl⟩
  | finished said unhandled => exact ⟨.finished (same ▸ said) unhandled, rfl⟩

/-- A turn does the same wherever the lines wait. -/
theorem TurnCalls.refed {after : LoopState σ} (quiet : shell.PromptsQuietly)
    (turn : shell.TurnCalls ⟨input, memory⟩ step calls after)
    (holds : input.Holds lines) (alike : other.Holds lines) :
    ∃ left rest, shell.TurnCalls ⟨other, memory⟩ step calls ⟨rest, after.memory⟩ ∧
      after.input.Holds left ∧ rest.Holds left := by
  obtain ⟨later, held, takes⟩ := holds.nextLine quiet
  obtain ⟨rest, kept, draws⟩ := alike.nextLine quiet
  have drawn : shell.nextLine.Runs ⟨other, memory⟩ [] (.ok lines.head?) ⟨rest, memory⟩ :=
    (draws _ _ _ _).mpr ⟨rfl, rfl, rfl⟩
  have still : rest.source.isInteractive = later.source.isInteractive :=
    kept.isInteractive.trans held.isInteractive.symm
  refine ⟨lines.tail, rest, ?_⟩
  cases turn with
  | unread took =>
    obtain ⟨_, impossible, _⟩ := (takes _ _ _ _).mp took
    cases impossible
  | handled took said handler ran =>
    obtain ⟨rfl, given, rfl⟩ := (takes _ _ _ _).mp took
    rw [← given] at drawn
    exact ⟨.handled drawn (still ▸ said) handler ran, held, kept⟩
  | unhandled took handler met =>
    obtain ⟨rfl, given, rfl⟩ := (takes _ _ _ _).mp took
    rw [← given] at drawn
    obtain ⟨again, same⟩ := met.refed still
    rw [same]
    exact ⟨.unhandled drawn handler again, held, kept⟩
  | blank took blank =>
    obtain ⟨rfl, given, rfl⟩ := (takes _ _ _ _).mp took
    rw [← given] at drawn
    exact ⟨.blank drawn blank, held, kept⟩
  | executed took filled ran found =>
    obtain ⟨rfl, given, rfl⟩ := (takes _ _ _ _).mp took
    rw [← given] at drawn
    exact ⟨.executed drawn filled ran found, held, kept⟩
  | unresolved took filled ran =>
    obtain ⟨rfl, given, rfl⟩ := (takes _ _ _ _).mp took
    rw [← given] at drawn
    exact ⟨.unresolved drawn filled ran, held, kept⟩

theorem TurnsCalls.refed {before after : LoopState σ} (quiet : shell.PromptsQuietly)
    (took : shell.TurnsCalls before steps calls ending after)
    (holds : before.input.Holds lines) (alike : other.Holds lines) :
    ∃ left rest, shell.TurnsCalls ⟨other, before.memory⟩ steps calls ending ⟨rest, after.memory⟩ ∧
      after.input.Holds left ∧ rest.Holds left := by
  induction took generalizing other lines with
  | unfinished => exact ⟨lines, other, .unfinished, holds, alike⟩
  | last turn ends =>
    obtain ⟨left, rest, again, held, kept⟩ := turn.refed quiet holds alike
    exact ⟨left, rest, .last again ends, held, kept⟩
  | next turn goesOn more ih =>
    obtain ⟨_, between, again, held, kept⟩ := turn.refed quiet holds alike
    obtain ⟨left, rest, onward, heldOn, keptOn⟩ := ih held kept
    exact ⟨left, rest, .next again goesOn onward, heldOn, keptOn⟩

end Shell

namespace Session

/-- The session with other input. -/
def fed (session : Session σ) (input : Input σ) : Session σ :=
  { session with input }

variable {session after : Session σ} {input other : Input σ}

/-- A run of the loop is the same wherever the lines wait, and it leaves the same lines. -/
theorem LoopCalls.refed (quiet : session.shell.PromptsQuietly)
    (looped : (session.fed input).LoopCalls exchanges steps calls ending after)
    (holds : input.Holds lines) (alike : other.Holds lines) :
    ∃ left rest others memory, after = session.left ⟨rest, memory⟩ ∧
      (session.fed other).LoopCalls exchanges steps calls ending (session.left ⟨others, memory⟩) ∧
      rest.Holds left ∧ others.Holds left := by
  cases looped with
  | preloopFailed before => exact ⟨lines, input, other, _, rfl, .preloopFailed before, holds, alike⟩
  | ended before took going =>
    obtain ⟨left, rest, again, held, kept⟩ := took.refed quiet holds alike
    refine ⟨left, _, rest, _, rfl, ?_, held, kept⟩
    exact .ended before again going
  | closed before took closing =>
    obtain ⟨left, rest, again, held, kept⟩ := took.refed quiet holds alike
    refine ⟨left, _, rest, _, rfl, ?_, held, kept⟩
    have hooked : LoopHookCalls .preloop (session.fed other).shell.hooks.preloop
        (session.fed other).memory _ _ _ := before
    exact .closed hooked again closing

/-- Two endings of a session's loop that differ at most in where the same lines still wait. -/
def EndAlike (session : Session σ) (first second : Ending × Session σ) : Prop :=
  first.1 = second.1 ∧ ∃ left rest others memory,
    first.2 = session.left ⟨rest, memory⟩ ∧ second.2 = session.left ⟨others, memory⟩ ∧
    rest.Holds left ∧ others.Holds left

theorem run_alike (session : Session σ) (quiet : session.shell.PromptsQuietly)
    (holds : input.Holds lines) (alike : other.Holds lines) (turns : Nat) :
    ((session.fed input).run turns).Alike session.EndAlike ((session.fed other).run turns) := by
  apply Program.alike_of_runs
  rintro exchanges ⟨ending, after⟩ ran
  obtain ⟨steps, calls, looped, enough⟩ := runs_run_iff_calls.mp ran
  obtain ⟨left, rest, others, memory, same, again, held, kept⟩ := looped.refed quiet holds alike
  refine ⟨(ending, session.left ⟨others, memory⟩), ?_, rfl, left, rest, others, memory, same, rfl,
    held, kept⟩
  exact runs_run_iff_calls.mpr ⟨steps, calls, again, enough⟩

end Session

namespace Session

/-- The second session is the first with other input, and its prompt is a fixed text. -/
structure AlikeBut (input other : Input σ) (first second : Session σ) : Prop where
  input : first.input = input
  renderer : first.shell.renderer = none
  second : second = first.fed other

variable {input other : Input σ}

theorem alike_modify {change : Session σ → Session σ}
    (apart : ∀ session, change (session.fed other) = (change session).fed other ∧
      (change session).input = session.input ∧
      (change session).shell.renderer = session.shell.renderer) :
    Action.Alike (AlikeBut input other) (modify change : Action ε (Session σ) PUnit)
      (modify change) := by
  apply Action.alike_modify
  rintro session _ ⟨rfl, fixed, rfl⟩
  obtain ⟨same, kept, still⟩ := apart session
  exact ⟨kept, still.trans fixed, same⟩

theorem alike_addCommand (name : String) (command : Command σ) :
    Action.Alike (AlikeBut input other) (addCommand name command) (addCommand name command) := by
  unfold addCommand
  apply Action.alike_get_bind
  rintro session _ ⟨rfl, fixed, rfl⟩
  -- What is read of the session is its shell, which is the same with other input.
  have same : (session.fed other).shell = session.shell := rfl
  simp only [same]
  split
  · exact fun state last both => .done ⟨rfl, both⟩
  · apply (Action.alike_record _ _ _).bind
    intro _ state last both
    exact .done ⟨rfl, rfl, fixed, rfl⟩

theorem alike_bindBuiltin (builtin : Builtin) :
    Action.Alike (AlikeBut input other) (Module.bindBuiltin builtin)
      (Module.bindBuiltin builtin) := by
  unfold Module.bindBuiltin
  apply Action.alike_get_bind
  rintro session _ ⟨rfl, fixed, rfl⟩
  exact (alike_addCommand _ _).mapError _

theorem alike_loadModule {module : Module σ}
    (load : Action.Alike (AlikeBut input other) module.load module.load) :
    Action.Alike (AlikeBut input other) (loadModule module) (loadModule module) := by
  unfold loadModule
  apply Action.alike_get_bind
  rintro session _ ⟨rfl, fixed, rfl⟩
  have same : (session.fed other).shell = session.shell := rfl
  rw [same]
  split
  · exact Action.alike_record _ _ _
  · apply (load.mapError _).bind
    intro _
    apply Action.Alike.bind
    · exact alike_modify fun _ => ⟨rfl, rfl, rfl⟩
    · intro _
      exact Action.alike_record _ _ _

theorem alike_loadHistory (limit : Nat) (path : Option String) :
    Action.Alike (AlikeBut input other) (loadModule (.history limit path))
      (loadModule (.history limit path)) := by
  apply alike_loadModule
  apply (alike_bindBuiltin .hist).bind
  intro _
  apply Action.Alike.bind
  · exact alike_modify fun _ => ⟨rfl, rfl, rfl⟩
  · intro _
    exact alike_modify fun _ => ⟨rfl, rfl, rfl⟩

theorem alike_applySettings (settings : Settings) :
    Action.Alike (AlikeBut input other) (applySettings settings) (applySettings settings) := by
  unfold applySettings
  apply Action.Alike.bind
  · exact alike_modify fun _ => ⟨rfl, rfl, rfl⟩
  · intro _
    split
    · exact alike_loadHistory _ _
    · exact Action.alike_pure _

end Session

namespace CommandLine

/-- Set up a session, but for the lines of the command line. -/
def setUpShell (terminal : Option (Except DeviceError (Source σ))) (options : Options) :
    Action Failure (Session σ) Unit := do
  let (settings, threshold) ←
    Action.attempt (fun error => .shell error.toShellError) (settings options)
  Action.attempt
    (fun error => .context ("can't open log file " ++ settings.logging.file.getD "") (.device error))
    (Program.startLog threshold settings.logging.file)
  Action.mapError .shell do
    Session.applySettings settings
    takeEditor terminal
    Session.loadModule .exit
    Session.loadModule .echo
    Session.loadModule .defaultOutcome
  Action.record .debug logTarget ("modules: " ++ Text.quotedList (← get).shell.modules.names)

theorem setUp_eq (terminal : Option (Except DeviceError (Source σ))) (options : Options) :
    setUp terminal options = setUpShell terminal options >>= fun _ => modify fun session =>
      { session with input := { session.input with
        queue := session.input.queue ++ options.commands } } := by
  simp only [setUp, setUpShell, bind_assoc]

variable {input other : Input σ}

theorem alike_setUpShell (options : Options) :
    Action.Alike (Session.AlikeBut input other) (setUpShell none options)
      (setUpShell none options) := by
  unfold setUpShell
  apply (Action.alike_attempt _ _).bind
  rintro ⟨settings, threshold⟩
  apply (Action.alike_attempt _ _).bind
  intro _
  apply Action.Alike.bind
  · apply Action.Alike.mapError
    apply (Session.alike_applySettings settings).bind
    intro _
    apply (Action.alike_pure _).bind
    intro _
    apply (Session.alike_loadModule (Session.alike_bindBuiltin .exit)).bind
    intro _
    apply (Session.alike_loadModule (Session.alike_bindBuiltin .echo)).bind
    intro _
    exact Session.alike_loadModule (Session.alike_modify fun _ => ⟨rfl, rfl, rfl⟩)
  · intro _
    apply Action.alike_get_bind
    rintro session _ ⟨rfl, fixed, rfl⟩
    exact Action.alike_record _ _ _

theorem readFrom_command (options : Options) (line : String) (rest : List String) :
    Arguments.readFrom rules false false options ("-c" :: line :: rest) =
      Arguments.readFrom rules false false
        { options with commands := options.commands ++ [line] } rest := rfl

theorem read_commands (lines : List String) :
    read (lines.flatMap fun line => ["-c", line]) = .ok { commands := lines } := by
  have each : ∀ options : Options,
      Arguments.readFrom rules false false options (lines.flatMap fun line => ["-c", line]) =
        .ok { options with commands := options.commands ++ lines } := by
    induction lines with
    | nil =>
      intro options
      simp [Arguments.readFrom]
    | cons line later ih =>
      intro options
      rw [List.flatMap_cons, List.cons_append, List.singleton_append, readFrom_command, ih]
      simp
  exact each {}

theorem length_segments_ofLines {lines : List String} (plain : ∀ line ∈ lines, Lines.Plain line) :
    (Lines.segments Bytes.isNewline (ByteCursor.ofLines lines).bytes).length = lines.length := by
  have held := congrArg List.length (ByteCursor.lines_ofLines plain)
  simpa [ByteCursor.lines, ByteCursor.rest, ByteCursor.ofLines] using held

/-- What two set-ups come to that differ in the lines of the command line and in the bytes to read:
sessions that differ in their input only. -/
def SetUpAlike (queued others : List String) (input rest : Bytes)
    (first second : Except Failure Unit × Session Unit) : Prop :=
  first.1 = second.1 ∧ (first.1 = .ok () → ∃ session : Session Unit,
    session.shell.renderer = none ∧ first.2 = session.fed ⟨queued, .buffered false { bytes := input }⟩ ∧
    second.2 = session.fed ⟨others, .buffered false { bytes := rest }⟩)

theorem setUp_alike (options : Options) (queued others : List String) (input rest : Bytes) :
    ((setUp none { options with commands := queued }).runFrom (sessionOn input)).Alike
      (SetUpAlike queued others input rest)
      ((setUp none { options with commands := others }).runFrom (sessionOn rest)) := by
  have shared : ∀ commands,
      (setUpShell none { options with commands } : Action Failure (Session Unit) Unit) =
        setUpShell none options := fun _ => rfl
  rw [setUp_eq, setUp_eq, shared, shared, Action.runFrom_bind, Action.runFrom_bind]
  apply (alike_setUpShell options (sessionOn input) (sessionOn rest) ⟨rfl, rfl, rfl⟩).bind
  rintro ⟨ended, session⟩ ⟨_, _⟩ ⟨rfl, input, fixed, rfl⟩
  cases ended with
  | error failure => exact .done ⟨rfl, nofun⟩
  | ok _ =>
    refine .done ⟨rfl, fun _ => ⟨session, fixed, ?_, rfl⟩⟩
    simp only [Session.fed]
    rw [input]
    rfl

theorem runSession_alike (session : Session σ) (quiet : session.shell.PromptsQuietly)
    (holds : input.Holds lines) (alike : other.Holds lines) (turns : Nat) :
    (runSession (session.fed input) turns).Alike Eq (runSession (session.fed other) turns) := by
  apply (session.run_alike quiet holds alike turns).bind
  rintro ⟨ending, _⟩ ⟨_, _⟩ ⟨rfl, _⟩
  exact Program.Alike.refl _

/-- What the command line does once it has tried to set up a session. -/
def onceSetUp (options : Options) (input : StandardInput) :
    Except Failure Unit × Session Unit → Program UInt8
  | (.error failure, _) => fail failure
  | (.ok (), session) => runSession session (input.turnsFor options.commands)

theorem runOn_of_read {options : Options} {words : List String} (known : read words = .ok options)
    (input : StandardInput) :
    runOn words input =
      (setUp input.editor? options).runFrom input.session >>= onceSetUp options input := by
  rw [runOn, known]
  rfl

theorem run_of_read {options : Options} {words : List String} (known : read words = .ok options)
    (input : Bytes) :
    run words input =
      (setUp none options).runFrom (sessionOn input) >>= onceSetUp options (.piped input) :=
  runOn_of_read known (.piped input)

/-- Command lines that differ only in how many of the lines they are given in words do the same. -/
theorem run_eq_of_read {options : Options} {words more queued live others rest : List String}
    (plain : ∀ line ∈ queued ++ live, Lines.Plain line) (same : others ++ rest = queued ++ live)
    (first : read words = .ok { options with commands := queued })
    (second : read more = .ok { options with commands := others }) :
    run words (ByteCursor.ofLines live).bytes = run more (ByteCursor.ofLines rest).bytes := by
  have livePlain : ∀ line ∈ live, Lines.Plain line :=
    fun line member => plain line (List.mem_append_right queued member)
  have restPlain : ∀ line ∈ rest, Lines.Plain line :=
    fun line member => plain line (same ▸ List.mem_append_right others member)
  have sized : turnsFor queued (ByteCursor.ofLines live).bytes =
      turnsFor others (ByteCursor.ofLines rest).bytes := by
    have lengths := congrArg List.length same
    simp only [List.length_append] at lengths
    rw [turnsFor, turnsFor, length_segments_ofLines livePlain, length_segments_ofLines restPlain]
    omega
  have holds : (⟨queued, .buffered false (.ofLines live)⟩ : Input Unit).Holds (queued ++ live) :=
    ⟨live, rfl, Source.gives_ofLines livePlain⟩
  have alike : (⟨others, .buffered false (.ofLines rest)⟩ : Input Unit).Holds (queued ++ live) :=
    ⟨rest, same.symm, Source.gives_ofLines restPlain⟩
  rw [run_of_read first, run_of_read second]
  apply Program.Alike.eq
  apply (setUp_alike options queued others _ _).bind
  rintro ⟨ended, left⟩ ⟨_, right⟩ ⟨rfl, both⟩
  cases ended with
  | error failure => exact Program.Alike.refl _
  | ok _ =>
    obtain ⟨session, fixed, rfl, rfl⟩ := both rfl
    simp only [onceSetUp, StandardInput.turnsFor, sized]
    exact runSession_alike session (Shell.promptsQuietly_of_none fixed) holds alike _

end CommandLine

namespace Session

/-- However plain lines are split between the queue and a source to read them from, if prompts are made
quietly, the loop comes to the same: it makes the same calls, asks for the same, ends in the same way and
leaves the same lines and the same memory. So it does when all of them wait in the queue. On the command
line, lines to run and lines to read do the same. -/
theorem run_ignores_split (session : Session σ) (queued live : List String) (drained : Source σ)
    (quiet : session.shell.PromptsQuietly) (plain : ∀ line ∈ queued ++ live, Lines.Plain line)
    (exhausted : drained.Gives []) :
    let split := session.fed ⟨queued, .buffered false (.ofLines live)⟩
    let whole := session.fed ⟨queued ++ live, drained⟩
    (∀ exchanges steps calls ending memory left,
      (∃ rest : Input σ, rest.Holds left ∧
        split.LoopCalls exchanges steps calls ending (session.left ⟨rest, memory⟩)) ↔
      ∃ rest : Input σ, rest.Holds left ∧
        whole.LoopCalls exchanges steps calls ending (session.left ⟨rest, memory⟩)) ∧
    (∀ {τ : Type} (answer : (asked : Request) → τ → asked.Answer × τ) (surroundings : τ) turns,
      ∃ exchanges steps calls ending memory left last, ∃ rest others : Input σ,
        rest.Holds left ∧ others.Holds left ∧
        split.LoopCalls exchanges steps calls ending (session.left ⟨rest, memory⟩) ∧
        whole.LoopCalls exchanges steps calls ending (session.left ⟨others, memory⟩) ∧
        (split.run turns).exchangesWith answer surroundings = exchanges ∧
        (whole.run turns).exchangesWith answer surroundings = exchanges ∧
        (split.run turns).run answer surroundings = ((ending, session.left ⟨rest, memory⟩), last) ∧
        (whole.run turns).run answer surroundings =
          ((ending, session.left ⟨others, memory⟩), last)) ∧
    (∀ (options : CommandLine.Options) words more others rest, others ++ rest = queued ++ live →
      CommandLine.read words = .ok { options with commands := queued } →
      CommandLine.read more = .ok { options with commands := others } →
        CommandLine.run words (ByteCursor.ofLines live).bytes =
          CommandLine.run more (ByteCursor.ofLines rest).bytes) ∧
    CommandLine.run ((queued ++ live).flatMap fun line => ["-c", line]) [] =
      CommandLine.run [] (ByteCursor.ofLines (queued ++ live)).bytes := by
  intro split whole
  have livePlain : ∀ line ∈ live, Lines.Plain line :=
    fun line member => plain line (List.mem_append_right queued member)
  have splitHolds : (⟨queued, .buffered false (.ofLines live)⟩ : Input σ).Holds (queued ++ live) :=
    ⟨live, rfl, Source.gives_ofLines livePlain⟩
  have wholeHolds : (⟨queued ++ live, drained⟩ : Input σ).Holds (queued ++ live) :=
    ⟨[], (List.append_nil _).symm, exhausted⟩
  have follows : ∀ {input other : Input σ} {exchanges steps calls ending memory left},
      input.Holds (queued ++ live) → other.Holds (queued ++ live) →
      (∃ rest : Input σ, rest.Holds left ∧ (session.fed input).LoopCalls exchanges steps calls ending
        (session.left ⟨rest, memory⟩)) →
      ∃ rest : Input σ, rest.Holds left ∧ (session.fed other).LoopCalls exchanges steps calls ending
        (session.left ⟨rest, memory⟩) := by
    rintro input other exchanges steps calls ending memory left holds alike ⟨rest, held, looped⟩
    obtain ⟨others, _, last, _, same, again, kept, lastKept⟩ := looped.refed quiet holds alike
    obtain ⟨rfl, rfl⟩ : _ = _ ∧ _ = _ := ⟨congrArg Session.input same, congrArg Session.memory same⟩
    obtain rfl := held.unique kept
    exact ⟨last, lastKept, again⟩
  refine ⟨?calls, ?answered, ?options, ?words⟩
  case calls =>
    intro exchanges steps calls ending memory left
    exact ⟨follows splitHolds wholeHolds, follows wholeHolds splitHolds⟩
  case answered =>
    intro τ answer surroundings turns
    obtain ⟨_, last, asked⟩ :=
      (session.run_alike quiet splitHolds wholeHolds turns).run answer surroundings
    have ran := Program.runs_run answer (split.run turns) surroundings
    obtain ⟨steps, calls, looped, enough⟩ := runs_run_iff_calls.mp ran
    obtain ⟨left, rest, others, memory, here, again, held, kept⟩ :=
      looped.refed quiet splitHolds wholeHolds
    -- The other loop has one run with these answers, so it is the one that makes the same calls.
    have other := Program.runs_run answer (whole.run turns) surroundings
    have expected := runs_run_iff_calls.mpr ⟨steps, calls, again, enough⟩
    obtain ⟨_, there⟩ := other.unique expected (congrArg (· ++ []) asked.symm)
    rw [here] at looped
    exact ⟨_, steps, calls, _, memory, left, _, rest, others, held, kept, looped, again, rfl,
      asked.symm, Prod.ext (Prod.ext rfl here) rfl, Prod.ext there last.symm⟩
  case options =>
    intro options words more others rest same first second
    exact CommandLine.run_eq_of_read plain same first second
  case words =>
    have allPlain : ∀ line ∈ (queued ++ live) ++ [], Lines.Plain line := by simpa using plain
    have same : [] ++ (queued ++ live) = (queued ++ live) ++ [] := by simp
    have none : CommandLine.read [] = .ok { ({} : CommandLine.Options) with commands := [] } := rfl
    exact CommandLine.run_eq_of_read allPlain same (CommandLine.read_commands _) none

/-- One line of the command line and two lines to read: the first of these ends the session, and the
other waits still, as it does when all three wait in the queue. -/
theorem run_ignores_split_of_exit :
    let session : Session Unit := {
      shell := { commands := NameTable.insert ∅ "exit" (.builtin .exit 0) }
      memory := { client := () } }
    session.shell.PromptsQuietly ∧
    (∀ line ∈ [""] ++ ["exit 3", "echo"], Lines.Plain line) ∧
    (.empty : Source Unit).Gives [] ∧
    (∃ exchanges steps calls memory, ∃ rest others : Input Unit,
      rest.Holds ["echo"] ∧ others.Holds ["echo"] ∧
      (session.fed ⟨[""], .buffered false (.ofLines ["exit 3", "echo"])⟩).LoopCalls exchanges steps
        calls (.stopped (.stopWith 3)) (session.left ⟨rest, memory⟩) ∧
      (session.fed ⟨["", "exit 3", "echo"], .empty⟩).LoopCalls exchanges steps calls
        (.stopped (.stopWith 3)) (session.left ⟨others, memory⟩)) ∧
    CommandLine.run ["--posix", "-c", ""] (ByteCursor.ofLines ["exit 3", "echo"]).bytes =
      CommandLine.run ["-c", "", "--posix", "-c", "exit 3"] (ByteCursor.ofLines ["echo"]).bytes := by
  intro session
  have quiet : session.shell.PromptsQuietly := Shell.promptsQuietly_of_none rfl
  have plain : ∀ line ∈ [""] ++ ["exit 3", "echo"], Lines.Plain line := by
    intro line member
    simp only [List.cons_append, List.nil_append, List.mem_cons, List.not_mem_nil, or_false] at member
    rcases member with rfl | rfl | rfl <;> exact ⟨by decide, by decide⟩
  have exhausted : (.empty : Source Unit).Gives [] := .empty
  obtain ⟨_, answered, options, _⟩ :=
    run_ignores_split session [""] ["exit 3", "echo"] .empty quiet plain exhausted
  obtain ⟨exchanges, steps, calls, ending, memory, left, last, rest, others, held, kept, looped, again,
    _, _, _, ran⟩ := answered Host.answer {} 3
  obtain rfl : Ending.stopped (.stopWith 3) = ending := congrArg (·.1.1) ran
  have waiting : (⟨["echo"], .empty⟩ : Input Unit) = others := congrArg (·.1.2.input) ran
  have echoed : others.Holds ["echo"] := waiting ▸ ⟨[], rfl, .empty⟩
  obtain rfl := kept.unique echoed
  refine ⟨quiet, plain, exhausted,
    ⟨exchanges, steps, calls, memory, rest, others, held, kept, looped, again⟩, ?_⟩
  exact options { posix := true } _ _ ["", "exit 3"] ["echo"] rfl rfl rfl

end Session

end LineShell
