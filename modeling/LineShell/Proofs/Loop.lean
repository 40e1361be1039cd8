import LineShell.Proofs.Pipeline
/-!
Runs of the loop: the steps it takes, one for each line or end of input, up to the first that ends
it, between the hooks before it and the hooks after it.
-/

namespace LineShell

variable {σ : Type}

/-- What one turn of the loop did: its exchanges while it took a line, those of what followed, and
what came of it. -/
inductive LoopStep where
  | unread (taking : List Exchange) (error : ShellError)
  | endOfInput (taking following : List Exchange) (result : Except ShellError Outcome)
  | blank (taking : List Exchange) (line : String)
  | executed (taking following : List Exchange) (line : String)
      (result : Except ShellError (Option Outcome))
  /-- No command was found, and that was reported with more or less success. -/
  | unresolved (taking following : List Exchange) (line : String) (statement : Statement)
      (reported : Except DeviceError Unit)

/-- The exchanges that report a statement that no command was found for. -/
def reporting (console : ConsoleId) (statement : Statement) (reported : Except DeviceError Unit) :
    List Exchange :=
  [Action.recorded .warn Shell.logTarget
      ("command not found: " ++ Text.quoted statement.command),
    ⟨.write console .err (statement.command ++ ": command not found\n"), reported⟩]

/-- How the loop ends when a turn has left it with a result, unless it goes on. -/
def Ending.ofResult? : Except ShellError (Option Outcome) → Option Ending
  | .error error => some (.failed error)
  | .ok none => none
  | .ok (some outcome) => if outcome.stop then some (.stopped outcome) else none

theorem Ending.ofResult?_ne_unfinished (result : Except ShellError (Option Outcome)) :
    ofResult? result ≠ some .unfinished := by
  rcases result with _ | _ | outcome
  · simp [ofResult?]
  · simp [ofResult?]
  · cases stops : outcome.stop <;> simp [ofResult?, stops]

namespace LoopStep

/-- All exchanges of a step in a shell that writes to a console. -/
def exchanges (console : ConsoleId) : LoopStep → List Exchange
  | unread taking _ => taking
  | endOfInput taking following _ => taking ++ following
  | blank taking _ => taking
  | executed taking following _ _ => taking ++ following
  | unresolved taking following _ statement reported =>
    taking ++ (following ++ reporting console statement reported)

/-- What the loop is left with after a step. -/
def result : LoopStep → Except ShellError (Option Outcome)
  | unread _ error => .error error
  | endOfInput _ _ result => result.map some
  | blank .. => .ok none
  | executed _ _ _ result => result
  | unresolved _ _ _ _ reported => (reported.map fun _ => none).mapError .device

/-- How the loop ends with a step, unless it goes on. -/
def ending? (step : LoopStep) : Option Ending :=
  Ending.ofResult? step.result

/-- The line that a step took. -/
def line? : LoopStep → Option String
  | unread .. => none
  | endOfInput .. => none
  | blank _ line => some line
  | executed _ _ line _ => some line
  | unresolved _ _ line _ _ => some line

end LoopStep

namespace Shell

/-- One turn of the loop. -/
inductive Turn (shell : Shell σ) (before : LoopState σ) : LoopStep → LoopState σ → Prop where
  | unread (took : shell.nextLine.Runs before taking (.error error) after) :
      Turn shell before (.unread taking error) after
  | endOfInput (took : shell.nextLine.Runs before taking (.ok none) middle)
      (met : shell.atEndOfInput.Runs middle following result after) :
      Turn shell before (.endOfInput taking following result) after
  | blank (took : shell.nextLine.Runs before taking (.ok (some line)) after)
      (blank : Text.isBlankLine line = true) : Turn shell before (.blank taking line) after
  | executed (took : shell.nextLine.Runs before taking (.ok (some line)) middle)
      (filled : Text.isBlankLine line = false)
      (ran : (shell.execute line).Runs middle.memory following result memory)
      (found : ∀ statement, result ≠ .error (.commandNotFound statement)) :
      Turn shell before (.executed taking following line result) { middle with memory }
  | unresolved (took : shell.nextLine.Runs before taking (.ok (some line)) middle)
      (filled : Text.isBlankLine line = false)
      (ran : (shell.execute line).Runs middle.memory following
        (.error (.commandNotFound statement)) memory) :
      Turn shell before (.unresolved taking following line statement reported)
        { middle with memory }

/-- Turns of the loop, up to the first that ends it or until it is left unfinished. -/
inductive Turns (shell : Shell σ) :
    LoopState σ → List LoopStep → Ending → LoopState σ → Prop where
  | unfinished : Turns shell state [] .unfinished state
  | last (turn : shell.Turn before step after) (ends : step.ending? = some ending) :
      Turns shell before [step] ending after
  | next (turn : shell.Turn before step middle) (goesOn : step.ending? = none)
      (rest : Turns shell middle steps ending after) :
      Turns shell before (step :: steps) ending after

theorem runs_nextLine_queued_iff {shell : Shell σ} {source : Source σ} {memory : Memory σ}
    {after : LoopState σ} :
    shell.nextLine.Runs ⟨⟨line :: queue, source⟩, memory⟩ taking ended after ↔
      taking = [] ∧ ended = .ok (some line) ∧ after = ⟨⟨queue, source⟩, memory⟩ :=
  Program.runs_pure_pair_iff

/-- A line is read from a source: the prompt is made, and the source is given it. -/
inductive LineRead (shell : Shell σ) (source : Source σ) (client : σ) :
    List Exchange → Except ShellError (Option String) → Source σ → σ → Prop where
  | intro {prompt : String} (rendered : (shell.renderPrompt client).Runs asked (prompt, prompted))
      (read : (source.read prompt shell.console prompted).Runs reading (ended, later, changed)) :
      LineRead shell source client (asked ++ reading) ended later changed

/-- Making a prompt asks for nothing and changes nothing, though its text may be made of what the
client keeps. -/
def PromptsQuietly (shell : Shell σ) : Prop :=
  ∀ client, ∃ prompt, shell.renderPrompt client = pure (prompt, client)

theorem promptsQuietly_of_none {shell : Shell σ} (fixed : shell.renderer = none) :
    shell.PromptsQuietly := by
  intro client
  rw [renderPrompt_of_none fixed]
  exact ⟨shell.prompt, rfl⟩

/-- Behind a quiet prompt, nothing comes before the reading. -/
theorem PromptsQuietly.lineRead_iff {shell : Shell σ} (quiet : shell.PromptsQuietly)
    {source later : Source σ} {client changed : σ} :
    shell.LineRead source client exchanges ended later changed ↔
      ∃ prompt, shell.renderPrompt client = pure (prompt, client) ∧
        (source.read prompt shell.console client).Runs exchanges (ended, later, changed) := by
  obtain ⟨prompt, renders⟩ := quiet client
  constructor
  · intro read
    cases read with
    | intro rendered reading =>
      rw [renders] at rendered
      obtain ⟨rfl, rfl, rfl⟩ := Program.runs_pure_pair_iff.mp rendered
      exact ⟨_, renders, reading⟩
  · rintro ⟨shown, renders, reading⟩
    rw [← List.nil_append exchanges]
    refine .intro ?_ reading
    rw [renders]
    exact .done _

theorem runs_nextLine_live_iff {shell : Shell σ} {source : Source σ} {memory : Memory σ}
    {after : LoopState σ} :
    shell.nextLine.Runs ⟨⟨[], source⟩, memory⟩ taking ended after ↔
      ∃ later client, shell.LineRead source memory.client taking ended later client ∧
        after = ⟨⟨[], later⟩, { memory with client }⟩ := by
  constructor
  · intro took
    obtain ⟨asked, ⟨prompt, prompted⟩, _, rendered, onward, rfl⟩ := Program.runs_bind_iff.mp took
    obtain ⟨reading, ⟨found, later, changed⟩, _, read, closed, rfl⟩ := Program.runs_bind_iff.mp onward
    obtain ⟨rfl, rfl, rfl⟩ := Program.runs_pure_pair_iff.mp closed
    rw [List.append_nil]
    exact ⟨later, changed, .intro rendered read, rfl⟩
  · rintro ⟨later, client, ⟨rendered, read⟩, rfl⟩
    exact rendered.bind (read.bind_pure rfl)

theorem runs_write_iff {τ : Type} {shell : Shell σ} {channel : Channel} {text : String}
    {before after : τ} : (shell.write channel text).Runs before exchanges ended after ↔
      ∃ written, exchanges = [⟨.write shell.console channel text, written⟩] ∧
        ended = written.mapError .device ∧ after = before := by
  refine Action.runs_attempt_iff.trans ?_
  simp only [Program.runs_write_iff]

theorem runs_reportNotFound_iff {shell : Shell σ} {statement : Statement} :
    (shell.reportNotFound statement).Runs before exchanges ended after ↔
      ∃ reported, exchanges = reporting shell.console statement reported ∧
        ended = reported.mapError .device ∧ after = before := by
  rw [reportNotFound, Action.runs_record_bind_iff]
  simp only [runs_write_iff]
  constructor
  · rintro ⟨_, ⟨reported, rfl, rfl, rfl⟩, rfl⟩
    exact ⟨reported, rfl, rfl, rfl⟩
  · rintro ⟨reported, rfl, rfl, rfl⟩
    exact ⟨_, ⟨reported, rfl, rfl, rfl⟩, rfl⟩

/-- The exchange that announces the end of input. -/
def endAnnounced (interactive : Bool) : Exchange :=
  Action.recorded .debug logTarget
    ("end of input (interactive: " ++ toString interactive ++ ")")

/-- The end of input met: the source says whether a person is at the other end. Then the client decides,
or a person is given a fresh line, or else the input is over. -/
inductive EndMet (shell : Shell σ) (before : LoopState σ) :
    List Exchange → Except ShellError Outcome → LoopState σ → Prop where
  | handled
      (said : (before.input.source.isInteractive before.memory.client).Runs first (interactive, told))
      (handler : shell.endOfInput = some handle)
      (ran : (handle interactive).Runs told asked decided client) :
      EndMet shell before (first ++ endAnnounced interactive :: asked) (decided.mapError .command)
        { before with memory := { before.memory with client } }
  | person
      (said : (before.input.source.isInteractive before.memory.client).Runs first (true, client))
      (unhandled : shell.endOfInput = none) :
      EndMet shell before
        (first ++ [endAnnounced true, ⟨.write shell.console .out "\n", written⟩])
        ((written.mapError .device).map fun _ => .success)
        { before with memory := { before.memory with client } }
  | finished
      (said : (before.input.source.isInteractive before.memory.client).Runs first (false, client))
      (unhandled : shell.endOfInput = none) :
      EndMet shell before (first ++ [endAnnounced false]) (.ok .stopped)
        { before with memory := { before.memory with client } }

theorem runs_isInteractive_iff {source : Source σ} {before after : LoopState σ}
    {ended : Except ShellError Bool} :
    (Action.ofMemory (Action.ofClient (.ofTotal source.isInteractive))).Runs before exchanges ended
        after ↔
      ∃ interactive client, (source.isInteractive before.memory.client).Runs exchanges
          (interactive, client) ∧ ended = .ok interactive ∧
        after = { before with memory := { before.memory with client } } := by
  simp only [Action.ofMemory, Action.ofClient, Action.runs_onPart_iff, Action.runs_ofTotal_iff]
  constructor
  · rintro ⟨_, ⟨client, ⟨interactive, said, rfl⟩, rfl⟩, rfl⟩
    exact ⟨interactive, client, said, rfl, rfl⟩
  · rintro ⟨interactive, client, said, rfl, rfl⟩
    exact ⟨_, ⟨client, ⟨interactive, said, rfl⟩, rfl⟩, rfl⟩

theorem runs_atEndOfInput_iff {shell : Shell σ} {before after : LoopState σ} :
    shell.atEndOfInput.Runs before exchanges ended after ↔
      shell.EndMet before exchanges ended after := by
  rw [atEndOfInput, Action.runs_get_bind_iff, Action.runs_bind_iff]
  simp only [runs_isInteractive_iff]
  constructor
  · rintro (⟨_, ⟨_, _, _, impossible, _⟩, _⟩ |
      ⟨first, interactive, _, _, ⟨_, told, said, same, rfl⟩, onward, rfl⟩)
    · cases impossible
    cases same
    obtain ⟨later, ran, rfl⟩ := Action.runs_record_bind_iff.mp onward
    cases handler : shell.endOfInput with
    | some handle =>
      simp only [handler, Action.ofMemory, Action.ofClient, Action.runs_onPart_iff,
        Action.runs_mapError_iff] at ran
      obtain ⟨memory, ⟨client, ⟨decided, ran, rfl⟩, rfl⟩, rfl⟩ := ran
      exact .handled said handler ran
    | none =>
      simp only [handler] at ran
      cases interactive with
      | true =>
        simp only [↓reduceIte, Action.runs_bind_pure_iff, runs_write_iff] at ran
        obtain ⟨outcome, ⟨written, rfl, rfl, rfl⟩, rfl⟩ := ran
        exact .person said handler
      | false =>
        simp only [Bool.false_eq_true, ↓reduceIte, Action.runs_pure_iff] at ran
        obtain ⟨rfl, rfl, rfl⟩ := ran
        exact .finished said handler
  · intro met
    cases met with
    | handled said handler ran =>
      refine .inr ⟨_, _, _, _, ⟨_, _, said, rfl, rfl⟩, ?_, rfl⟩
      refine Action.runs_record_bind_iff.mpr ⟨_, ?_, rfl⟩
      simp only [handler, Action.ofMemory, Action.ofClient, Action.runs_onPart_iff,
        Action.runs_mapError_iff]
      exact ⟨_, ⟨_, ⟨_, ran, rfl⟩, rfl⟩, rfl⟩
    | @person _ _ written said unhandled =>
      refine .inr ⟨_, _, _, _, ⟨_, _, said, rfl, rfl⟩, ?_, rfl⟩
      refine Action.runs_record_bind_iff.mpr ⟨[⟨.write shell.console .out "\n", written⟩], ?_, rfl⟩
      simp only [unhandled, ↓reduceIte, Action.runs_bind_pure_iff, runs_write_iff]
      exact ⟨_, ⟨written, rfl, rfl, trivial⟩, rfl⟩
    | finished said unhandled =>
      refine .inr ⟨_, _, _, _, ⟨_, _, said, rfl, rfl⟩, ?_, rfl⟩
      refine Action.runs_record_bind_iff.mpr ⟨[], ?_, rfl⟩
      simp only [unhandled, Bool.false_eq_true, ↓reduceIte]
      exact Action.runs_pure_iff.mpr ⟨rfl, rfl, rfl⟩

/-- Executing a line in the loop is executing it on the memory, with its errors as values. -/
theorem runs_executed_iff {shell : Shell σ} {before after : LoopState σ} {line : String}
    {ended : Except ShellError (Except ShellError (Option Outcome))} :
    (Action.ofMemory (Action.result (shell.execute line))).Runs before exchanges ended after ↔
      ∃ result memory, (shell.execute line).Runs before.memory exchanges result memory ∧
        ended = .ok result ∧ after = { before with memory } := by
  rw [Action.ofMemory, Action.runs_onPart_iff]
  constructor
  · rintro ⟨memory, told, rfl⟩
    obtain ⟨result, ran, rfl⟩ := Action.runs_result_iff.mp told
    exact ⟨result, memory, ran, rfl, rfl⟩
  · rintro ⟨result, memory, ran, rfl, rfl⟩
    exact ⟨memory, Action.runs_result_iff.mpr ⟨result, ran, rfl⟩, rfl⟩

theorem runs_reported_iff {shell : Shell σ} {statement : Statement} {before after : LoopState σ} :
    (shell.reportNotFound statement >>= fun _ => pure (none : Option Outcome)).Runs before
        exchanges ended after ↔
      ∃ reported, exchanges = reporting shell.console statement reported ∧
        ended = (reported.map fun _ => none).mapError .device ∧ after = before := by
  rw [Action.runs_bind_pure_iff]
  constructor
  · intro ⟨outcome, told, same⟩
    obtain ⟨reported, rfl, rfl, rfl⟩ := runs_reportNotFound_iff.mp told
    refine ⟨reported, rfl, ?_, rfl⟩
    cases reported with
    | ok written => exact same
    | error cause => exact same
  · rintro ⟨reported, rfl, rfl, rfl⟩
    refine ⟨_, runs_reportNotFound_iff.mpr ⟨reported, rfl, rfl, rfl⟩, ?_⟩
    cases reported with
    | ok written => rfl
    | error cause => rfl

/-- What executing a line in the loop comes to: nothing for a blank line, a report for one that no
command is found for, and for any other what executing it comes to. -/
theorem runs_executeInLoop_iff {shell : Shell σ} {before after : LoopState σ} {line : String} :
    (shell.executeInLoop line).Runs before exchanges ended after ↔
      (Text.isBlankLine line = true ∧ exchanges = [] ∧ ended = .ok none ∧ after = before) ∨
      (Text.isBlankLine line = false ∧ ∃ memory,
        (shell.execute line).Runs before.memory exchanges ended memory ∧
        (∀ statement, ended ≠ .error (.commandNotFound statement)) ∧
        after = { before with memory }) ∨
      (Text.isBlankLine line = false ∧ ∃ following statement memory reported,
        (shell.execute line).Runs before.memory following (.error (.commandNotFound statement))
          memory ∧
        exchanges = following ++ reporting shell.console statement reported ∧
        ended = (reported.map fun _ => none).mapError .device ∧ after = { before with memory }) := by
  unfold executeInLoop
  by_cases blank : Text.isBlankLine line = true
  · simp [blank, Action.runs_pure_iff]
  have filled : Text.isBlankLine line = false := by simpa using blank
  simp only [filled, Bool.false_eq_true, ↓reduceIte, false_and, false_or, true_and]
  constructor
  · intro looped
    rcases Action.runs_bind_iff.mp looped with
      ⟨error, failed, rfl⟩ | ⟨following, value, state, later, executed, settled, rfl⟩
    · obtain ⟨_, _, _, told, _⟩ := runs_executed_iff.mp failed
      cases told
    obtain ⟨result, memory, ran, told, rfl⟩ := runs_executed_iff.mp executed
    cases told
    split at settled
    · obtain ⟨rfl, rfl, rfl⟩ := Action.runs_pure_iff.mp settled
      exact .inl ⟨memory, by rwa [List.append_nil], by simp, rfl⟩
    · rename_i statement
      obtain ⟨reported, rfl, rfl, rfl⟩ := runs_reported_iff.mp settled
      exact .inr ⟨following, statement, memory, reported, ran, rfl, rfl, rfl⟩
    · rename_i error other
      obtain ⟨rfl, rfl, rfl⟩ := Action.runs_throw_iff.mp settled
      refine .inl ⟨memory, by rwa [List.append_nil], fun statement same => ?_, rfl⟩
      exact other statement (Except.error.inj same)
  · rintro (⟨memory, ran, found, rfl⟩ |
      ⟨following, statement, memory, reported, ran, rfl, rfl, rfl⟩)
    · rw [← List.append_nil exchanges]
      refine Action.Runs.bind (runs_executed_iff.mpr ⟨_, memory, ran, rfl, rfl⟩) ?_
      split
      · exact Action.runs_pure_iff.mpr ⟨rfl, rfl, rfl⟩
      · exact absurd rfl (found _)
      · exact Action.runs_throw_iff.mpr ⟨rfl, rfl, rfl⟩
    · refine Action.Runs.bind (runs_executed_iff.mpr ⟨_, memory, ran, rfl, rfl⟩) ?_
      exact runs_reported_iff.mpr ⟨reported, rfl, rfl, rfl⟩

theorem turn_of_runs {shell : Shell σ} {before after : LoopState σ}
    (ran : shell.turn.Runs before exchanges ended after) :
    ∃ step, shell.Turn before step after ∧ exchanges = step.exchanges shell.console ∧
      ended = step.result := by
  rcases Action.runs_bind_iff.mp ran with
    ⟨error, took, rfl⟩ | ⟨taking, line, middle, following, took, onward, rfl⟩
  · exact ⟨_, .unread took, rfl, rfl⟩
  cases line with
  | none =>
    obtain ⟨result, met, rfl⟩ := Action.runs_map_iff.mp onward
    exact ⟨_, .endOfInput took met, rfl, rfl⟩
  | some line =>
    rcases runs_executeInLoop_iff.mp onward with
      ⟨blank, rfl, rfl, rfl⟩ | ⟨filled, memory, executed, found, rfl⟩ |
      ⟨filled, asked, statement, memory, reported, executed, rfl, rfl, rfl⟩
    · exact ⟨_, .blank took blank, by simp [LoopStep.exchanges], rfl⟩
    · exact ⟨_, .executed took filled executed found, rfl, rfl⟩
    · exact ⟨_, .unresolved took filled executed, rfl, rfl⟩

theorem Turn.runs {shell : Shell σ} {before after : LoopState σ}
    (turn : shell.Turn before step after) :
    shell.turn.Runs before (step.exchanges shell.console) step.result after := by
  cases turn with
  | unread took => exact took.bind_error
  | endOfInput took met => exact took.bind (Action.runs_map_iff.mpr ⟨_, met, rfl⟩)
  | @blank taking line _ took blank =>
    have stayed : (shell.executeInLoop line).Runs after [] (.ok none) after :=
      runs_executeInLoop_iff.mpr (.inl ⟨blank, rfl, rfl, rfl⟩)
    rw [LoopStep.exchanges, ← List.append_nil taking]
    exact took.bind stayed
  | executed took filled ran found =>
    exact took.bind (runs_executeInLoop_iff.mpr (.inr (.inl ⟨filled, _, ran, found, rfl⟩)))
  | unresolved took filled ran =>
    exact took.bind (runs_executeInLoop_iff.mpr
      (.inr (.inr ⟨filled, _, _, _, _, ran, rfl, rfl, rfl⟩)))

theorem takeTurns_succ (shell : Shell σ) (turns : Nat) (state : LoopState σ) :
    shell.takeTurns (turns + 1) state = shell.turn.runFrom state >>= fun found =>
      match Ending.ofResult? found.1 with
      | some ending => pure (ending, found.2)
      | none => shell.takeTurns turns found.2 := by
  refine congrArg (shell.turn.runFrom state >>= ·) (funext fun found => ?_)
  rcases found with ⟨_ | _ | outcome, after⟩
  · rfl
  · rfl
  · cases stops : outcome.stop <;> simp [Ending.ofResult?, stops]

/-- How many turns a run of the loop needs: as many as it has steps, and no more if it is left
unfinished. -/
def Enough (turns : Nat) (steps : List LoopStep) (ending : Ending) : Prop :=
  steps.length ≤ turns ∧ (ending = .unfinished → steps.length = turns)

theorem turns_of_runs {shell : Shell σ} {state after : LoopState σ} {turns : Nat}
    (ran : (shell.takeTurns turns state).Runs exchanges (ending, after)) :
    ∃ steps, shell.Turns state steps ending after ∧
      exchanges = steps.flatMap (LoopStep.exchanges shell.console) ∧ Enough turns steps ending := by
  induction turns generalizing state exchanges with
  | zero =>
    obtain ⟨rfl, rfl, rfl⟩ := Program.runs_pure_pair_iff.mp ran
    exact ⟨[], .unfinished, rfl, Nat.le_refl _, fun _ => rfl⟩
  | succ turns ih =>
    rw [takeTurns_succ] at ran
    obtain ⟨asked, ⟨ended, middle⟩, later, turned, onward, rfl⟩ := Program.runs_bind_iff.mp ran
    obtain ⟨step, turn, rfl, rfl⟩ := turn_of_runs turned
    cases ends : Ending.ofResult? step.result with
    | some last =>
      simp only [ends] at onward
      obtain ⟨rfl, rfl, rfl⟩ := Program.runs_pure_pair_iff.mp onward
      refine ⟨[step], .last turn ends, by simp, Nat.succ_le_succ (Nat.zero_le _), fun cut => ?_⟩
      exact absurd (cut ▸ ends) (Ending.ofResult?_ne_unfinished _)
    | none =>
      simp only [ends] at onward
      obtain ⟨steps, rest, rfl, bounded, exact⟩ := ih onward
      refine ⟨step :: steps, .next turn ends rest, rfl, Nat.succ_le_succ bounded, fun cut => ?_⟩
      exact congrArg Nat.succ (exact cut)

theorem Turns.runs {shell : Shell σ} {state after : LoopState σ} {turns : Nat}
    (took : shell.Turns state steps ending after) (enough : Enough turns steps ending) :
    (shell.takeTurns turns state).Runs (steps.flatMap (LoopStep.exchanges shell.console))
      (ending, after) := by
  induction took generalizing turns with
  | unfinished =>
    obtain rfl : 0 = turns := enough.2 rfl
    exact .done _
  | @last before step after ending turn ends =>
    obtain ⟨more, rfl⟩ := Nat.exists_eq_add_one_of_ne_zero (Nat.ne_zero_of_lt enough.1)
    rw [takeTurns_succ, List.flatMap_singleton]
    refine Program.Runs.bind_pure turn.runs ?_
    rw [show Ending.ofResult? step.result = some ending from ends]
  | @next before step middle steps ending after turn goesOn rest ih =>
    obtain ⟨more, rfl⟩ := Nat.exists_eq_add_one_of_ne_zero (Nat.ne_zero_of_lt enough.1)
    rw [takeTurns_succ, List.flatMap_cons]
    refine Program.Runs.bind turn.runs ?_
    rw [show Ending.ofResult? step.result = none from goesOn]
    exact ih ⟨Nat.le_of_succ_le_succ enough.1, fun cut => Nat.succ.inj (enough.2 cut)⟩

end Shell

namespace Session

/-- A session as the loop leaves it. -/
def left (session : Session σ) (state : LoopState σ) : Session σ :=
  { session with input := state.input, memory := state.memory, phase := .stopped }

/-- A run of a session's loop: the hooks before it, its steps, and the hooks after it if an outcome
has asked to stop. -/
inductive CommandLoop (session : Session σ) :
    List Exchange → List LoopStep → Ending → Session σ → Prop where
  | preloopFailed {failure : Failure}
      (before : LoopHooksRun .preloop session.shell.hooks.preloop session.memory asked
        (.error failure) entered) :
      CommandLoop session asked [] (.failed (.command failure))
        (session.left ⟨session.input, entered⟩)
  | unfinished
      (before : LoopHooksRun .preloop session.shell.hooks.preloop session.memory asked (.ok ())
        entered)
      (took : session.shell.Turns ⟨session.input, entered⟩ steps .unfinished state) :
      CommandLoop session (asked ++ steps.flatMap (LoopStep.exchanges session.shell.console))
        steps .unfinished (session.left state)
  | failed
      (before : LoopHooksRun .preloop session.shell.hooks.preloop session.memory asked (.ok ())
        entered)
      (took : session.shell.Turns ⟨session.input, entered⟩ steps (.failed error) state) :
      CommandLoop session (asked ++ steps.flatMap (LoopStep.exchanges session.shell.console))
        steps (.failed error) (session.left state)
  | postloopFailed {failure : Failure}
      (before : LoopHooksRun .preloop session.shell.hooks.preloop session.memory asked (.ok ())
        entered)
      (took : session.shell.Turns ⟨session.input, entered⟩ steps (.stopped outcome) state)
      (after : LoopHooksRun .postloop session.shell.hooks.postloop state.memory last
        (.error failure) held) :
      CommandLoop session
        (asked ++ (steps.flatMap (LoopStep.exchanges session.shell.console) ++ last))
        steps (.failed (.command failure)) (session.left { state with memory := held })
  | stopped
      (before : LoopHooksRun .preloop session.shell.hooks.preloop session.memory asked (.ok ())
        entered)
      (took : session.shell.Turns ⟨session.input, entered⟩ steps (.stopped outcome) state)
      (after : LoopHooksRun .postloop session.shell.hooks.postloop state.memory last (.ok ())
        held) :
      CommandLoop session
        (asked ++ (steps.flatMap (LoopStep.exchanges session.shell.console) ++ last))
        steps (.stopped outcome) (session.left { state with memory := held })

end Session

namespace Shell

theorem runs_loopHooks_iff {point : HookPoint} {hooks : List (Named (LoopHook σ))}
    {before after : LoopState σ} :
    (HookTable.runLoop point hooks).ofMemory.Runs before exchanges ended after ↔
      ∃ memory, LoopHooksRun point hooks before.memory exchanges ended memory ∧
        after = { before with memory } := by
  simp only [Action.ofMemory, Action.runs_onPart_iff, HookTable.runs_loop_iff]

end Shell

theorem LoopHooksRun.runs {point : HookPoint} {hooks : List (Named (LoopHook σ))}
    {before after : Memory σ} (ran : LoopHooksRun point hooks before exchanges ended after)
    (input : Input σ) :
    (HookTable.runLoop point hooks).ofMemory.Runs ⟨input, before⟩ exchanges ended ⟨input, after⟩ :=
  Shell.runs_loopHooks_iff.mpr ⟨after, ran, rfl⟩

namespace Session

theorem runs_run_iff_runLoop {session after : Session σ} {turns : Nat} :
    (session.run turns).Runs exchanges (ending, after) ↔
      ∃ state, (session.shell.runLoop turns ⟨session.input, session.memory⟩).Runs exchanges
        (ending, state) ∧ after = session.left state := by
  refine (Program.runs_mapBoth_iff (session.shell.runLoop turns ⟨session.input, session.memory⟩) id
    session.left).trans ?_
  constructor
  · rintro ⟨last, state, ran, rfl, rfl⟩
    exact ⟨state, ran, rfl⟩
  · rintro ⟨state, ran, rfl⟩
    exact ⟨ending, state, ran, rfl, rfl⟩

theorem commandLoop_of_runs {session after : Session σ} {turns : Nat}
    (ran : (session.run turns).Runs exchanges (ending, after)) :
    ∃ steps, session.CommandLoop exchanges steps ending after ∧
      Shell.Enough turns steps ending := by
  obtain ⟨state, looped, rfl⟩ := runs_run_iff_runLoop.mp ran
  obtain ⟨asked, ⟨before, entered⟩, rest, preloop, onward, rfl⟩ := Program.runs_bind_iff.mp looped
  obtain ⟨memory, hooked, rfl⟩ := Shell.runs_loopHooks_iff.mp preloop
  cases before with
  | error failure =>
    obtain ⟨rfl, rfl, rfl⟩ := Program.runs_pure_pair_iff.mp onward
    rw [List.append_nil]
    exact ⟨[], .preloopFailed hooked, Nat.zero_le _, nofun⟩
  | ok _ =>
    obtain ⟨turned, ⟨reached, middle⟩, later, turns, finished, rfl⟩ :=
      Program.runs_bind_iff.mp onward
    obtain ⟨steps, took, rfl, enough⟩ := Shell.turns_of_runs turns
    cases reached with
    | unfinished =>
      obtain ⟨rfl, rfl, rfl⟩ := Program.runs_pure_pair_iff.mp finished
      rw [List.append_nil]
      exact ⟨steps, .unfinished hooked took, enough⟩
    | failed error =>
      obtain ⟨rfl, rfl, rfl⟩ := Program.runs_pure_pair_iff.mp finished
      rw [List.append_nil]
      exact ⟨steps, .failed hooked took, enough⟩
    | stopped outcome =>
      obtain ⟨last, ⟨hooksEnded, held⟩, none, postloop, closed, rfl⟩ :=
        Program.runs_bind_iff.mp finished
      obtain ⟨memory, closing, rfl⟩ := Shell.runs_loopHooks_iff.mp postloop
      cases hooksEnded with
      | error failure =>
        obtain ⟨rfl, rfl, rfl⟩ := Program.runs_pure_pair_iff.mp closed
        rw [List.append_nil]
        exact ⟨steps, .postloopFailed hooked took closing, enough.1, nofun⟩
      | ok _ =>
        obtain ⟨rfl, rfl, rfl⟩ := Program.runs_pure_pair_iff.mp closed
        rw [List.append_nil]
        exact ⟨steps, .stopped hooked took closing, enough⟩

theorem CommandLoop.runs {session after : Session σ} {turns : Nat}
    (looped : session.CommandLoop exchanges steps ending after)
    (enough : Shell.Enough turns steps ending) :
    (session.run turns).Runs exchanges (ending, after) := by
  cases looped with
  | preloopFailed before =>
    refine runs_run_iff_runLoop.mpr ⟨_, ?_, rfl⟩
    exact Program.Runs.bind_pure (before.runs session.input) rfl
  | unfinished before took | failed before took =>
    refine runs_run_iff_runLoop.mpr ⟨_, ?_, rfl⟩
    refine Program.Runs.bind (before.runs session.input) ?_
    exact Program.Runs.bind_pure (took.runs enough) rfl
  | postloopFailed before took after | stopped before took after =>
    refine runs_run_iff_runLoop.mpr ⟨_, ?_, rfl⟩
    refine Program.Runs.bind (before.runs session.input) ?_
    refine Program.Runs.bind (took.runs ⟨enough.1, nofun⟩) ?_
    exact Program.Runs.bind_pure (after.runs _) rfl

/-- The loop runs as its steps say, given turns enough for them. -/
theorem runs_run_iff {session after : Session σ} {turns : Nat} :
    (session.run turns).Runs exchanges (ending, after) ↔
      ∃ steps, session.CommandLoop exchanges steps ending after ∧
        Shell.Enough turns steps ending :=
  ⟨commandLoop_of_runs, fun ⟨_, looped, enough⟩ => looped.runs enough⟩

end Session

end LineShell
