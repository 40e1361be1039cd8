import LineShell.Proofs.Requests
import LineShell.Proofs.Splitting
import LineShell.Proofs.FailedWrites
import LineShell.Proofs.FiniteInput
/-!
What a run of the loop writes to its console. Between what its calls write, and what the client writes
while it makes prompts, the loop itself writes a prompt for each line that a person is asked for, a fresh
line at each end of input that it is left to, and a report of each command that is missing.
-/

namespace LineShell

variable {σ : Type}

/-- The text that a request is to write to a channel of a console. -/
def Request.text? (console : ConsoleId) (channel : Channel) : Request → Option String
  | .write place aimed text => if place = console ∧ aimed = channel then some text else none
  | .load _ => none
  | .save .. => none
  | .record _ => none
  | .startLog .. => none

/-- The texts that are written to a channel of a console, in order. -/
def written (console : ConsoleId) (channel : Channel) (exchanges : List Exchange) : List String :=
  exchanges.filterMap fun exchange => exchange.1.text? console channel

/-- The texts that calls themselves write to a channel of a console. -/
def writtenBy (console : ConsoleId) (channel : Channel) (calls : List (Call σ)) : List String :=
  written console channel (calls.flatMap Call.exchanges)

section Written

variable {console : ConsoleId} {channel : Channel}

theorem written_append (front back : List Exchange) :
    written console channel (front ++ back) =
      written console channel front ++ written console channel back :=
  List.filterMap_append

@[simp] theorem written_nil : written console channel [] = [] := rfl

@[simp] theorem written_recorded (level : Log.Level) (target text : String) (rest : List Exchange) :
    written console channel (Action.recorded level target text :: rest) = written console channel rest :=
  rfl

@[simp] theorem written_write (text : String) (answer : Except DeviceError Unit)
    (rest : List Exchange) :
    written console channel (⟨.write console channel text, answer⟩ :: rest) =
      text :: written console channel rest := by
  simp [written, Request.text?]

theorem written_write_of_ne {aimed : Channel} (other : aimed ≠ channel) (text : String)
    (answer : Except DeviceError Unit) (rest : List Exchange) :
    written console channel (⟨.write console aimed text, answer⟩ :: rest) =
      written console channel rest := by
  simp [written, Request.text?, other]

@[simp] theorem writtenBy_nil : writtenBy console channel ([] : List (Call σ)) = [] := rfl

end Written

/-- How a prompt was made: what that asked for, and the text that it came to. -/
structure Rendering where
  asked : List Exchange
  text : String

/-- A step of the loop with the making of its prompt, unless it took a line of the queue, and with the
calls that it made. -/
structure ToldStep (σ : Type) where
  step : LoopStep
  rendering : Option Rendering
  calls : List (Call σ)

/-- The texts that the client and the shell's own commands write during a step. -/
def ToldStep.ownTexts (console : ConsoleId) (channel : Channel) (told : ToldStep σ) : List String :=
  (told.rendering.elim [] fun made => written console channel made.asked) ++
    writtenBy console channel told.calls

namespace Shell

variable {shell : Shell σ} {before after : LoopState σ} {interactive : Bool} {cursor : ByteCursor}
  {channel : Channel}

/-- What is written before a line is read from a source: what the client writes while it makes the
prompt, and then the prompt, if a person is to see it. -/
def promptTexts (shell : Shell σ) (interactive : Bool) (channel : Channel) (made : Rendering) :
    List String :=
  written shell.console channel made.asked ++
    match channel with
    | .out => if interactive then [made.text] else []
    | .err => []

/-- What the loop writes after what a step has called. -/
def closingTexts (shell : Shell σ) (interactive : Bool) : Channel → LoopStep → List String
  | .out, .endOfInput .. => if interactive && shell.endOfInput.isNone then ["\n"] else []
  | .err, .unresolved _ _ _ statement _ => [statement.command ++ ": command not found\n"]
  | _, _ => []

/-- What is written to a channel during a step. -/
def stepTexts (shell : Shell σ) (interactive : Bool) (channel : Channel) (told : ToldStep σ) :
    List String :=
  told.rendering.elim [] (shell.promptTexts interactive channel) ++
    (writtenBy shell.console channel told.calls ++ shell.closingTexts interactive channel told.step)

theorem written_reporting (console : ConsoleId) (channel : Channel) (statement : Statement)
    (reported : Except DeviceError Unit) :
    written console channel (reporting console statement reported) =
      match channel with
      | .out => []
      | .err => [statement.command ++ ": command not found\n"] := by
  rw [reporting, written_recorded]
  cases channel with
  | out => exact written_write_of_ne Channel.noConfusion _ _ _
  | err => exact written_write _ _ _

/-- What is met at the end of input without a handler writes at most a fresh line. -/
theorem EndMet.written {before : LoopState σ} (met : shell.EndMet before exchanges ended after)
    (unhandled : shell.endOfInput = none)
    (person : before.input.source.isInteractive = pure interactive) (channel : Channel) :
    LineShell.written shell.console channel exchanges =
      match channel with
      | .out => if interactive then ["\n"] else []
      | .err => [] := by
  cases met with
  | handled _ handler => cases unhandled.symm.trans handler
  | person said | finished said =>
    rw [person] at said
    obtain ⟨rfl, rfl, _⟩ := Program.runs_pure_pair_iff.mp said
    rw [List.nil_append, endAnnounced, written_recorded]
    cases channel <;> simp [written_write_of_ne]

theorem nextLine_buffered (source : before.input.source = .buffered interactive cursor)
    (took : shell.nextLine.Runs before taking ended after) :
    ∃ rest, after.input.source = .buffered interactive rest := by
  obtain ⟨⟨queue, held⟩, memory⟩ := before
  obtain rfl : held = .buffered interactive cursor := source
  cases queue with
  | cons line queue =>
    obtain ⟨_, _, rfl⟩ := runs_nextLine_queued_iff.mp took
    exact ⟨cursor, rfl⟩
  | nil =>
    obtain ⟨later, client, ⟨_, reading⟩, rfl⟩ := runs_nextLine_live_iff.mp took
    cases Source.reads_of_runs reading with
    | unshown | shown | piped => exact ⟨_, rfl⟩

/-- After a step has taken its line, it writes what its calls write and what the loop adds. -/
theorem TurnCalls.written (turn : shell.TurnCalls before step calls after)
    (source : before.input.source = .buffered interactive cursor) (channel : Channel) :
    LineShell.written shell.console channel (step.exchanges shell.console) =
      LineShell.written shell.console channel step.taking ++
        (writtenBy shell.console channel calls ++ shell.closingTexts interactive channel step) := by
  cases turn with
  | unread took | blank took =>
    cases channel <;> simp [LoopStep.exchanges, LoopStep.taking, closingTexts]
  | handled took said handler ran =>
    obtain ⟨rest, still⟩ := nextLine_buffered source took
    rw [still] at said
    obtain ⟨rfl, _⟩ := Program.runs_pure_pair_iff.mp said
    rw [LoopStep.exchanges, written_append, LoopStep.taking]
    cases channel <;>
      simp [closingTexts, handler, writtenBy, Call.exchanges, Callee.announced, endAnnounced]
  | unhandled took unhandled met =>
    obtain ⟨rest, still⟩ := nextLine_buffered source took
    have person := congrArg Source.isInteractive still
    rw [LoopStep.exchanges, written_append, LoopStep.taking, met.written unhandled person]
    cases channel <;> simp [closingTexts, unhandled]
  | executed took filled ran found =>
    rw [LoopStep.exchanges, written_append, LoopStep.taking]
    cases channel <;> simp [closingTexts, writtenBy]
  | unresolved took filled ran =>
    rw [LoopStep.exchanges, written_append, written_append, written_reporting, LoopStep.taking]
    cases channel <;> simp [closingTexts, writtenBy]

theorem TurnCalls.took (turn : shell.TurnCalls before step calls after) :
    ∃ middle, shell.nextLine.Runs before step.taking step.fetched middle ∧
      after.input = middle.input := by
  cases turn with
  | unread took | blank took => exact ⟨_, took, rfl⟩
  | handled took | executed took | unresolved took => exact ⟨_, took, rfl⟩
  | unhandled took unhandled met =>
    refine ⟨_, took, ?_⟩
    cases met with
    | handled | person | finished => rfl

/-- Behind a prompt that has been made, reading from a buffer shows it to a person. -/
theorem written_of_reads {client changed : σ} {later : Source σ}
    (reads : Source.Reads text shell.console (.buffered interactive cursor) client exchanges ended
      later changed) (asked : List Exchange) (channel : Channel) :
    LineShell.written shell.console channel (asked ++ exchanges) =
      shell.promptTexts interactive channel ⟨asked, text⟩ := by
  rw [written_append]
  cases reads with
  | unshown | shown | piped => cases channel <;> simp [promptTexts, written_write_of_ne]

/-- A step takes a line from the source, and so a prompt has been made before. -/
inductive ReadsLive (shell : Shell σ) : ToldStep σ → Prop where
  | intro {before after : LoopState σ} (drained : before.input.queue = [])
      (rendered : (shell.renderPrompt before.memory.client).Runs asked (text, client))
      (turn : shell.TurnCalls before step calls after) :
      ReadsLive shell ⟨step, some ⟨asked, text⟩, calls⟩

/-- What turns write to the shell's console. Those that take the lines of a queue make no prompt, and
all later ones do. -/
structure Prints (shell : Shell σ) (interactive : Bool) (queue : List String)
    (turns : List (ToldStep σ)) (exchanges : List Exchange) : Prop where
  queued : (turns.take queue.length).map (fun told => told.step.line?) =
    (queue.take turns.length).map some
  unprompted : ∀ told ∈ turns.take queue.length, told.rendering = none
  live : ∀ told ∈ turns.drop queue.length, shell.ReadsLive told
  texts : ∀ channel, written shell.console channel exchanges =
    turns.flatMap (shell.stepTexts interactive channel)

theorem prints_nil (shell : Shell σ) (interactive : Bool) (queue : List String) :
    shell.Prints interactive queue [] [] where
  queued := by simp
  unprompted := by simp
  live := by simp
  texts _ := rfl

theorem TurnCalls.prints (turn : shell.TurnCalls before step calls after)
    (source : before.input.source = .buffered interactive cursor) :
    (∃ rest, after.input.source = .buffered interactive rest) ∧ ∃ rendering,
    ∀ turns exchanges, shell.Prints interactive after.input.queue turns exchanges →
      shell.Prints interactive before.input.queue (⟨step, rendering, calls⟩ :: turns)
        (step.exchanges shell.console ++ exchanges) := by
  obtain ⟨middle, took, input⟩ := turn.took
  have own := turn.written source
  have kept := nextLine_buffered source took
  obtain ⟨⟨queue, held⟩, memory⟩ := before
  obtain rfl : held = .buffered interactive cursor := source
  rw [input]
  refine ⟨kept, ?_⟩
  cases queue with
  | cons line queue =>
    obtain ⟨none, fetched, rfl⟩ := runs_nextLine_queued_iff.mp took
    refine ⟨.none, fun turns exchanges prints => ⟨?_, ?_, prints.live, fun channel => ?_⟩⟩
    · have taken : step.line? = some line := by
        rw [step.line?_eq, fetched]
        rfl
      simpa [taken] using prints.queued
    · exact List.forall_mem_cons.mpr ⟨rfl, prints.unprompted⟩
    · rw [written_append, own, none, prints.texts, List.flatMap_cons]
      rfl
  | nil =>
    obtain ⟨later, client, read, rfl⟩ := runs_nextLine_live_iff.mp took
    generalize taken : step.taking = taking at read own
    cases read with
    | @intro asked _ _ _ _ _ prompt rendered reading =>
      have shown := written_of_reads (Source.reads_of_runs reading) asked
      refine ⟨some ⟨asked, prompt⟩, fun turns exchanges prints => ⟨rfl, nofun, ?_, fun channel => ?_⟩⟩
      · exact List.forall_mem_cons.mpr ⟨.intro rfl rendered turn, prints.live⟩
      · rw [written_append, own, shown channel, prints.texts, List.flatMap_cons]
        rfl

/-- Turns of the loop, each told with its calls. -/
structure ByTurns (shell : Shell σ) (steps : List LoopStep) (calls : List (Call σ))
    (turns : List (ToldStep σ)) : Prop where
  steps : steps = turns.map ToldStep.step
  calls : calls = turns.flatMap ToldStep.calls
  each : ∀ told ∈ turns, ∃ before after, shell.TurnCalls before told.step told.calls after

theorem TurnCalls.byTurns (turn : shell.TurnCalls before step calls after)
    (rest : shell.ByTurns steps later turns) (rendering : Option Rendering) :
    shell.ByTurns (step :: steps) (calls ++ later) (⟨step, rendering, calls⟩ :: turns) where
  steps := by rw [rest.steps, List.map_cons]
  calls := by rw [rest.calls, List.flatMap_cons]
  each := List.forall_mem_cons.mpr ⟨⟨before, after, turn⟩, rest.each⟩

theorem byTurns_nil (shell : Shell σ) : shell.ByTurns [] [] [] :=
  ⟨rfl, rfl, nofun⟩

theorem TurnsCalls.prints (took : shell.TurnsCalls before steps calls ending after)
    (source : before.input.source = .buffered interactive cursor) :
    ∃ turns, shell.ByTurns steps calls turns ∧ shell.Prints interactive before.input.queue turns
      (steps.flatMap (LoopStep.exchanges shell.console)) := by
  induction took generalizing cursor with
  | unfinished => exact ⟨[], shell.byTurns_nil, shell.prints_nil interactive _⟩
  | last turn ends =>
    obtain ⟨_, rendering, first⟩ := turn.prints source
    have told := turn.byTurns shell.byTurns_nil rendering
    rw [List.append_nil] at told
    exact ⟨_, told, first [] [] (shell.prints_nil interactive _)⟩
  | next turn goesOn rest ih =>
    obtain ⟨⟨rest, still⟩, rendering, first⟩ := turn.prints source
    obtain ⟨turns, told, prints⟩ := ih still
    exact ⟨_, turn.byTurns told rendering, first turns _ prints⟩

theorem ReadsLive.ownTexts {told : ToldStep σ} (reads : shell.ReadsLive told)
    (quiet : shell.PromptsQuietly) (console : ConsoleId) (channel : Channel) :
    told.ownTexts console channel = writtenBy console channel told.calls := by
  cases reads with
  | @intro _ _ _ _ _ before _ drained rendered turn =>
    obtain ⟨prompt, renders⟩ := quiet before.memory.client
    rw [renders] at rendered
    obtain ⟨rfl, _, _⟩ := Program.runs_pure_pair_iff.mp rendered
    rfl

end Shell

theorem Sink.accepted_write_of_ok {sink : Sink} {data : Bytes}
    (done : (sink.write data).1 = .ok ()) :
    (sink.write data).2.accepted = sink.accepted ++ data := by
  obtain ⟨accepted, fault⟩ := sink
  cases fault with
  | none => rfl
  | some fault =>
    cases fault with
    | refuses =>
      cases data with
      | nil => exact (List.append_nil accepted).symm
      | cons => cases done
    | stalls => cases done
    | holds capacity =>
      simp only [write] at done ⊢
      split at done
      · rename_i fits
        rw [List.take_of_length_le fits]
      · cases done

namespace Console

/-- What a channel has accepted since the console was last redirected. -/
def accepted (console : Console) : Channel → Bytes
  | .out => console.current.out.accepted
  | .err => console.current.err.accepted

theorem accepted_write_of_ne {aimed channel : Channel} (other : aimed ≠ channel) (console : Console)
    (text : String) : (console.write aimed text).2.accepted channel = console.accepted channel := by
  cases aimed <;> cases channel <;> first | rfl | exact absurd rfl other

theorem accepted_write_of_ok {console : Console} {channel : Channel} {text : String}
    (done : (console.write channel text).1 = .ok ()) :
    (console.write channel text).2.accepted channel =
      console.accepted channel ++ Bytes.ofText text := by
  cases channel <;> exact Sink.accepted_write_of_ok done

end Console

/-- Not a request that the log be kept on a console. -/
def Request.KeepsLog : Request → Prop
  | .startLog _ none => False
  | _ => True

namespace Host

variable {host reached : Host} {console : ConsoleId} {channel : Channel} {found : Console}

/-- No record of the log comes to a channel of a console. -/
def Unlogged (host : Host) (console : ConsoleId) (channel : Channel) : Prop :=
  channel = .err → console = 0 → host.journal.target ≠ .console

theorem opened_write (opened : host.consoles[console]? = some found) (place : ConsoleId)
    (aimed : Channel) (text : String) :
    (host.write place aimed text).2.consoles[console]? =
      some (if place = console then (found.write aimed text).2 else found) := by
  unfold Host.write
  by_cases same : place = console
  · subst same
    rw [opened, if_pos rfl]
    exact List.getElem?_set_self (List.getElem?_eq_some_iff.mp opened).1
  · rw [if_neg same]
    cases host.consoles[place]? with
    | none => exact opened
    | some other => exact (List.getElem?_set_ne same).trans opened

theorem journal_write (host : Host) (place : ConsoleId) (aimed : Channel) (text : String) :
    (host.write place aimed text).2.journal = host.journal := by
  unfold Host.write
  cases host.consoles[place]? <;> rfl

theorem Unlogged.record (unlogged : host.Unlogged console channel)
    (opened : host.consoles[console]? = some found) (entry : Log.Record) :
    ∃ left, (host.record entry).consoles[console]? = some left ∧
      left.accepted channel = found.accepted channel ∧
      (host.record entry).Unlogged console channel := by
  unfold Host.record
  split
  · cases kept : host.journal.target with
    | memory => exact ⟨found, opened, rfl, fun _ _ => by simp [kept]⟩
    | console =>
      refine ⟨_, opened_write opened 0 .err entry.line, ?_, ?_⟩
      · split
        · rename_i first
          refine Console.accepted_write_of_ne ?_ found entry.line
          rintro rfl
          exact unlogged rfl first.symm kept
        · rfl
      · rw [Unlogged, journal_write]
        exact unlogged
    | file path =>
      dsimp only
      split <;> exact ⟨found, opened, rfl, unlogged⟩
  · exact ⟨found, opened, rfl, unlogged⟩

/-- When a request is answered and no write to the channel is refused, the channel accepts the text
that the request is to write to it. -/
theorem Unlogged.answer (unlogged : host.Unlogged console channel)
    (opened : host.consoles[console]? = some found) {asked : Request}
    (keeps : channel = .err → asked.KeepsLog)
    (unrefused : ∀ text error,
      (⟨asked, (Host.answer asked host).1⟩ : Exchange) ≠ Exchange.refused console channel text error) :
    ∃ left, (Host.answer asked host).2.consoles[console]? = some left ∧
      left.accepted channel =
        found.accepted channel ++ (asked.text? console channel).toList.flatMap Bytes.ofText ∧
      (Host.answer asked host).2.Unlogged console channel := by
  cases asked with
  | write place aimed text =>
    refine ⟨_, opened_write opened place aimed text, ?_, ?_⟩
    · by_cases same : place = console ∧ aimed = channel
      · obtain ⟨rfl, rfl⟩ := same
        have done : (found.write aimed text).1 = .ok () := by
          cases answer : (found.write aimed text).1 with
          | ok => rfl
          | error error =>
            refine absurd ?_ (unrefused text error)
            simp only [Host.answer, Host.write, opened, answer, Exchange.refused]
        rw [if_pos rfl, Console.accepted_write_of_ok done]
        simp [Request.text?]
      · have none : (Request.write place aimed text).text? console channel = none := if_neg same
        rw [none, Option.toList_none, List.flatMap_nil, List.append_nil]
        split
        · rename_i here
          exact Console.accepted_write_of_ne (fun aim => same ⟨here, aim⟩) found text
        · rfl
    · rw [Unlogged, Host.answer, journal_write]
      exact unlogged
  | load path => exact ⟨found, opened, (List.append_nil _).symm, unlogged⟩
  | save path content =>
    simp only [Host.answer]
    split <;> exact ⟨found, opened, (List.append_nil _).symm, unlogged⟩
  | record entry =>
    obtain ⟨left, still, same, kept⟩ := unlogged.record opened entry
    exact ⟨left, still, same.trans (List.append_nil _).symm, kept⟩
  | startLog threshold path =>
    simp only [Host.answer, Host.startLog]
    cases path with
    | none =>
      refine ⟨found, opened, (List.append_nil _).symm, fun aimed => ?_⟩
      exact absurd (keeps aimed) not_false
    | some path =>
      dsimp only
      split
      · exact ⟨found, opened, (List.append_nil _).symm, unlogged⟩
      · exact ⟨found, opened, (List.append_nil _).symm, fun _ _ => LogTarget.noConfusion⟩

/-- Of requests that are answered in a row, the channel accepts the texts, unless one is refused. -/
theorem Unlogged.answered (unlogged : host.Unlogged console channel)
    (opened : host.consoles[console]? = some found)
    (answered : Program.Answered Host.answer host exchanges reached)
    (keeps : channel = .err → ∀ exchange ∈ exchanges, exchange.1.KeepsLog)
    (unrefused : Unrefused console channel exchanges) :
    ∃ left, reached.consoles[console]? = some left ∧ left.accepted channel =
      found.accepted channel ++ (written console channel exchanges).flatMap Bytes.ofText := by
  induction answered generalizing found with
  | none => exact ⟨found, opened, (List.append_nil _).symm⟩
  | @next host middle exchanges reached asked reply given rest ih =>
    obtain ⟨rfl, rfl⟩ := Prod.mk.inj given
    obtain ⟨left, still, more, aside⟩ := unlogged.answer opened
      (fun aimed => keeps aimed _ List.mem_cons_self)
      (fun text error same => unrefused text error (same ▸ List.mem_cons_self))
    obtain ⟨last, reaches, others⟩ := ih aside still
      (fun aimed exchange member => keeps aimed exchange (List.mem_cons_of_mem _ member))
      (fun text error member => unrefused text error (List.mem_cons_of_mem _ member))
    refine ⟨last, reaches, ?_⟩
    calc last.accepted channel
        = (found.accepted channel ++ (asked.text? console channel).toList.flatMap Bytes.ofText) ++
            (written console channel exchanges).flatMap Bytes.ofText := by rw [others, more]
      _ = found.accepted channel ++ (written console channel (⟨asked, _⟩ :: exchanges)).flatMap
            Bytes.ofText := by
          cases text : asked.text? console channel <;> simp [written, text]

/-- A console that does not fail stays so when it is written to, and refuses nothing. -/
theorem steady_write (opened : host.consoles[console]? = some found) (steady : found.Steady)
    (place : ConsoleId) (aimed : Channel) (text : String) :
    (place = console → (host.write place aimed text).1 = .ok ()) ∧
      ∃ left, (host.write place aimed text).2.consoles[console]? = some left ∧ left.Steady := by
  obtain ⟨done, still⟩ := steady.write aimed text
  refine ⟨?_, _, opened_write opened place aimed text, ?_⟩
  · rintro rfl
    rw [Host.write, opened]
    exact done
  · split
    · exact still
    · exact steady

theorem ne_refused_of_ne {asked : Request} {reply : asked.Answer} {text : String} {error : DeviceError}
    (other : asked ≠ .write console channel text) :
    (⟨asked, reply⟩ : Exchange) ≠ Exchange.refused console channel text error :=
  fun same => other (congrArg Sigma.fst same)

theorem steady_answer (opened : host.consoles[console]? = some found) (steady : found.Steady)
    (asked : Request) :
    (∀ channel text error,
      (⟨asked, (Host.answer asked host).1⟩ : Exchange) ≠ Exchange.refused console channel text error) ∧
      ∃ left, (Host.answer asked host).2.consoles[console]? = some left ∧ left.Steady := by
  cases asked with
  | write place aimed text =>
    obtain ⟨done, still⟩ := steady_write opened steady place aimed text
    refine ⟨fun channel other error same => ?_, still⟩
    obtain ⟨request, answer⟩ := Sigma.mk.inj same
    obtain ⟨rfl, rfl, rfl⟩ := Request.write.inj request
    cases (eq_of_heq answer).symm.trans (done rfl)
  | load path => exact ⟨fun _ _ _ => ne_refused_of_ne Request.noConfusion, found, opened, steady⟩
  | save path content =>
    refine ⟨fun _ _ _ => ne_refused_of_ne Request.noConfusion, ?_⟩
    simp only [Host.answer]
    split <;> exact ⟨found, opened, steady⟩
  | record entry =>
    refine ⟨fun _ _ _ => ne_refused_of_ne Request.noConfusion, ?_⟩
    simp only [Host.answer, Host.record]
    split
    · split
      · exact ⟨found, opened, steady⟩
      · exact (steady_write opened steady 0 .err entry.line).2
      · split <;> exact ⟨found, opened, steady⟩
    · exact ⟨found, opened, steady⟩
  | startLog threshold path =>
    refine ⟨fun _ _ _ => ne_refused_of_ne Request.noConfusion, ?_⟩
    simp only [Host.answer, Host.startLog]
    split
    · exact ⟨found, opened, steady⟩
    · split <;> exact ⟨found, opened, steady⟩

theorem unrefused_of_steady (opened : host.consoles[console]? = some found) (steady : found.Steady)
    (answered : Program.Answered Host.answer host exchanges reached) (channel : Channel) :
    Unrefused console channel exchanges := by
  induction answered generalizing found with
  | none => exact fun _ _ => List.not_mem_nil
  | @next host middle exchanges reached asked reply given rest ih =>
    obtain ⟨rfl, rfl⟩ := Prod.mk.inj given
    obtain ⟨unrefused, left, still, healthy⟩ := steady_answer opened steady asked
    intro text error member
    rcases List.mem_cons.mp member with same | later
    · exact unrefused channel text error same.symm
    · exact ih still healthy text error later

end Host

namespace Session

variable {session after : Session σ}

/-- A run of the loop, told with the calls before its turns, its turns with their prompts and calls, and
the calls after them, and with all that was written to the session's console. -/
structure Prints (session : Session σ) (interactive : Bool) (exchanges : List Exchange)
    (steps : List LoopStep) (calls first : List (Call σ)) (turns : List (ToldStep σ))
    (last : List (Call σ)) : Prop where
  steps : steps = turns.map ToldStep.step
  calls : calls = first ++ (turns.flatMap ToldStep.calls ++ last)
  opening : ∀ call ∈ first, ∃ hook, call.callee = .loopHook .preloop hook
  each : ∀ told ∈ turns, ∃ before after, session.shell.TurnCalls before told.step told.calls after
  closing : ∀ call ∈ last, ∃ hook, call.callee = .loopHook .postloop hook
  queued : (turns.take session.input.queue.length).map (fun told => told.step.line?) =
    (session.input.queue.take turns.length).map some
  unprompted : ∀ told ∈ turns.take session.input.queue.length, told.rendering = none
  live : ∀ told ∈ turns.drop session.input.queue.length, session.shell.ReadsLive told
  texts : ∀ channel, written session.shell.console channel exchanges =
    writtenBy session.shell.console channel first ++
      turns.flatMap (session.shell.stepTexts interactive channel) ++
      writtenBy session.shell.console channel last

theorem loopHookCalls_callee {point : HookPoint} {hooks : List (Named (LoopHook σ))}
    (called : LoopHookCalls point hooks before calls ended reached) :
    ∀ call ∈ calls, ∃ hook, call.callee = .loopHook point hook := by
  intro call member
  obtain ⟨hook, _, _, same⟩ := CallsThrough.callee_of_mem called call member
  exact ⟨hook, same⟩

theorem LoopCalls.prints {cursor : ByteCursor}
    (told : session.LoopCalls exchanges steps calls ending after)
    (source : session.input.source = .buffered interactive cursor) :
    ∃ first turns last, session.Prints interactive exchanges steps calls first turns last := by
  cases told with
  | preloopFailed before =>
    refine ⟨calls, [], [], rfl, (List.append_nil _).symm, loopHookCalls_callee before, nofun, nofun,
      by simp, by simp, by simp, fun channel => ?_⟩
    simp [writtenBy]
  | @ended first _ _ _ _ _ before took =>
    obtain ⟨turns, told, prints⟩ := took.prints source
    refine ⟨first, turns, [], told.steps, ?_, loopHookCalls_callee before, told.each, nofun,
      prints.queued, prints.unprompted, prints.live, fun channel => ?_⟩
    · rw [told.calls, List.append_nil]
    · rw [written_append, prints.texts, writtenBy_nil, List.append_nil, writtenBy]
  | @closed first _ _ _ _ _ last _ _ before took closing =>
    obtain ⟨turns, told, prints⟩ := took.prints source
    refine ⟨first, turns, last, told.steps, ?_, loopHookCalls_callee before, told.each,
      loopHookCalls_callee closing, prints.queued, prints.unprompted, prints.live, fun channel => ?_⟩
    · rw [told.calls]
    · rw [written_append, written_append, prints.texts]
      simp only [writtenBy, List.append_assoc]

section Piped

variable {steps : List LoopStep} {calls first last : List (Call σ)} {turns : List (ToldStep σ)}

theorem Prints.ownTexts (prints : session.Prints interactive exchanges steps calls first turns last)
    (quiet : session.shell.PromptsQuietly) (channel : Channel) (told : ToldStep σ)
    (member : told ∈ turns) :
    told.ownTexts session.shell.console channel =
      writtenBy session.shell.console channel told.calls := by
  rw [← List.take_append_drop session.input.queue.length turns] at member
  rcases List.mem_append.mp member with queued | live
  · rw [ToldStep.ownTexts, prints.unprompted told queued]
    rfl
  · exact (prints.live told live).ownTexts quiet _ channel

end Piped

end Session

end LineShell
