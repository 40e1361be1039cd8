import LineShell.Proofs.Failures
import LineShell.Proofs.Feeding
import LineShell.Proofs.Unlogged
/-!
Sessions that have `echo` and a history on a file. Their log aside they are a dialogue: the file is
read, each line is answered with one text at most, and the file is written.
-/

namespace LineShell

variable {ε σ α β : Type}

open LineShell.Action

/-- Nobody types into the source, and from a state of the client on it delivers the lines one by one and
then ends. It asks for nothing. -/
inductive Source.Delivers : Source σ → σ → List String → Prop where
  | ended {source later : Source σ} {client left : σ}
      (reads : ∀ prompt console, source.read prompt console client = pure (.ok none, later, left))
      (piped : later.isInteractive left = pure (false, last)) : Delivers source client []
  | line {source later : Source σ} {client left : σ}
      (reads : ∀ prompt console,
        source.read prompt console client = pure (.ok (some line), later, left))
      (rest : Delivers later left lines) : Delivers source client (line :: lines)

theorem Source.Gives.delivers {source : Source σ} (gives : source.Gives lines) (client : σ) :
    source.Delivers client lines := by
  induction lines generalizing source with
  | nil =>
    obtain ⟨later, left, reads⟩ := gives.read
    exact .ended (fun prompt console => reads prompt console client)
      (congrFun left.isInteractive client)
  | cons line lines ih =>
    obtain ⟨later, left, reads⟩ := gives.read
    exact .line (fun prompt console => reads prompt console client) (ih left)

/-- What a command does: the history it leaves, what it writes, and what it comes to when that has
been written. -/
structure Reply where
  history : History
  written : Option (Channel × String) := none
  outcome : Outcome := .success

/-- Write what the reply has to be written. -/
def Reply.deliver (reply : Reply) (console : ConsoleId) (wrap : DeviceError → ε) :
    Program (Except ε Outcome) :=
  match reply.written with
  | none => return .ok reply.outcome
  | some (channel, text) =>
    (fun answer => (answer.mapError wrap).map fun _ => reply.outcome) <$>
      Program.write console channel text

namespace Builtin

/-- The reply to arguments that are not carried out. -/
def refusal (builtin : Builtin) (history : History) : Refusal → Reply
  | .help => { history, written := some (.out, endLine builtin.help) }
  | .misuse text => { history, written := some (.err, endLine text), outcome := .exit misuseCode }

/-- The reply to arguments. -/
def reply (words : List String) (history : History) : Builtin → Reply
  | .exit =>
    match exitCode words with
    | .error refused => exit.refusal history refused
    | .ok code => { history, outcome := .stopWith code }
  | .echo =>
    match echoText words with
    | .error refused => echo.refusal history refused
    | .ok text => { history, written := some (.out, text) }
  | .hist =>
    match histArguments words with
    | .error refused => hist.refusal history refused
    | .ok { clear := true, .. } => { history := history.clear }
    | .ok { clear := false, count } => { history, written := some (.out, history.listing count) }

variable {console : ConsoleId} {words : List String} {history : History} {client : σ}

theorem runFrom_say_pure (channel : Channel) (text : String) (outcome : Outcome) (memory : Memory σ) :
    (do say console channel text; return outcome : Action Failure (Memory σ) Outcome).runFrom memory =
      (fun answer => ((answer.mapError .device).map fun _ => outcome, memory)) <$>
        Program.write console channel text := by
  rw [runFrom_bind]
  refine congrArg (Program.ask _) (funext fun answer => ?_)
  cases answer <;> rfl

theorem runFrom_refuse (builtin : Builtin) (refused : Refusal) :
    (builtin.refuse console refused).runFrom (⟨history, client⟩ : Memory σ) =
      (fun result => (result, ⟨history, client⟩)) <$>
        (builtin.refusal history refused).deliver console .device := by
  cases refused with
  | help => exact runFrom_say_pure .out (endLine builtin.help) .success ⟨history, client⟩
  | misuse text => exact runFrom_say_pure .err (endLine text) (.exit misuseCode) ⟨history, client⟩

theorem runFrom_run (builtin : Builtin) :
    (builtin.run console words).runFrom (⟨history, client⟩ : Memory σ) =
      (fun result => (result, ⟨(builtin.reply words history).history, client⟩)) <$>
        (builtin.reply words history).deliver console .device := by
  cases builtin with
  | exit =>
    rw [run, reply]
    cases exitCode words with
    | error refused =>
      rw [runFrom_refuse]
      cases refused <;> rfl
    | ok code => rfl
  | echo =>
    rw [run, reply]
    cases echoText words with
    | error refused =>
      rw [runFrom_refuse]
      cases refused <;> rfl
    | ok text => exact runFrom_say_pure .out text .success ⟨history, client⟩
  | hist =>
    rw [run, reply]
    cases histArguments words with
    | error refused =>
      rw [runFrom_refuse]
      cases refused <;> rfl
    | ok asked =>
      obtain ⟨clear, count⟩ := asked
      cases clear with
      | true => rfl
      | false => exact runFrom_say_pure .out (history.listing count) .success ⟨history, client⟩

theorem reply_cases (builtin : Builtin) (words : List String) (history : History) :
    (∃ refused, builtin.reply words history = builtin.refusal history refused) ∨
    (builtin = .exit ∧ ∃ code, builtin.reply words history = { history, outcome := .stopWith code }) ∨
    (builtin = .echo ∧
      ∃ text, builtin.reply words history = { history, written := some (.out, text) }) ∨
    (builtin = .hist ∧ (builtin.reply words history = { history := history.clear } ∨
      ∃ count, builtin.reply words history =
        { history, written := some (.out, history.listing count) })) := by
  cases builtin with
  | exit =>
    rw [reply]
    cases exitCode words with
    | error refused => exact .inl ⟨refused, rfl⟩
    | ok code => exact .inr (.inl ⟨rfl, code, rfl⟩)
  | echo =>
    rw [reply]
    cases echoText words with
    | error refused => exact .inl ⟨refused, rfl⟩
    | ok text => exact .inr (.inr (.inl ⟨rfl, text, rfl⟩))
  | hist =>
    rw [reply]
    cases histArguments words with
    | error refused => exact .inl ⟨refused, rfl⟩
    | ok asked =>
      obtain ⟨clear, count⟩ := asked
      cases clear with
      | true => exact .inr (.inr (.inr ⟨rfl, .inl rfl⟩))
      | false => exact .inr (.inr (.inr ⟨rfl, .inr ⟨count, rfl⟩⟩))

/-- The shell's own commands leave the history as it is, or empty. -/
theorem history_reply (builtin : Builtin) (words : List String) (history : History) :
    (builtin.reply words history).history = history ∨
      (builtin.reply words history).history = history.clear := by
  rcases builtin.reply_cases words history with
    ⟨refused, replied⟩ | ⟨_, code, replied⟩ | ⟨_, text, replied⟩ | ⟨_, replied | ⟨count, replied⟩⟩ <;>
    rw [replied]
  · cases refused <;> exact .inl rfl
  · exact .inl rfl
  · exact .inl rfl
  · exact .inr rfl
  · exact .inl rfl

theorem stop_reply {builtin : Builtin} (stays : builtin ≠ .exit) (words : List String)
    (history : History) : (builtin.reply words history).outcome.stop = false := by
  rcases builtin.reply_cases words history with
    ⟨refused, replied⟩ | ⟨exits, _⟩ | ⟨_, text, replied⟩ | ⟨_, replied | ⟨count, replied⟩⟩
  · rw [replied]
    cases refused <;> rfl
  · exact absurd exits stays
  · rw [replied]
    rfl
  · rw [replied]
    rfl
  · rw [replied]
    rfl

end Builtin

namespace Session

/-- Attach a history on a file, and `echo`. -/
def attachHistory (limit : Nat) (path : String) : Action ShellError (Session σ) Unit := do
  loadModule (.history limit (some path))
  loadModule .echo

/-- A fresh session with a history on a file and with `echo` runs the loop over what a source
delivers, which may keep its place in the client's state. -/
def remembering (limit : Nat) (path : String) (turns : Nat) (given : Source σ × σ) :
    Program Ending := do
  let fresh : Session σ := { input := { source := given.1 }, memory := { client := given.2 } }
  match ← (attachHistory limit path).runFrom fresh with
  | (.error error, _) => return .failed error
  | (.ok (), session) => return (← session.run turns).1

end Session

namespace Shell

/-- The shell of such a session. -/
def remembering (path : String) : Shell σ where
  commands := (NameTable.insert ∅ Builtin.hist.name (.builtin .hist 0)).insert Builtin.echo.name
    (.builtin .echo 0)
  hooks := Module.addHistoryHooks (some path) {}
  modules := (NameTable.insert ∅ (Module.history 0 (some path) : Module σ).name ()).insert
    (Module.echo : Module σ).name ()

/-- The command of a name in such a session. -/
def remembered? (name : String) : Option Builtin :=
  if name = Builtin.echo.name then some .echo
  else if name = Builtin.hist.name then some .hist
  else none

end Shell

theorem Session.unlogged_attachHistory (limit : Nat) (path : String) (source : Source σ) (client : σ) :
    ((attachHistory limit path).runFrom
        { input := { source }, memory := { client } }).unlogged =
      pure (.ok (), {
        shell := .remembering path
        input := { source }
        memory := { history := .ofLimit limit, client } }) := rfl

namespace History

/-- The history once its file has been read, told what reading it has given. -/
def recalled (path : String) (history : History) :
    Except DeviceError Bytes → Except ShellError History
  | .error .notFound => .ok { history with restored := true }
  | .error error => .error (.command (.context ("hist: can't read " ++ path) (.device error)))
  | .ok bytes =>
    match Bytes.toText? bytes with
    | none => .error (.command (.context ("hist: can't read " ++ path) (.device .invalidText)))
    | some text => .ok (history.restore (entriesOfText text))

/-- The reply to a statement once it has been remembered: what its command replies, or the report that
there is none. The failure of a write is the command's or the loop's. -/
def replyTo (history : History) (statement : Statement) : Reply × (DeviceError → ShellError) :=
  match Shell.remembered? statement.command with
  | some builtin =>
    (builtin.reply statement.arguments history, fun error => .command (.device error))
  | none =>
    ({ history, written := some (.err, statement.command ++ ": command not found\n") }, .device)

/-- Answer a statement: it is remembered, and then replied to. -/
def answer (history : History) (statement : Statement) : ExceptT ShellError Program History :=
  let (reply, wrap) := (history.push statement.raw).replyTo statement
  (fun _ => reply.history) <$> (.mk <| reply.deliver 0 wrap : ExceptT ShellError Program Outcome)

/-- Answer a line, unless it is blank or cannot be parsed. -/
def answerLine (history : History) (line : String) : ExceptT ShellError Program History :=
  if Text.isBlankLine line then return history
  else
    match WordRule.simple.parse line with
    | .error error => throw error
    | .ok statement => history.answer statement

/-- Read the file, answer the lines, and write the file. -/
def dialogue (limit : Nat) (path : String) (lines : List String) :
    ExceptT ShellError Program Unit := do
  let recalled ← .mk (recalled path (.ofLimit limit) <$> Program.load path)
  let history ← lines.foldlM answerLine recalled
  .mk (Except.mapError (fun error =>
      .command (.context ("hist: can't write " ++ path) (.device error))) <$>
    Program.save path (Bytes.ofText history.fileText))

end History

/-- The ending of a session's loop, told what the dialogue has come to. -/
def Ending.ofDialogue : Except ShellError Unit → Ending
  | .ok () => .stopped .stopped
  | .error error => .failed error

namespace Shell

variable {path line : String} {memory : Memory σ} {statement : Statement} {builtin : Builtin}

theorem find?_remembering (path name : String) :
    (remembering path : Shell σ).commands.find? name = (remembered? name).map (.builtin · 0) := by
  rw [remembering, NameTable.find?_insert, NameTable.find?_insert, remembered?]
  by_cases echoes : name = Builtin.echo.name
  · simp only [if_pos echoes, Option.map_some]
  · by_cases lists : name = Builtin.hist.name
    · simp only [if_neg echoes, if_pos lists, Option.map_some]
    · simp only [if_neg echoes, if_neg lists, Option.map_none]
      rfl

theorem unlogged_runPostparse (path : String) (statement : Statement) (memory : Memory σ) :
    (((remembering path).hooks.runPostparse statement).runFrom memory).unlogged =
      pure (.ok statement, { memory with history := memory.history.push statement.raw }) := rfl

theorem unlogged_execute_invalid (invalid : WordRule.simple.parse line = .error error) :
    (((remembering path).execute line).runFrom memory).unlogged = pure (.error error, memory) := by
  have parsed : ((remembering path).parser.parse line).runFrom memory =
      pure (.error error, memory) := by
    rw [remembering, Parser.parse, invalid]
    rfl
  rw [execute, runFrom_bind, Program.unlogged_bind, parsed]
  rfl

/-- What is done with a statement that the hooks have passed: its command is run. -/
def dispatch (shell : Shell σ) (statement : Statement) :
    Action ShellError (Memory σ) (Option Outcome) :=
  match shell.commands.find? statement.command with
  | none => throw (.commandNotFound statement)
  | some command => do
    Action.record .debug logTarget ("dispatching " ++ Text.quotedList statement.argv)
    let outcome ← (command.run statement).mapError .command
    (shell.hooks.runPostexecute statement outcome).mapError .command

/-- A statement that has been parsed is remembered before its command is looked up. -/
theorem unlogged_execute_parsed (parsed : WordRule.simple.parse line = .ok statement) :
    (((remembering path).execute line).runFrom memory).unlogged =
      (((remembering path).dispatch statement).runFrom
        { memory with history := memory.history.push statement.raw }).unlogged := by
  have first : ((remembering path).parser.parse line).runFrom memory =
      pure (.ok statement, memory) := by
    rw [remembering, Parser.parse, parsed]
    rfl
  rw [execute, runFrom_bind, Program.unlogged_bind, first]
  simp only [Program.unlogged_pure, pure_bind]
  rw [runFrom_bind, Action.mapError, Action.runFrom_ofFun, Program.unlogged_bind,
    Program.unlogged_bind, unlogged_runPostparse]
  rfl

theorem runFrom_dispatch_unknown (unknown : remembered? statement.command = none) :
    ((remembering path).dispatch statement).runFrom memory =
      pure (.error (.commandNotFound statement), memory) := by
  rw [dispatch, find?_remembering, unknown]
  rfl

theorem unlogged_dispatch_known (known : remembered? statement.command = some builtin)
    {history : History} {client : σ} :
    (((remembering path).dispatch statement).runFrom ⟨history, client⟩).unlogged =
      (fun result => ((result.mapError .command).map some,
          ⟨(builtin.reply statement.arguments history).history, client⟩)) <$>
        (builtin.reply statement.arguments history).deliver 0 .device := by
  -- Nothing is kept in the log while a reply is delivered.
  have deliver : ∀ reply : Reply,
      (reply.deliver 0 .device : Program (Except Failure Outcome)).unlogged =
        reply.deliver 0 .device := by
    intro reply
    obtain ⟨_, _ | _, _⟩ := reply <;> rfl
  rw [dispatch, find?_remembering, known]
  simp only [Option.map_some]
  rw [unlogged_runFrom_record_bind, runFrom_bind, Action.mapError, Action.runFrom_ofFun,
    Command.run, runFrom_map, Builtin.runFrom_run]
  simp only [Program.unlogged_bind, deliver, map_eq_pure_bind, bind_assoc, pure_bind]
  refine congrArg (Bind.bind _) (funext fun result => ?_)
  cases result <;> rfl

theorem ne_exit_of_remembered {name : String} (known : remembered? name = some builtin) :
    builtin ≠ .exit := by
  rintro rfl
  rw [remembered?] at known
  split at known
  · cases known
  · split at known <;> cases known

/-- What the loop makes of the result of a line. -/
def settle (shell : Shell σ) :
    Except ShellError (Option Outcome) → Action ShellError (LoopState σ) (Option Outcome)
  | .ok outcome => return outcome
  | .error (.commandNotFound statement) => do
    shell.reportNotFound statement
    return none
  | .error error => throw error

theorem runFrom_executeInLoop (shell : Shell σ) (filled : Text.isBlankLine line = false)
    (input : Input σ) (memory : Memory σ) :
    (shell.executeInLoop line).runFrom ⟨input, memory⟩ =
      (shell.execute line).runFrom memory >>= fun result =>
        (shell.settle result.1).runFrom ⟨input, result.2⟩ := by
  rw [executeInLoop, if_neg (by simp [filled]), runFrom_bind, Action.ofMemory, Action.onPart,
    Action.runFrom_ofFun, Action.result, Action.runFrom_ofFun, bind_assoc, bind_assoc]
  refine congrArg (Bind.bind _) (funext fun result => ?_)
  obtain ⟨result, after⟩ := result
  cases result with
  | ok outcome => rfl
  | error error => cases error <;> rfl

/-- The line has been answered: the loop goes on with the history of the answer, or has failed. -/
inductive Answered (input : Input σ) (client : σ) :
    Except ShellError (Option Outcome) × LoopState σ → Except ShellError History → Prop where
  | went (goesOn : ∀ found ∈ outcome, Outcome.stop found = false) :
      Answered input client (.ok outcome, ⟨input, ⟨history, client⟩⟩) (.ok history)
  | failed : Answered input client (.error error, state) (.error error)

theorem settle_alike (input : Input σ) (client : σ) (history : History) :
    ((((remembering path).dispatch statement).runFrom
        ⟨history.push statement.raw, client⟩).unlogged >>= fun result =>
          (((remembering path).settle result.1).runFrom ⟨input, result.2⟩).unlogged).Alike
      (Answered input client) (history.answer statement).run := by
  rw [History.answer, History.replyTo]
  cases known : remembered? statement.command with
  | none =>
    rw [runFrom_dispatch_unknown known]
    refine .ask fun answer => ?_
    cases answer with
    | error error => exact .done .failed
    | ok written => exact .done (.went nofun)
  | some builtin =>
    have goesOn := Builtin.stop_reply (ne_exit_of_remembered known) statement.arguments
      (history.push statement.raw)
    rw [unlogged_dispatch_known known]
    dsimp only
    generalize builtin.reply statement.arguments (history.push statement.raw) = reply at goesOn ⊢
    obtain ⟨left, written, outcome⟩ := reply
    have stays : ∀ found ∈ some outcome, found.stop = false := by
      rintro found ⟨⟩
      exact goesOn
    cases written with
    | none => exact .done (Answered.went stays)
    | some message =>
      obtain ⟨channel, text⟩ := message
      refine .ask fun answer => ?_
      cases answer with
      | error error => exact .done .failed
      | ok written => exact .done (.went stays)

theorem executeInLoop_alike (path line : String) (input : Input σ) (client : σ) (history : History) :
    (((remembering path).executeInLoop line).runFrom ⟨input, ⟨history, client⟩⟩).unlogged.Alike
      (Answered input client) (history.answerLine line).run := by
  rw [History.answerLine]
  by_cases blank : Text.isBlankLine line = true
  · rw [executeInLoop, if_pos blank, if_pos blank]
    exact .done (.went nofun)
  · have filled : Text.isBlankLine line = false := by simpa using blank
    rw [if_neg blank, runFrom_executeInLoop _ filled, Program.unlogged_bind]
    cases parsed : WordRule.simple.parse line with
    | error error =>
      obtain ⟨detail, rfl⟩ := WordRule.parse_error parsed
      rw [unlogged_execute_invalid parsed]
      exact .done .failed
    | ok statement =>
      rw [unlogged_execute_parsed parsed]
      exact settle_alike input client history

theorem runFrom_nextLine {source later : Source σ} {client left : σ} {given : Option String}
    (reads : ∀ prompt console, source.read prompt console client = pure (.ok given, later, left))
    (path : String) (history : History) :
    (remembering path).nextLine.runFrom ⟨⟨[], source⟩, ⟨history, client⟩⟩ =
      pure (.ok given, ⟨⟨[], later⟩, ⟨history, left⟩⟩) := by
  have renders : (remembering path).renderPrompt.run client =
      (pure (defaultPrompt, client) : Program (String × σ)) := rfl
  rw [nextLine, Action.runFrom_ofFun]
  simp only [renders, reads, pure_bind]

theorem runFrom_turn_line {source later : Source σ} {client left : σ}
    (reads : ∀ prompt console,
      source.read prompt console client = pure (.ok (some line), later, left))
    (path : String) (history : History) :
    (remembering path).turn.runFrom ⟨⟨[], source⟩, ⟨history, client⟩⟩ =
      ((remembering path).executeInLoop line).runFrom ⟨⟨[], later⟩, ⟨history, left⟩⟩ := by
  rw [turn, runFrom_bind, runFrom_nextLine reads]
  rfl

theorem runFrom_turn_end {source later : Source σ} {client left : σ}
    (reads : ∀ prompt console, source.read prompt console client = pure (.ok none, later, left))
    (path : String) (history : History) :
    (remembering path).turn.runFrom ⟨⟨[], source⟩, ⟨history, client⟩⟩ =
      (some <$> (remembering path).atEndOfInput).runFrom ⟨⟨[], later⟩, ⟨history, left⟩⟩ := by
  rw [turn, runFrom_bind, runFrom_nextLine reads]
  rfl

theorem unlogged_atEndOfInput {source : Source σ} {client last : σ}
    (piped : source.isInteractive client = pure (false, last)) (path : String) (history : History) :
    ((some <$> (remembering path).atEndOfInput).runFrom
        ⟨⟨[], source⟩, ⟨history, client⟩⟩).unlogged =
      pure (.ok (some .stopped), ⟨⟨[], source⟩, ⟨history, last⟩⟩) := by
  have handled : (remembering path : Shell σ).endOfInput = none := rfl
  have asked : (Action.ofMemory (Action.ofClient (.ofTotal source.isInteractive))).runFrom
      (⟨⟨[], source⟩, ⟨history, client⟩⟩ : LoopState σ) =
        (pure (.ok false, ⟨⟨[], source⟩, ⟨history, last⟩⟩) :
          Program (Except ShellError Bool × LoopState σ)) := by
    simp only [Action.ofMemory, Action.ofClient, Action.onPart, Action.ofTotal, Action.runFrom_ofFun,
      StateT.run, piped, pure_bind]
  rw [runFrom_map, atEndOfInput, runFrom_bind, runFrom_get, pure_bind]
  simp only [handled]
  rw [runFrom_bind, asked]
  rfl

/-- The loop has come to its end with the history of the last answer, or has failed. -/
inductive Told : Ending × LoopState σ → Except ShellError History → Prop where
  | ended : Told (.stopped .stopped, ⟨input, ⟨history, client⟩⟩) (.ok history)
  | failed : Told (.failed error, state) (.error error)

/-- Taking turns is answering the lines one by one. -/
theorem takeTurns_alike {source : Source σ} {client : σ} {turns : Nat}
    (delivers : source.Delivers client lines) (enough : lines.length < turns) (path : String)
    (history : History) :
    ((remembering path).takeTurns turns ⟨⟨[], source⟩, ⟨history, client⟩⟩).unlogged.Alike Told
      (lines.foldlM History.answerLine history).run := by
  -- There is one turn more than there are lines: the one that meets the end of input.
  obtain ⟨turns, rfl⟩ := Nat.exists_eq_succ_of_ne_zero (Nat.ne_of_gt (Nat.zero_lt_of_lt enough))
  induction delivers generalizing turns history with
  | ended reads piped =>
    rw [takeTurns_succ, Program.unlogged_bind, runFrom_turn_end reads,
      unlogged_atEndOfInput piped]
    exact .done .ended
  | @line line lines source later client left reads rest ih =>
    rw [takeTurns_succ, Program.unlogged_bind, runFrom_turn_line reads,
      List.foldlM_cons, ExceptT.run_bind]
    apply (executeInLoop_alike path line ⟨[], later⟩ left history).bind
    intro result answered settled
    cases settled with
    | failed => exact .done .failed
    | @went outcome history goesOn =>
      obtain ⟨turns, rfl⟩ := Nat.exists_eq_succ_of_ne_zero (Nat.ne_of_gt
        (Nat.zero_lt_of_lt (Nat.lt_of_succ_lt_succ enough)))
      have onward := ih history turns (Nat.lt_of_succ_lt_succ enough)
      cases outcome with
      | none => exact onward
      | some outcome =>
        have going : Ending.ofResult? (.ok (some outcome)) = none := by
          simp [Ending.ofResult?, goesOn]
        simp only [going]
        exact onward

theorem unlogged_ofMemory (action : Action ε (Memory σ) α) (input : Input σ) (memory : Memory σ) :
    (action.ofMemory.runFrom ⟨input, memory⟩).unlogged =
      (fun result => (result.1, ⟨input, result.2⟩)) <$> (action.runFrom memory).unlogged := by
  rw [Action.ofMemory, Action.onPart, Action.runFrom_ofFun, Program.unlogged_bind, map_eq_pure_bind]
  rfl

theorem unlogged_runLoop_single (point : HookPoint) (hook : Named (LoopHook σ)) (memory : Memory σ) :
    ((HookTable.runLoop point [hook]).runFrom memory).unlogged =
      (hook.action.run.runFrom memory).unlogged := by
  have last : (hook.action.run >>= fun _ => HookTable.runLoop point []) = hook.action.run :=
    bind_pure hook.action.run
  rw [HookTable.runLoop, unlogged_runFrom_record_bind, last]

/-- The hooks before the loop have read the file, or have failed. -/
inductive Recalled (input : Input σ) (client : σ) :
    Except Failure Unit × LoopState σ → Except ShellError History → Prop where
  | known : Recalled input client (.ok (), ⟨input, ⟨history, client⟩⟩) (.ok history)
  | failed {failure : Failure} :
      Recalled input client (.error failure, state) (.error (.command failure))

theorem runPreloop_alike (path : String) (input : Input σ) (client : σ) {history : History}
    (first : history.restored = false) :
    ((remembering path).hooks.runPreloop.ofMemory.runFrom
        ⟨input, ⟨history, client⟩⟩).unlogged.Alike
      (Recalled input client) (history.recalled path <$> Program.load path) := by
  have restores : (remembering path : Shell σ).hooks.runPreloop =
      HookTable.runLoop .preloop [⟨Module.historyHook, .restoreHistory path⟩] := rfl
  rw [unlogged_ofMemory, restores, unlogged_runLoop_single, LoopHook.run, History.restoreFrom,
    runFrom_bind, runFrom_get, pure_bind]
  simp only [first, Bool.false_eq_true, ↓reduceIte]
  rw [runFrom_bind, Action.ofProgram, Action.runFrom_ofFun, bind_assoc, Program.unlogged_bind,
    Program.unlogged_load, map_bind, map_eq_pure_bind]
  apply (Program.Alike.refl _).bind
  rintro answer _ rfl
  simp only [pure_bind]
  cases answer with
  | error error => cases error <;> first | exact .done .known | exact .done .failed
  | ok bytes =>
    cases text : Bytes.toText? bytes with
    | none =>
      simp only [History.recalled, text]
      exact .done .failed
    | some text =>
      simp only [History.recalled, text]
      exact .done .known

theorem runLoop_alike {source : Source σ} {client : σ} {turns : Nat}
    (delivers : source.Delivers client lines) (enough : lines.length < turns) (limit : Nat)
    (path : String) :
    ((remembering path).runLoop turns ⟨⟨[], source⟩, ⟨.ofLimit limit, client⟩⟩).unlogged.Alike
      (fun left told => left.1 = Ending.ofDialogue told) (History.dialogue limit path lines).run := by
  rw [runLoop, History.dialogue, ExceptT.run_bind, Program.unlogged_bind]
  apply (runPreloop_alike path ⟨[], source⟩ client rfl).bind
  intro result recalled known
  cases known with
  | failed => exact .done rfl
  | @known history =>
    dsimp only
    rw [ExceptT.run_bind, Program.unlogged_bind]
    apply (takeTurns_alike delivers enough path history).bind
    intro result answered told
    cases told with
    | failed => exact .done rfl
    | ended =>
      refine .ask fun answer => ?_
      cases answer <;> exact .done rfl

end Shell

/-- The session, its log aside, is the dialogue. -/
theorem Session.unlogged_remembering {source : Source σ} {client : σ} {turns : Nat}
    (delivers : source.Delivers client lines) (enough : lines.length < turns) (limit : Nat)
    (path : String) :
    (remembering limit path turns (source, client)).unlogged =
      Ending.ofDialogue <$> (History.dialogue limit path lines).run := by
  rw [remembering, Program.unlogged_bind, unlogged_attachHistory, pure_bind]
  apply Program.Alike.eq
  simp only [Session.run, bind_assoc, Program.unlogged_bind]
  rw [map_eq_pure_bind]
  apply (Shell.runLoop_alike delivers enough limit path).bind
  intro left told ended
  exact .done ended

end LineShell
