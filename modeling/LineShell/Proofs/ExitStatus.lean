import LineShell.Proofs.BlankLines
import LineShell.Proofs.Starting
/-!
The exit status of the command line. Of the lines to run and the lines of the input, the first that
is not text, that cannot be split, or that asks to exit decides it, and no line after that is run.
-/

namespace LineShell

variable {σ : Type}

open LineShell.Action

namespace CommandLine

/-- What is delivered to the loop, in order: the lines to run, and then the lines of the input, some
of which may be no text. -/
def delivered (commands : List String) (input : Bytes) : List HeldLine :=
  commands.map .ok ++ ({ bytes := input } : ByteCursor).lines.map (·.mapError .device)

/-- The exit code with which a statement asks to exit. -/
def exitAsked? (statement : Statement) : Option Int32 :=
  if statement.command = Builtin.exit.name then (Builtin.exitCode statement.arguments).toOption
  else none

/-- The exit status that an item decides, if it does. -/
def decided? (rule : WordRule) : HeldLine → Option UInt8
  | .error _ => some failureStatus
  | .ok line =>
    if Text.isBlankLine line then none
    else
      match rule.parse line with
      | .error _ => some failureStatus
      | .ok statement => (exitAsked? statement).map exitStatus

/-- What the loop is given of some items: those up to the first that decides, or all of them and then
the end. -/
def taken (rule : WordRule) : List HeldLine → List (Except ShellError (Option String))
  | [] => [.ok none]
  | item :: later =>
    item.map some :: if (decided? rule item).isSome then [] else taken rule later

/-- The exit status of a process whose loop has ended. -/
def endingStatus : Ending → UInt8
  | .stopped outcome => exitStatus outcome.exitCode
  | .failed _ => failureStatus
  | .unfinished => failureStatus

end CommandLine

/-- No write to the first console is refused. -/
def Written (exchanges : List Exchange) : Prop :=
  ∀ channel, Unrefused 0 channel exchanges

theorem written_append_iff : Written (asked ++ later) ↔ Written asked ∧ Written later := by
  simp only [Written, Unrefused, List.mem_append, not_or, forall_and]

theorem Written.tail (written : Written (exchange :: later)) : Written later :=
  fun channel text error member => written channel text error (List.mem_cons_of_mem _ member)

theorem Written.reply {channel : Channel} {reply : Except DeviceError Unit}
    (written : Written asked) (member : ⟨.write 0 channel text, reply⟩ ∈ asked) :
    reply = .ok () := by
  cases reply with
  | ok _ => rfl
  | error error => exact absurd member (written channel text error)

namespace Builtin

variable {builtin : Builtin}

theorem say_bind_of_runs {before after : σ} {last : Outcome}
    (ran : (say 0 channel text >>= fun _ => pure last : Action Failure σ Outcome).Runs before asked
      ended after) (written : Written asked) : ended = .ok last := by
  obtain ⟨outcome, said, rfl⟩ := runs_bind_pure_iff.mp ran
  obtain ⟨reply, wrote, rfl, _⟩ := runs_attempt_iff.mp said
  obtain rfl := Program.runs_write_iff.mp wrote
  rw [written.reply (List.mem_singleton_self _)]
  rfl

theorem refuse_of_runs {refusal : Refusal} {before after : σ}
    (ran : (builtin.refuse 0 refusal).Runs before asked ended after) (written : Written asked) :
    ∃ outcome, ended = .ok outcome ∧ outcome.stop = false := by
  cases refusal with
  | help => exact ⟨_, say_bind_of_runs ran written, rfl⟩
  | misuse text => exact ⟨_, say_bind_of_runs ran written, rfl⟩

/-- Of the shell's own commands only `exit` asks to stop, when it accepts its arguments. -/
theorem run_cases {before after : Memory σ}
    (ran : (builtin.run 0 words).Runs before asked ended after) (written : Written asked) :
    (∃ code, builtin = .exit ∧ exitCode words = .ok code ∧ ended = .ok (.stopWith code)) ∨
    ((builtin = .exit → (exitCode words).toOption = none) ∧
      ∃ outcome, ended = .ok outcome ∧ outcome.stop = false) := by
  cases builtin with
  | exit =>
    simp only [run] at ran
    split at ran
    · rename_i refusal refused
      exact .inr ⟨fun _ => by rw [refused]; rfl, refuse_of_runs ran written⟩
    · rename_i code accepted
      obtain ⟨_, rfl, _⟩ := runs_pure_iff.mp ran
      exact .inl ⟨code, rfl, accepted, rfl⟩
  | echo =>
    refine .inr ⟨fun same => absurd same (by decide), ?_⟩
    simp only [run] at ran
    split at ran
    · exact refuse_of_runs ran written
    · exact ⟨_, say_bind_of_runs ran written, rfl⟩
  | hist =>
    refine .inr ⟨fun same => absurd same (by decide), ?_⟩
    simp only [run] at ran
    split at ran
    · exact refuse_of_runs ran written
    · have cleared := runs_modify_bind_iff.mp ran
      obtain ⟨_, rfl, _⟩ := runs_pure_iff.mp cleared
      exact ⟨_, rfl, rfl⟩
    · exact ⟨_, say_bind_of_runs (runs_get_bind_iff.mp ran) written, rfl⟩

end Builtin

/-- Hooks that only fill in a missing outcome keep one that is there. -/
theorem OutcomeHooksRun.eq_of_filling {hooks : List (Named (OutcomeHook σ))}
    (handed : OutcomeHooksRun statement hooks outcome before asked ended after)
    (filling : ∀ hook ∈ hooks, hook.action = .defaultOutcome) (filled : outcome.isSome = true) :
    ended = .ok outcome := by
  unfold OutcomeHooksRun at handed
  induction handed with
  | done => rfl
  | failed ran =>
    have first := filling _ List.mem_cons_self
    simp only [first, OutcomeHook.run] at ran
    cases (runs_pure_iff.mp ran).2.1
  | @next _ value _ _ _ _ _ _ _ _ ran rest ih =>
    have first := filling _ List.mem_cons_self
    obtain ⟨outcome, rfl⟩ := Option.isSome_iff_exists.mp filled
    simp only [first, OutcomeHook.run] at ran
    obtain ⟨_, same, _⟩ := runs_pure_iff.mp ran
    obtain rfl := Except.ok.inj same
    exact ih (fun hook member => filling hook (List.mem_cons_of_mem _ member)) filled

namespace Shell.IsFitted

variable {shell : Shell σ} {rule : WordRule}

theorem parse_of_prepared (fitted : shell.IsFitted rule)
    (prepared : shell.Prepared line before asked statement after) :
    rule.parse line = .ok statement := by
  cases prepared with
  | intro parsed handed =>
    obtain rfl := handed.eq_of_recording fitted.stock.postparse
    rw [fitted.parser] at parsed
    exact (Parser.runs_words_iff.mp parsed).2.1.symm

theorem builtin_of_bound (fitted : shell.IsFitted rule)
    (bound : shell.commands.find? name = some command) :
    ∃ builtin, command = .builtin builtin 0 ∧ builtin.name = name := by
  obtain ⟨builtin, rfl⟩ := fitted.stock.commands name command bound
  exact ⟨builtin, rfl, fitted.named name builtin bound⟩

theorem exitAsked?_eq {builtin : Builtin} (named : builtin.name = statement.command) :
    CommandLine.exitAsked? statement =
      if builtin = .exit then (Builtin.exitCode statement.arguments).toOption else none := by
  rw [CommandLine.exitAsked?, ← named]
  cases builtin <;> rfl

theorem not_raised (fitted : shell.IsFitted rule)
    (raised : shell.Raised line before asked broken after) (written : Written asked) : False := by
  cases raised with
  | statementHook parsed hooks handed failed =>
    have member := hooks.symm ▸ List.mem_append_right _ List.mem_cons_self
    simp only [fitted.stock.postparse _ member, StatementHook.run] at failed
    have handedOn := runs_modify_bind_iff.mp failed
    cases (runs_pure_iff.mp handedOn).2.1
  | command prepared bound failed =>
    obtain ⟨builtin, rfl, _⟩ := fitted.builtin_of_bound bound
    obtain ⟨outcome, ran, same⟩ := runs_map_iff.mp failed
    rcases builtin.run_cases ran (written_append_iff.mp written).2.tail with
      ⟨_, _, _, rfl⟩ | ⟨_, _, rfl, _⟩ <;> cases same
  | outcomeHook prepared bound ran hooks handed failed =>
    have member := hooks.symm ▸ List.mem_append_right _ List.mem_cons_self
    simp only [fitted.stock.postexecute _ member, OutcomeHook.run] at failed
    cases (runs_pure_iff.mp failed).2.1

/-- What executing a line comes to if nothing that it writes is refused. -/
theorem execute_cases (fitted : shell.IsFitted rule)
    (exits : shell.commands.contains Builtin.exit.name = true)
    (ran : (shell.execute line).Runs before asked ended after) (written : Written asked) :
    (∃ error, rule.parse line = .error error ∧ ended = .error error) ∨
    ∃ statement, rule.parse line = .ok statement ∧
      ((∃ code, CommandLine.exitAsked? statement = some code ∧ ended = .ok (some (.stopWith code))) ∨
      CommandLine.exitAsked? statement = none ∧
        (ended = .error (.commandNotFound statement) ∨
          ∃ outcome, ended = .ok (some outcome) ∧ outcome.stop = false)) := by
  cases pipeline_of_runs ran with
  | parserFailed parsed =>
    rw [fitted.parser] at parsed
    obtain ⟨_, same, _⟩ := Parser.runs_words_iff.mp parsed
    exact .inl ⟨_, same.symm, rfl⟩
  | @notFound _ statement _ unresolved =>
    refine .inr ⟨statement, fitted.parse_of_prepared unresolved.prepared, .inr ⟨?_, .inl rfl⟩⟩
    have other : statement.command ≠ Builtin.exit.name := by
      intro same
      have unbound := unresolved.unbound
      rw [same] at unbound
      simp [NameTable.contains, unbound] at exits
    rw [CommandLine.exitAsked?, if_neg other]
  | raised raised => exact (fitted.not_raised raised written).elim
  | @done asked statement _ command others outcome _ last final _ prepared bound ran handed =>
    refine .inr ⟨statement, fitted.parse_of_prepared prepared, ?_⟩
    obtain ⟨builtin, rfl, named⟩ := fitted.builtin_of_bound bound
    obtain ⟨result, worked, same⟩ := runs_map_iff.mp ran
    have others := (written_append_iff.mp (written_append_iff.mp written).2.tail).1
    rw [exitAsked?_eq named]
    rcases builtin.run_cases worked others with
      ⟨code, rfl, accepted, rfl⟩ | ⟨refused, outcome, rfl, going⟩
    · cases same
      refine .inl ⟨code, by rw [accepted]; rfl, ?_⟩
      cases handed.eq_of_filling fitted.stock.postexecute rfl
      rfl
    · cases same
      refine .inr ⟨by split <;> simp_all, .inr ⟨outcome, ?_, going⟩⟩
      cases handed.eq_of_filling fitted.stock.postexecute rfl
      rfl

end Shell.IsFitted

/-- Nobody types into the source of the input, and the items are what the loop will be given. -/
def Input.Delivers (input : Input σ) (items : List HeldLine) : Prop :=
  ∃ cursor, input.source = .buffered false cursor ∧
    items = input.queue.map .ok ++ cursor.lines.map (·.mapError .device)

theorem Input.Delivers.unattended {input : Input σ} (delivers : input.Delivers items) :
    input.source.Unattended := by
  obtain ⟨cursor, piped, _⟩ := delivers
  rw [piped]
  exact Source.unattended_of_pure rfl

theorem Input.Delivers.nextLine {shell : Shell σ} {before after : LoopState σ}
    (quiet : shell.PromptsQuietly) (delivers : before.input.Delivers items)
    (took : shell.nextLine.Runs before taking ended after) :
    ended = items.head?.elim (.ok none) (·.map some) ∧ after.input.Delivers items.tail := by
  obtain ⟨⟨queue, source⟩, memory⟩ := before
  obtain ⟨cursor, rfl, rfl⟩ := delivers
  cases queue with
  | cons line queue =>
    obtain ⟨_, rfl, rfl⟩ := Shell.runs_nextLine_queued_iff.mp took
    exact ⟨rfl, cursor, rfl, rfl⟩
  | nil =>
    obtain ⟨_, rfl, rfl⟩ := (Shell.runs_nextLine_piped_iff quiet).mp took
    cases waiting : cursor.lines with
    | nil =>
      obtain ⟨given, left⟩ := Source.nextLine_of_lines_nil waiting
      exact ⟨by rw [given]; rfl, _, rfl, by rw [left]; rfl⟩
    | cons line later =>
      obtain ⟨given, left⟩ := Source.nextLine_of_lines_cons waiting
      refine ⟨?_, _, rfl, by rw [left]; rfl⟩
      rw [given]
      cases line <;> rfl

theorem eq_cons_of_given {items : List HeldLine}
    (given : .ok (some line) = items.head?.elim (.ok none) (·.map some)) :
    ∃ later, items = .ok line :: later := by
  rcases items with _ | ⟨error | other, later⟩
  · cases given
  · cases given
  · cases given
    exact ⟨later, rfl⟩

namespace Shell.IsFitted

open CommandLine

variable {shell : Shell σ} {rule : WordRule} {before after : LoopState σ}

/-- A turn takes the first item, and ends the loop if that decides the exit status. -/
theorem turn_decides (fitted : shell.IsFitted rule)
    (exits : shell.commands.contains Builtin.exit.name = true)
    (delivers : before.input.Delivers items) (turn : shell.Turn before step after)
    (written : Written (step.exchanges shell.console)) :
    step.fetched = items.head?.elim (.ok none) (·.map some) ∧ after.input.Delivers items.tail ∧
      step.ending?.map endingStatus = items.head?.elim (some 0) (decided? rule) := by
  have quiet := promptsQuietly_of_none fitted.stock.renderer
  cases turn with
  | unread took =>
    obtain ⟨fetched, left⟩ := delivers.nextLine quiet took
    refine ⟨fetched, left, ?_⟩
    rcases items with _ | ⟨error | line, later⟩
    · cases fetched
    · rfl
    · cases fetched
  | endOfInput took met =>
    obtain ⟨fetched, left⟩ := delivers.nextLine quiet took
    rcases items with _ | ⟨error | line, later⟩
    · cases runs_atEndOfInput_iff.mp met with
      | handled _ handler ran => cases handler.symm.trans fitted.stock.endOfInput
      | person said => cases left.unattended _ _ _ _ said
      | finished said unhandled =>
        have success : exitStatus Outcome.stopped.exitCode = 0 := by decide
        exact ⟨rfl, left, congrArg some success⟩
    · cases fetched
    · cases fetched
  | blank took blank =>
    obtain ⟨fetched, left⟩ := delivers.nextLine quiet took
    obtain ⟨later, rfl⟩ := eq_cons_of_given fetched
    exact ⟨rfl, left, by simp [decided?, blank, LoopStep.ending?, LoopStep.result, Ending.ofResult?]⟩
  | @executed taking line _ following result _ took filled ran found =>
    obtain ⟨fetched, left⟩ := delivers.nextLine quiet took
    obtain ⟨later, rfl⟩ := eq_cons_of_given fetched
    refine ⟨rfl, left, ?_⟩
    have ending : (LoopStep.executed taking following line result).ending? =
        Ending.ofResult? result := rfl
    simp only [ending, List.head?_cons, Option.elim_some, decided?, filled, Bool.false_eq_true,
      ↓reduceIte]
    rcases fitted.execute_cases exits ran (written_append_iff.mp written).2 with
      ⟨error, parsed, rfl⟩ | ⟨statement, parsed, ⟨code, asked, rfl⟩ | ⟨unasked, missing | going⟩⟩
    · simp [parsed, Ending.ofResult?, endingStatus]
    · simp [parsed, asked, Ending.ofResult?, Outcome.stopWith, endingStatus]
    · exact absurd missing (found statement)
    · obtain ⟨outcome, rfl, going⟩ := going
      simp [parsed, unasked, Ending.ofResult?, going]
  | @unresolved taking line _ following statement memory reported took filled ran =>
    obtain ⟨fetched, left⟩ := delivers.nextLine quiet took
    obtain ⟨later, rfl⟩ := eq_cons_of_given fetched
    obtain ⟨executed, reports⟩ := written_append_iff.mp (written_append_iff.mp written).2
    have told : reported = .ok () := by
      rw [fitted.stock.console] at reports
      exact reports.reply (List.mem_cons_of_mem _ List.mem_cons_self)
    refine ⟨rfl, left, ?_⟩
    have ending : (LoopStep.unresolved taking following line statement reported).ending? = none := by
      rw [told]
      rfl
    simp only [ending, List.head?_cons, Option.elim_some, decided?, filled, Bool.false_eq_true,
      ↓reduceIte]
    rcases fitted.execute_cases exits ran executed with
      ⟨error, parsed, same⟩ | ⟨other, parsed, ⟨_, _, impossible⟩ | ⟨unasked, _⟩⟩
    · cases same
      obtain ⟨_, impossible⟩ := WordRule.parse_error parsed
      cases impossible
    · cases impossible
    · simp [parsed, unasked]

theorem turns_decide (fitted : shell.IsFitted rule)
    (exits : shell.commands.contains Builtin.exit.name = true)
    (took : shell.Turns before steps ending after) (delivers : before.input.Delivers items)
    (written : Written (steps.flatMap (LoopStep.exchanges shell.console)))
    (enough : ending = .unfinished → steps.length = items.length + 1) :
    steps.map LoopStep.fetched = taken rule items ∧
      endingStatus ending = (items.findSome? (decided? rule)).getD 0 := by
  induction took generalizing items with
  | unfinished => simp at enough
  | last turn ends =>
    rw [List.flatMap_singleton] at written
    obtain ⟨fetched, _, decides⟩ := fitted.turn_decides exits delivers turn written
    rw [ends] at decides
    cases items with
    | nil => exact ⟨by simp [fetched, taken], Option.some.inj decides⟩
    | cons item later =>
      have decided : decided? rule item = some (endingStatus _) := decides.symm
      exact ⟨by simp [fetched, taken, decided], by simp [decided]⟩
  | next turn goesOn rest ih =>
    rw [List.flatMap_cons, written_append_iff] at written
    obtain ⟨fetched, left, decides⟩ := fitted.turn_decides exits delivers turn written.1
    rw [goesOn] at decides
    cases items with
    | nil => cases decides
    | cons item later =>
      have undecided : decided? rule item = none := decides.symm
      obtain ⟨others, status⟩ := ih left written.2 fun cut => by simpa using enough cut
      exact ⟨by simp [fetched, taken, undecided, others], by simp [undecided, status]⟩

end Shell.IsFitted

namespace CommandLine

theorem length_delivered (commands : List String) (input : Bytes) :
    (delivered commands input).length + 1 = turnsFor commands input := by
  simp [delivered, turnsFor, ByteCursor.lines, ByteCursor.rest]

theorem toNat_exitStatus (code : Int32) : ((exitStatus code).toNat : Int) = code.toInt % 256 := by
  have bounded : (code.toInt % 256).toNat < 2 ^ 8 := by omega
  rw [exitStatus, UInt8.toNat_ofNat_of_lt' bounded]
  omega

/-- The exit status of a session, and how its loop has ended. -/
theorem status_of_runSession {session : Session σ}
    (ran : (runSession session turns).Runs exchanges status) :
    ∃ looped said ending after, exchanges = looped ++ said ∧
      (session.run turns).Runs looped (ending, after) ∧ status = endingStatus ending := by
  obtain ⟨looped, ⟨ending, after⟩, said, loop, settled, rfl⟩ := Program.runs_bind_iff.mp ran
  refine ⟨looped, said, ending, after, rfl, loop, ?_⟩
  cases ending with
  | stopped outcome => exact (Program.runs_pure_iff.mp settled).2
  | failed error =>
    obtain ⟨_, _, _, _, settled, _⟩ := Program.runs_bind_iff.mp settled
    exact (Program.runs_pure_iff.mp settled).2
  | unfinished => exact (Program.runs_pure_iff.mp settled).2

/-- The exit status of the command line, when the settings are valid and name no history file, the log
can be opened, and no write is refused. It is decided by the first of the delivered items that is not
text, that is not blank and cannot be split, or that asks to exit, and the loop is given no item after
that one. If there is none, the status is zero. Of an exit code, the last eight bits are left. -/
theorem exit_status_is_decided (words : List String) (input : Bytes) (options : Options)
    (chosen : Settings) (threshold : Log.Threshold) (asked later : List Exchange) (status : UInt8)
    (given : read words = .ok options)
    (valid : (settings options).Runs asked (.ok (chosen, threshold)))
    (unsaved : chosen.history.file = none)
    (ran : (run words input).Runs
      (asked ++ ⟨.startLog threshold chosen.logging.file, .ok ()⟩ :: later) status)
    (written : Written later) :
    status = ((delivered options.commands input).findSome? (decided? chosen.parser)).getD 0 ∧
    (∃ made looped said steps ending after, later = made ++ (looped ++ said) ∧
      (started chosen options.commands (.piped input)).CommandLoop looped steps ending after ∧
      steps.map LoopStep.fetched = taken chosen.parser (delivered options.commands input)) ∧
    ∀ code : Int32, ((exitStatus code).toNat : Int) = code.toInt % 256 := by
  rw [run_of_read given] at ran
  obtain ⟨first, ⟨ended, session⟩, rest, setting, onward, opened⟩ := Program.runs_bind_iff.mp ran
  have begun : ∀ error, (StandardInput.piped input).editor? ≠ some (.error error) := nofun
  obtain ⟨rfl, rfl, made, rfl⟩ := setUp_of_runs valid begun setting opened.symm
  obtain ⟨looped, said, ending, after, rfl, looping, rfl⟩ := status_of_runSession onward
  obtain ⟨steps, loop, enough⟩ := Session.commandLoop_of_runs looping
  have fitted := isFitted_started unsaved options.commands (.piped input)
  obtain ⟨state, took, rfl, _⟩ := loop.turns fitted.stock.preloop fitted.stock.postloop
  have delivers : (started chosen options.commands (.piped input)).input.Delivers
      (delivered options.commands input) := by
    rw [started, Session.input_withStock]
    exact ⟨_, rfl, rfl⟩
  have exits := exits_started chosen options.commands (.piped input)
  obtain ⟨fetched, decides⟩ := fitted.turns_decide exits took delivers
    (written_append_iff.mp (written_append_iff.mp written).2).1
    fun cut => (enough.2 cut).trans (length_delivered options.commands input).symm
  exact ⟨decides, ⟨made, _, said, steps, ending, after, rfl, loop, fetched⟩, toNat_exitStatus⟩

/-- Two lines to run, neither of which decides, and three lines to read, the second of which does. -/
theorem exit_status_is_decided_of_exit :
    let words := ["--posix", "-c", "missing", "-c", "exit too many"]
    let input := Bytes.ofText "exit --help\nexit -1\nexit 3\n"
    let options : Options := { posix := true, commands := ["missing", "exit too many"] }
    let chosen : Settings := { parser := .posix }
    read words = .ok options ∧ (settings options).Runs [] (.ok (chosen, some .warn)) ∧
    chosen.history.file = none ∧
    ∃ later, (run words input).Runs
        (⟨.startLog (some .warn) chosen.logging.file, .ok ()⟩ :: later) 255 ∧
      Written later ∧
      ∃ looped steps ending after,
        (started chosen options.commands (.piped input)).CommandLoop looped steps ending after ∧
        steps.filterMap LoopStep.line? = ["missing", "exit too many", "exit --help", "exit -1"] := by
  intro words input options chosen
  have given : read words = .ok options := rfl
  have least : Log.Threshold.ofName? "warn" = some (some .warn) := by decide +kernel
  have valid : (settings options).Runs [] (.ok (chosen, some .warn)) := by
    refine Program.runs_pure_iff.mpr ⟨rfl, ?_⟩
    simp [options, chosen, Options.override, LogSettings.threshold, least, bind, Except.bind, pure,
      Except.pure]
  let answer := fun (asked : Request) (_ : Unit) => (asked.anyAnswer, ())
  have replies : ∀ program : Program UInt8, ∀ exchange ∈ program.exchangesWith answer (),
      exchange = ⟨exchange.1, exchange.1.anyAnswer⟩ := by
    intro program
    induction program with
    | done => exact nofun
    | ask asked next ih =>
      intro exchange member
      rcases List.mem_cons.mp member with rfl | rest
      · rfl
      · exact ih _ exchange rest
  have ran := Program.runs_run answer (run words input) ()
  have first : ((run words input).exchangesWith answer ()).head?.map Sigma.fst =
      some (.startLog (some .warn) none) := by decide +kernel
  have all := replies (run words input)
  generalize (run words input).exchangesWith answer () = exchanges at ran first all
  cases exchanges with
  | nil => cases first
  | cons opened later =>
    obtain rfl : opened = ⟨.startLog (some .warn) none, .ok ()⟩ := by
      obtain ⟨asked, reply⟩ := opened
      obtain rfl : asked = .startLog (some .warn) none := Option.some.inj first
      exact all _ List.mem_cons_self
    have written : Written later := by
      intro channel text error member
      have accepted := all _ (List.mem_cons_of_mem _ member)
      simp [Exchange.refused, Request.anyAnswer] at accepted
    obtain ⟨status, ⟨_, looped, _, steps, ending, after, _, loop, fetched⟩, _⟩ :=
      exit_status_is_decided words input options chosen (some .warn) [] later _ given valid rfl ran
        written
    have decides : ((delivered options.commands input).findSome? (decided? chosen.parser)).getD 0 =
        255 := by decide +kernel
    have lines : (taken chosen.parser (delivered options.commands input)).filterMap
        (·.toOption.join) = ["missing", "exit too many", "exit --help", "exit -1"] := by
      decide +kernel
    refine ⟨given, valid, rfl, later, ?_, written, looped, steps, ending, after, loop, ?_⟩
    · rw [status, decides] at ran
      exact ran
    · rw [← lines, ← fetched, List.filterMap_map]
      exact List.filterMap_congr fun step _ => step.line?_eq

end CommandLine

end LineShell
