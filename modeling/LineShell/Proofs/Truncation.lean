import LineShell.Host
import LineShell.Proofs.Alike
import LineShell.Proofs.Desk
import LineShell.Proofs.FailedWrites
/-!
Output that is cut short. When the normal channel of the first console is full, a session of stock
modules has written as much of its output as there was room for, and fails with that write.
-/

namespace LineShell

variable {σ α : Type}

theorem Sink.write_nil {sink : Sink} (passes : sink.fault ≠ some .stalls) :
    sink.write [] = (.ok (), sink) := by
  obtain ⟨accepted, fault⟩ := sink
  cases fault with
  | none => simp [write]
  | some fault =>
    cases fault with
    | refuses => rfl
    | stalls => exact absurd rfl passes
    | holds room => simp [write]

namespace Console

/-- The console, with room for a number of bytes in all on its normal channel. -/
def capped (capacity : Nat) (console : Console) : Console :=
  { console with current := { console.current with
    out := { console.current.out with fault := some (.holds capacity) } } }

/-- The console when its normal channel has accepted some bytes more. -/
def accept (bytes : Bytes) (console : Console) : Console :=
  { console with current := { console.current with
    out := { console.current.out with accepted := console.current.out.accepted ++ bytes } } }

end Console

namespace Host

/-- The host, with room for a number of bytes in all on the normal channel of its first console. -/
def capped (capacity : Nat) (host : Host) : Host :=
  { host with consoles := host.consoles.modify 0 (·.capped capacity) }

def accept (bytes : Bytes) (host : Host) : Host :=
  { host with consoles := host.consoles.modify 0 (·.accept bytes) }

/-- What a channel of the first console has accepted since the console was last redirected. -/
def accepted (host : Host) (channel : Channel) : Bytes :=
  host.consoles[0]?.elim [] fun console =>
    match channel with
    | .out => console.current.out.accepted
    | .err => console.current.err.accepted

/-- There is a first console, and its normal channel has no fault. -/
def Sound (host : Host) : Prop :=
  ∃ console others, host.consoles = console :: others ∧ console.current.out.fault = none

variable {host : Host} {capacity : Nat}

@[simp] theorem accepted_capped (host : Host) (capacity : Nat) (channel : Channel) :
    (host.capped capacity).accepted channel = host.accepted channel := by
  obtain ⟨consoles, files, journal⟩ := host
  cases consoles with
  | nil => rfl
  | cons console others => cases channel <;> rfl

@[simp] theorem accepted_err_accept (host : Host) (bytes : Bytes) :
    (host.accept bytes).accepted .err = host.accepted .err := by
  obtain ⟨consoles, files, journal⟩ := host
  cases consoles <;> rfl

theorem write_capped {console : ConsoleId} {channel : Channel} {text : String}
    (other : Request.write console channel text ≠ .write 0 .out text) :
    (host.capped capacity).write console channel text =
      ((host.write console channel text).1, (host.write console channel text).2.capped capacity) := by
  obtain ⟨consoles, files, journal⟩ := host
  cases consoles with
  | nil => rfl
  | cons first others =>
    cases console with
    | zero =>
      cases channel with
      | out => exact absurd rfl other
      | err => rfl
    | succ later =>
      simp only [Host.write, capped, List.modify_zero_cons, List.getElem?_cons_succ]
      cases others[later]? with
      | none => rfl
      | some found => rfl

theorem record_capped (host : Host) (capacity : Nat) (entry : Log.Record) :
    (host.capped capacity).record entry = (host.record entry).capped capacity := by
  have same : (host.capped capacity).journal = host.journal := rfl
  have files : (host.capped capacity).files = host.files := rfl
  unfold Host.record
  rw [same, files]
  split
  · split
    · rfl
    · have aside : Request.write 0 .err entry.line ≠ .write 0 .out entry.line := by simp
      exact congrArg Prod.snd (write_capped aside)
    · split <;> rfl
  · rfl

/-- What is no output to the first console is answered the same with little room. -/
theorem answer_capped {asked : Request} (spares : ∀ text, asked ≠ .write 0 .out text) :
    Host.answer asked (host.capped capacity) =
      ((Host.answer asked host).1, (Host.answer asked host).2.capped capacity) := by
  cases asked with
  | write console channel text => exact write_capped (spares text)
  | load path => rfl
  | save path content =>
    have files : (host.capped capacity).files = host.files := rfl
    simp only [Host.answer, files]
    split <;> rfl
  | record entry => exact congrArg (Prod.mk ()) (record_capped host capacity entry)
  | startLog threshold path =>
    have files : (host.capped capacity).files = host.files := rfl
    cases path with
    | none => rfl
    | some path =>
      simp only [Host.answer, Host.startLog, files]
      split <;> rfl

namespace Sound

theorem accepted_out_accept (sound : host.Sound) (bytes : Bytes) :
    (host.accept bytes).accepted .out = host.accepted .out ++ bytes := by
  obtain ⟨console, others, opened, _⟩ := sound
  rw [Host.accepted, Host.accept, opened, Host.accepted, opened]
  rfl

/-- Output is accepted as a whole by a channel without a fault. -/
theorem answer_output (sound : host.Sound) (text : String) :
    Host.answer (.write 0 .out text) host = (.ok (), host.accept (Bytes.ofText text)) := by
  obtain ⟨⟨⟨⟨taken, fault⟩, err⟩, replaced⟩, others, opened, healthy⟩ := sound
  obtain rfl : fault = none := healthy
  simp only [Host.answer, Host.write, Host.accept, opened]
  rfl

/-- With little room, as much output is accepted as there is room for. -/
theorem answer_output_capped (sound : host.Sound) (capacity : Nat) (text : String) :
    Host.answer (.write 0 .out text) (host.capped capacity) =
      (if (Bytes.ofText text).length ≤ capacity - (host.accepted .out).length then .ok ()
        else .error .shortWrite,
      (host.accept ((Bytes.ofText text).take (capacity - (host.accepted .out).length))).capped
        capacity) := by
  obtain ⟨console, others, opened, healthy⟩ := sound
  simp only [Host.answer, Host.write, Host.accept, Host.capped, Host.accepted, opened]
  rfl

theorem write (sound : host.Sound) (place : ConsoleId) (channel : Channel) (text : String) :
    (host.write place channel text).2.Sound := by
  obtain ⟨console, others, opened, healthy⟩ := sound
  unfold Host.write
  rw [opened]
  cases place with
  | zero =>
    cases channel with
    | out =>
      refine ⟨_, others, rfl, ?_⟩
      simp only [healthy]
    | err => exact ⟨_, others, rfl, healthy⟩
  | succ later =>
    rw [List.getElem?_cons_succ]
    cases others[later]? with
    | none => exact ⟨console, others, opened, healthy⟩
    | some found => exact ⟨console, _, rfl, healthy⟩

theorem record (sound : host.Sound) (entry : Log.Record) : (host.record entry).Sound := by
  unfold Host.record
  split
  · split
    · exact sound
    · exact sound.write 0 .err entry.line
    · split
      · exact sound
      · exact sound
  · exact sound

theorem answer (sound : host.Sound) (asked : Request) : (Host.answer asked host).2.Sound := by
  cases asked with
  | write place channel text => exact sound.write place channel text
  | load path => exact sound
  | save path content =>
    simp only [Host.answer]
    split <;> exact sound
  | record entry => exact sound.record entry
  | startLog threshold path =>
    simp only [Host.answer, Host.startLog]
    split
    · exact sound
    · split <;> exact sound

end Sound

theorem accepted_write (host : Host) (place : ConsoleId) (aside : Channel) (text : String)
    (channel : Channel) :
    host.accepted channel <+: (host.write place aside text).2.accepted channel := by
  obtain ⟨consoles, files, journal⟩ := host
  cases consoles with
  | nil => exact List.prefix_rfl
  | cons first others =>
    cases place with
    | zero =>
      cases aside with
      | out =>
        obtain ⟨taken, _, more⟩ := first.current.out.accepted_write (Bytes.ofText text)
        cases channel with
        | out => exact ⟨taken, more.symm⟩
        | err => exact List.prefix_rfl
      | err =>
        obtain ⟨taken, _, more⟩ := first.current.err.accepted_write (Bytes.ofText text)
        cases channel with
        | out => exact List.prefix_rfl
        | err => exact ⟨taken, more.symm⟩
    | succ later =>
      simp only [Host.write, List.getElem?_cons_succ]
      cases others[later]? with
      | none => exact List.prefix_rfl
      | some found => exact List.prefix_rfl

theorem accepted_answer (host : Host) (asked : Request) (channel : Channel) :
    host.accepted channel <+: (Host.answer asked host).2.accepted channel := by
  cases asked with
  | write place aside text => exact accepted_write host place aside text channel
  | load path => exact List.prefix_rfl
  | save path content =>
    simp only [Host.answer]
    split <;> exact List.prefix_rfl
  | record entry =>
    simp only [Host.answer, Host.record]
    split
    · split
      · exact List.prefix_rfl
      · exact accepted_write host 0 .err entry.line channel
      · split <;> exact List.prefix_rfl
    · exact List.prefix_rfl
  | startLog threshold path =>
    simp only [Host.answer, Host.startLog]
    split
    · exact List.prefix_rfl
    · split <;> exact List.prefix_rfl

theorem accepted_out_answer {asked : Request} (spares : ∀ text, asked ≠ .write 0 .out text) :
    (Host.answer asked host).2.accepted .out = host.accepted .out := by
  have aside : ∀ place channel text, Request.write place channel text ≠ .write 0 .out text →
      (host.write place channel text).2.accepted .out = host.accepted .out := by
    intro place channel text other
    obtain ⟨consoles, files, journal⟩ := host
    cases consoles with
    | nil => rfl
    | cons first others =>
      cases place with
      | zero =>
        cases channel with
        | out => exact absurd rfl other
        | err => rfl
      | succ later =>
        simp only [Host.write, List.getElem?_cons_succ]
        cases others[later]? with
        | none => rfl
        | some found => rfl
  cases asked with
  | write place channel text => exact aside place channel text (spares text)
  | load path => rfl
  | save path content =>
    simp only [Host.answer]
    split <;> rfl
  | record entry =>
    simp only [Host.answer, Host.record]
    split
    · split
      · rfl
      · exact aside 0 .err entry.line (by simp)
      · split <;> rfl
    · rfl
  | startLog threshold path =>
    simp only [Host.answer, Host.startLog]
    split
    · rfl
    · split <;> rfl

theorem Sound.answer_of_room {asked : Request} (sound : host.Sound)
    (room : ((Host.answer asked host).2.accepted .out).length ≤ capacity) :
    Host.answer asked (host.capped capacity) =
      ((Host.answer asked host).1, (Host.answer asked host).2.capped capacity) := by
  by_cases output : ∃ text, asked = .write 0 .out text
  · obtain ⟨text, rfl⟩ := output
    rw [sound.answer_output, sound.accepted_out_accept, List.length_append] at room
    have fits : (Bytes.ofText text).length ≤ capacity - (host.accepted .out).length := by omega
    rw [sound.answer_output_capped, if_pos fits, List.take_of_length_le fits, sound.answer_output]
  · exact answer_capped fun text same => output ⟨text, same⟩

theorem accepted_runOn (program : Program α) (host : Host) (channel : Channel) :
    host.accepted channel <+: (program.runOn host).2.accepted channel := by
  induction program generalizing host with
  | done value => exact List.prefix_rfl
  | ask asked next ih => exact (accepted_answer host asked channel).trans (ih _ _)

end Host

namespace Program

variable {host : Host} {capacity : Nat}

theorem runOn_ask (asked : Request) (next : asked.Answer → Program α) (host : Host) :
    (ask asked next).runOn host = (next (Host.answer asked host).1).runOn (Host.answer asked host).2 :=
  rfl

theorem exchangesWith_ask {asked : Request} {next : asked.Answer → Program α} {reply : asked.Answer}
    {after : Host} (given : Host.answer asked host = (reply, after)) :
    (ask asked next).exchangesWith Host.answer host =
      ⟨asked, reply⟩ :: (next reply).exchangesWith Host.answer after := by
  simp only [exchangesWith, given]

/-- Output for which there is room is written as if there were no limit. -/
theorem runOn_capped (program : Program α) (sound : host.Sound)
    (room : ((program.runOn host).2.accepted .out).length ≤ capacity) :
    program.runOn (host.capped capacity) =
      ((program.runOn host).1, (program.runOn host).2.capped capacity) := by
  induction program generalizing host with
  | done value => rfl
  | ask asked next ih =>
    rw [runOn_ask] at room
    have grown := Host.accepted_runOn (next (Host.answer asked host).1) (Host.answer asked host).2 .out
    have answered := sound.answer_of_room (Nat.le_trans grown.length_le room)
    have onward := ih (Host.answer asked host).1 (sound.answer asked) room
    rw [runOn_ask, runOn_ask, answered]
    exact onward

/-- What a program asks for up to the output that there is no room for, and the host then. -/
structure CutShort (capacity : Nat) (program : Program α) (host : Host) (common : List Exchange)
    (text : String) (cut : Host) : Prop where
  sound : ∃ rest, program.exchangesWith Host.answer host =
    common ++ ⟨.write 0 .out text, .ok ()⟩ :: rest
  limited : ∃ rest, program.exchangesWith Host.answer (host.capped capacity) =
    common ++ .refused 0 .out text .shortWrite :: rest
  answered : Answered Host.answer (host.capped capacity)
    (common ++ [.refused 0 .out text .shortWrite]) cut
  out : cut.accepted .out = ((program.runOn host).2.accepted .out).take capacity
  err : cut.accepted .err <+: (program.runOn host).2.accepted .err

/-- If there is too little room for the output, the first write that does not fit is refused after
what there is room for. -/
theorem exists_cutShort (program : Program α) (sound : host.Sound)
    (within : (host.accepted .out).length ≤ capacity)
    (full : capacity < ((program.runOn host).2.accepted .out).length) :
    ∃ common text cut, CutShort capacity program host common text cut := by
  induction program generalizing host with
  | done value => exact absurd full (Nat.not_lt.mpr within)
  | ask asked next ih =>
    rw [runOn_ask] at full
    by_cases room : ((Host.answer asked host).2.accepted .out).length ≤ capacity
    · have answered := sound.answer_of_room room
      obtain ⟨common, text, cut, healthy, limited, reached, out, err⟩ :=
        ih (Host.answer asked host).1 (sound.answer asked) room full
      obtain ⟨rest, healthy⟩ := healthy
      obtain ⟨more, limited⟩ := limited
      refine ⟨⟨asked, (Host.answer asked host).1⟩ :: common, text, cut, ⟨rest, ?_⟩, ⟨more, ?_⟩,
        .next answered reached, out, err⟩
      · exact (exchangesWith_ask rfl).trans (congrArg (_ :: ·) healthy)
      · rw [exchangesWith_ask answered, limited, List.cons_append]
    · -- Only output can have grown past the room that there is, so the request is that.
      by_cases output : ∃ text, asked = .write 0 .out text
      · obtain ⟨text, rfl⟩ := output
        have written := sound.answer_output text
        have refused := sound.answer_output_capped capacity text
        have grown := Host.accepted_runOn (next (Host.answer (.write 0 .out text) host).1)
          (Host.answer (.write 0 .out text) host).2
        rw [written] at room full grown
        rw [sound.accepted_out_accept, List.length_append] at room
        have lacking : ¬ (Bytes.ofText text).length ≤ capacity - (host.accepted .out).length := by omega
        rw [if_neg lacking] at refused
        refine ⟨[], text, _, ⟨_, exchangesWith_ask written⟩, ⟨_, exchangesWith_ask refused⟩,
          .next refused .none, ?_, ?_⟩
        · obtain ⟨tail, whole⟩ := grown .out
          rw [sound.accepted_out_accept] at whole
          rw [runOn_ask, written, ← whole, Host.accepted_capped, sound.accepted_out_accept,
            List.append_assoc, List.take_append, List.take_of_length_le within,
            List.take_append_of_le_length (by omega)]
        · rw [runOn_ask, written, Host.accepted_capped, Host.accepted_err_accept]
          have kept := grown .err
          rwa [Host.accepted_err_accept] at kept
      · have same : (Host.answer asked host).2.accepted .out = host.accepted .out :=
          Host.accepted_out_answer fun text same => output ⟨text, same⟩
        exact absurd (same ▸ within) room

end Program

theorem Shell.isStock_words (rule : WordRule) : Shell.IsStock ({ parser := .words rule } : Shell σ) where
  parser := ⟨rule, rfl⟩
  commands := nofun
  preloop := rfl
  postloop := rfl
  postparse := nofun
  postexecute := nofun
  console := rfl
  renderer := rfl
  endOfInput := rfl

namespace Session

variable {session : Session σ} {host : Host} {turns capacity : Nat}

/-- With too little room for its output, a session of stock modules ends with the line whose output
does not fit. The lines up to it are the first of those that it takes when there is room. -/
structure CutOff (session : Session σ) (turns capacity : Nat) (host : Host) : Prop where
  failed : ((session.run turns).runOn (host.capped capacity)).1.1 =
    .failed (.command (.device .shortWrite))
  out : ((session.run turns).runOn (host.capped capacity)).2.accepted .out =
    (((session.run turns).runOn host).2.accepted .out).take capacity
  err : ((session.run turns).runOn (host.capped capacity)).2.accepted .err <+:
    ((session.run turns).runOn host).2.accepted .err
  lines : ∃ earlier final line steps,
    session.CommandLoop ((session.run turns).exchangesWith Host.answer (host.capped capacity))
      (earlier ++ [final]) (.failed (.command (.device .shortWrite)))
      ((session.run turns).runOn (host.capped capacity)).1.2 ∧
    final.line? = some line ∧ final.result = .error (.command (.device .shortWrite)) ∧
    session.CommandLoop ((session.run turns).exchangesWith Host.answer host) steps
      ((session.run turns).runOn host).1.1 ((session.run turns).runOn host).1.2 ∧
    (earlier ++ [final]).filterMap LoopStep.line? <+: steps.filterMap LoopStep.line?

theorem cutOff_of_full (stock : session.shell.IsStock) (quiet : session.input.source.Quiet)
    (sound : host.Sound) (within : (host.accepted .out).length ≤ capacity)
    (full : capacity < (((session.run turns).runOn host).2.accepted .out).length) :
    session.CutOff turns capacity host := by
  obtain ⟨common, text, cut, healthy, limited, answered, out, err⟩ :=
    (session.run turns).exists_cutShort sound within full
  obtain ⟨rest, healthy⟩ := healthy
  obtain ⟨more, limited⟩ := limited
  have ran := Program.runs_run_pair Host.answer (session.run turns) host
  have short := Program.runs_run_pair Host.answer (session.run turns) (host.capped capacity)
  obtain ⟨steps, looped, _⟩ := commandLoop_of_runs ran
  obtain ⟨others, ended, _⟩ := commandLoop_of_runs short
  obtain ⟨_, took, asked, _⟩ := looped.turns stock.preloop stock.postloop
  obtain ⟨_, stopped, whole, _⟩ := ended.turns stock.preloop stock.postloop
  obtain ⟨earlier, final, line, last, rfl, rfl, rfl, differ, taken, result, failed⟩ :=
    stock.ended_of_refused quiet stopped (whole.symm.trans limited)
  -- Nothing is asked for after the refused write, so the run is the one that was cut short.
  have reached : ((session.run turns).runOn (host.capped capacity)).2 = cut :=
    congrArg Prod.snd (Program.Runs.run_eq (limited ▸ short) answered).1
  refine ⟨failed, ?_, ?_, earlier, final, line, steps, failed ▸ ended, taken, result, looped, ?_⟩
  · rw [reached, out]
  · rw [reached]
    exact err
  · exact stock.lines_of_common quiet stopped took differ (asked.symm.trans healthy) (by simp)

/-- On a first console whose normal channel has room for a number of bytes in all, a session of stock
modules writes that much of the output that it has on a console without a fault. If all of it fits,
nothing else is different. If it does not, the session fails with the write that did not fit, takes no
line after it, and has written the beginning of the error output. None of the shell's own commands
swallows a failed write, and an empty write fails only where output cannot be passed on. -/
theorem output_faults_truncate {rule : WordRule} {modules : List (Module σ)}
    {base fresh : Session σ} {console : Console} {others : List Console}
    (start : base.shell = { parser := .words rule })
    (bring : ∀ module ∈ modules, module.IsStock)
    (loaded : (modules.forM loadModule).Runs base asked (.ok ⟨⟩) fresh)
    (quiet : base.input.source.Quiet) (opened : host.consoles = console :: others)
    (healthy : console.current.out = {}) (turns capacity : Nat) :
    let sound := (fresh.run turns).runOn host
    let limited := (fresh.run turns).runOn (host.capped capacity)
    limited.2.accepted .out = (sound.2.accepted .out).take capacity ∧
    ((sound.2.accepted .out).length ≤ capacity →
      limited.1 = sound.1 ∧ limited.2.accepted .err = sound.2.accepted .err) ∧
    (capacity < (sound.2.accepted .out).length → fresh.CutOff turns capacity host) ∧
    (ShellError.command (.device .shortWrite)).message = "failed to write whole buffer" ∧
    (∀ (builtin : Builtin) (place : ConsoleId) (words : List String) (broken : ConsoleId)
      (channel : Channel), (builtin.run place words : Action Failure (Memory σ) Outcome).Heeds
        broken channel .device) ∧
    ∀ sink : Sink, sink.fault ≠ some .stalls → sink.write [] = (.ok (), sink) := by
  intro sound limited
  obtain ⟨stock, input⟩ := isStock_of_modules bring (start ▸ Shell.isStock_words rule) loaded
  have silent : fresh.input.source.Quiet := input ▸ quiet
  have faultless : host.Sound := ⟨console, others, opened, by rw [healthy]⟩
  have within : (host.accepted .out).length ≤ capacity := by
    simp [Host.accepted, opened, healthy]
  have fits : (sound.2.accepted .out).length ≤ capacity →
      limited = (sound.1, sound.2.capped capacity) :=
    (fresh.run turns).runOn_capped faultless
  have full : capacity < (sound.2.accepted .out).length → fresh.CutOff turns capacity host :=
    cutOff_of_full stock silent faultless within
  refine ⟨?out, fun room => ?same, full, rfl, fun builtin place words _ _ =>
    builtin.heeds_run place words, fun _ passes => Sink.write_nil passes⟩
  case out =>
    by_cases room : (sound.2.accepted .out).length ≤ capacity
    · rw [List.take_of_length_le room, fits room, Host.accepted_capped]
    · exact (full (Nat.lt_of_not_le room)).out
  case same =>
    rw [fits room]
    exact ⟨rfl, Host.accepted_capped _ _ _⟩

/-- Three bytes of a line of six are accepted, and the session fails. -/
theorem output_faults_truncate_of_echo :
    let base : Session Unit := {
      shell := { parser := .words .simple }
      input := { queue := ["echo hello", "exit"] }
      memory := { client := () } }
    let modules : List (Module Unit) := [.echo, .exit]
    ∃ asked fresh, (modules.forM loadModule).Runs base asked (.ok ⟨⟩) fresh ∧
      (∀ module ∈ modules, module.IsStock) ∧ base.input.source.Quiet ∧
      ((fresh.run 2).runOn {}).2.accepted .out = Bytes.ofText "hello\n" ∧
      ((fresh.run 2).runOn (Host.capped 3 {})).2.accepted .out = Bytes.ofText "hel" ∧
      fresh.CutOff 2 3 {} := by
  intro base modules
  have bring : ∀ module ∈ modules, module.IsStock := by
    intro module member
    simp only [modules, List.mem_cons, List.not_mem_nil, or_false] at member
    rcases member with rfl | rfl
    · exact .echo
    · exact .exit
  let host : Host := {}
  let attached := ((modules.forM loadModule).runFrom base).runOn host
  have attaches : (modules.forM loadModule).Runs base _ attached.1.1 attached.1.2 :=
    Program.runs_run_pair Host.answer ((modules.forM loadModule).runFrom base) host
  have loaded : attached.1.1 = .ok ⟨⟩ := rfl
  rw [loaded] at attaches
  have opened : host.consoles = [{}] := rfl
  have whole : ((attached.1.2.run 2).runOn host).2.accepted .out = Bytes.ofText "hello\n" := by
    decide +kernel
  obtain ⟨taken, _, full, _⟩ :=
    output_faults_truncate rfl bring attaches .empty opened rfl 2 3
  rw [whole] at taken full
  refine ⟨_, _, attaches, bring, .empty, whole, ?_, full (by decide +kernel)⟩
  rw [taken]
  decide +kernel

end Session

end LineShell
