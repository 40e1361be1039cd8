import LineShell.Proofs.Feeding
import LineShell.Proofs.Layout
import LineShell.Proofs.Remembering
import LineShell.Proofs.Reports
/-!
Blank lines. Leaving some of them out of the input of a session changes nothing that its loop does but
the number of its turns, unless a client does something of its own while it makes the prompts for them.
They are the lines in which the simple word rule finds no words.
-/

namespace LineShell

variable {ε σ τ α : Type}

/-- The second list is the first without some of the items that may go. -/
inductive LeavesOut (mayGo : α → Prop) : List α → List α → Prop where
  | nil : LeavesOut mayGo [] []
  | kept (rest : LeavesOut mayGo whole part) : LeavesOut mayGo (item :: whole) (item :: part)
  | gone (may : mayGo item) (rest : LeavesOut mayGo whole part) :
      LeavesOut mayGo (item :: whole) part

namespace LeavesOut

variable {mayGo : α → Prop} {whole part : List α}

theorem refl (items : List α) : LeavesOut mayGo items items := by
  induction items with
  | nil => exact .nil
  | cons item later ih => exact .kept ih

theorem append (first : LeavesOut mayGo whole part) (second : LeavesOut mayGo more rest) :
    LeavesOut mayGo (whole ++ more) (part ++ rest) := by
  induction first with
  | nil => exact second
  | kept _ ih => exact .kept ih
  | gone may _ ih => exact .gone may ih

theorem concat (may : mayGo item) (items : List α) : LeavesOut mayGo (items ++ [item]) items := by
  induction items with
  | nil => exact .gone may .nil
  | cons _ _ ih => exact .kept ih

theorem filterMap_eq {read : α → Option β} (leaves : LeavesOut mayGo whole part)
    (blank : ∀ item, mayGo item → read item = none) : whole.filterMap read = part.filterMap read := by
  induction leaves with
  | nil => rfl
  | kept _ ih => simp only [List.filterMap_cons, ih]
  | gone may _ ih => rw [List.filterMap_cons, blank _ may, ih]

end LeavesOut

/-- Lines are taken one after the other up to one that is kept. Those before it are blank. -/
inductive Action.Skims (take : Action ε σ (Option String)) :
    σ → List Exchange → Except ε (Option String) → σ → Prop where
  | now (took : take.Runs before asked ended after) : Skims take before asked ended after
  | past (took : take.Runs before asked (.ok (some line)) middle)
      (blank : Text.isBlankLine line = true) (rest : Skims take middle later ended after) :
      Skims take before (asked ++ later) ended after

def HeldLine.isBlank : Except ε String → Bool
  | .ok line => Text.isBlankLine line
  | .error _ => false

/-- Read as the client does, behind a prompt. -/
def Shell.readWith (shell : Shell σ)
    (next : String → ConsoleId → Action ShellError σ (Option String)) :
    Action ShellError σ (Option String) := do
  next (← .ofTotal shell.renderPrompt) shell.console

/-- To the shell, the second source is the first without some of its blank lines. From a buffer that
nobody types into they can go if prompts are made quietly. A source of the client's leaves lines out by
going on to the next one, which is all that is seen of it behind the prompts. -/
inductive Source.Thinned (shell : Shell σ) : Source σ → Source σ → Prop where
  | same (source : Source σ) : Thinned shell source source
  | buffered {whole part : ByteCursor} (quiet : shell.PromptsQuietly)
      (lines : LeavesOut (HeldLine.isBlank · = true) whole.lines part.lines) :
      Thinned shell (.buffered false whole) (.buffered false part)
  | custom {asks : StateT σ Program Bool}
      {next other : String → ConsoleId → Action ShellError σ (Option String)}
      (skims : ∀ before asked ended after, (shell.readWith other).Runs before asked ended after →
        (shell.readWith next).Skims before asked ended after) :
      Thinned shell (.custom asks next) (.custom asks other)

/-- The second input is the first without some of the blank lines of its queue and its source. -/
structure Input.Thinned (shell : Shell σ) (whole part : Input σ) : Prop where
  queue : LeavesOut (Text.isBlankLine · = true) whole.queue part.queue
  source : whole.source.Thinned shell part.source

theorem Source.Thinned.isInteractive {shell : Shell σ} {whole part : Source σ}
    (thinned : whole.Thinned shell part) : part.isInteractive = whole.isInteractive := by
  cases thinned <;> rfl

namespace Source

theorem nextLine_of_lines_nil {cursor : ByteCursor} (exhausted : cursor.lines = []) :
    (nextLine cursor).1 = .ok none ∧ (nextLine cursor).2.lines = [] := by
  by_cases empty : cursor.rest = []
  · obtain ⟨given, left⟩ := nextLine_of_rest_eq_nil empty
    exact ⟨given, ByteCursor.lines_of_rest_eq_nil left⟩
  · rw [ByteCursor.lines_of_rest_ne_nil empty] at exhausted
    cases exhausted

theorem nextLine_of_lines_cons {cursor : ByteCursor} (first : cursor.lines = line :: later) :
    (nextLine cursor).1 = line.map some ∧ (nextLine cursor).2.lines = later := by
  by_cases empty : cursor.rest = []
  · rw [ByteCursor.lines_of_rest_eq_nil empty] at first
    cases first
  · rw [ByteCursor.lines_of_rest_ne_nil empty] at first
    obtain ⟨rfl, rfl⟩ := List.cons.inj first
    exact ⟨nextLine_of_rest_ne_nil empty, rfl⟩

end Source

namespace Shell

variable {shell : Shell σ} {memory : Memory σ}

/-- A buffer that nobody types into gives its next line, and asks for nothing. -/
theorem runs_nextLine_piped_iff (quiet : shell.PromptsQuietly) {cursor : ByteCursor}
    {after : LoopState σ} :
    shell.nextLine.Runs ⟨⟨[], .buffered false cursor⟩, memory⟩ taking ended after ↔
      taking = [] ∧ ended = (Source.nextLine cursor).1.mapError .device ∧
        after = ⟨⟨[], .buffered false (Source.nextLine cursor).2⟩, memory⟩ := by
  rw [runs_nextLine_live_iff]
  simp only [quiet.lineRead_iff]
  constructor
  · rintro ⟨_, _, ⟨_, _, read⟩, rfl⟩
    obtain ⟨rfl, rfl, same⟩ := Program.runs_pure_pair_iff.mp read
    cases same
    exact ⟨rfl, rfl, rfl⟩
  · rintro ⟨rfl, rfl, rfl⟩
    obtain ⟨prompt, renders⟩ := quiet memory.client
    exact ⟨_, memory.client, ⟨prompt, renders, .done _⟩, rfl⟩

theorem runs_nextLine_custom_iff {next : String → ConsoleId → Action ShellError σ (Option String)}
    {after : LoopState σ} :
    shell.nextLine.Runs ⟨⟨[], .custom interactive next⟩, memory⟩ taking ended after ↔
      ∃ client, (shell.readWith next).Runs memory.client taking ended client ∧
        after = ⟨⟨[], .custom interactive next⟩, { memory with client }⟩ := by
  rw [runs_nextLine_live_iff]
  constructor
  · rintro ⟨later, client, ⟨rendered, read⟩, rfl⟩
    cases Source.reads_of_runs read with
    | custom ran =>
      exact ⟨client, Action.Runs.bind (Action.runs_ofTotal_iff.mpr ⟨_, rendered, rfl⟩) ran, rfl⟩
  · rintro ⟨client, ran, rfl⟩
    rcases Action.runs_bind_iff.mp ran with
      ⟨_, failed, _⟩ | ⟨asked, prompt, prompted, reading, made, read, rfl⟩
    · obtain ⟨_, _, impossible⟩ := Action.runs_ofTotal_iff.mp failed
      cases impossible
    · obtain ⟨_, rendered, same⟩ := Action.runs_ofTotal_iff.mp made
      cases same
      exact ⟨_, client, .intro rendered (read.bind_pure rfl), rfl⟩

theorem skims_custom {next : String → ConsoleId → Action ShellError σ (Option String)}
    (skims : (shell.readWith next).Skims client taking ended changed) :
    ∀ history, shell.nextLine.Skims ⟨⟨[], .custom interactive next⟩, ⟨history, client⟩⟩ taking ended
      ⟨⟨[], .custom interactive next⟩, ⟨history, changed⟩⟩ := by
  intro history
  induction skims with
  | now took => exact .now (runs_nextLine_custom_iff.mpr ⟨_, took, rfl⟩)
  | past took blank rest ih => exact .past (runs_nextLine_custom_iff.mpr ⟨_, took, rfl⟩) blank ih

theorem skims_buffered (quiet : shell.PromptsQuietly) {whole part : ByteCursor}
    (lines : LeavesOut (HeldLine.isBlank · = true) whole.lines part.lines) :
    ∃ left : ByteCursor, shell.nextLine.Skims ⟨⟨[], .buffered false whole⟩, memory⟩ []
        ((Source.nextLine part).1.mapError .device) ⟨⟨[], .buffered false left⟩, memory⟩ ∧
      LeavesOut (HeldLine.isBlank · = true) left.lines (Source.nextLine part).2.lines := by
  have takes : ∀ cursor : ByteCursor, shell.nextLine.Runs ⟨⟨[], .buffered false cursor⟩, memory⟩ []
      ((Source.nextLine cursor).1.mapError .device)
      ⟨⟨[], .buffered false (Source.nextLine cursor).2⟩, memory⟩ :=
    fun cursor => (runs_nextLine_piped_iff quiet).mpr ⟨rfl, rfl, rfl⟩
  generalize held : whole.lines = lines at lines
  generalize kept : part.lines = others at lines
  induction lines generalizing whole with
  | nil =>
    obtain ⟨given, later⟩ := Source.nextLine_of_lines_nil held
    obtain ⟨alike, none⟩ := Source.nextLine_of_lines_nil kept
    refine ⟨(Source.nextLine whole).2, ?_, ?_⟩
    · rw [alike, ← given]
      exact .now (takes whole)
    · rw [later, none]
      exact .nil
  | kept rest ih =>
    obtain ⟨given, later⟩ := Source.nextLine_of_lines_cons held
    obtain ⟨alike, more⟩ := Source.nextLine_of_lines_cons kept
    refine ⟨(Source.nextLine whole).2, ?_, ?_⟩
    · rw [alike, ← given]
      exact .now (takes whole)
    · rw [later, more]
      exact rest
  | @gone item _ _ may rest ih =>
    obtain ⟨given, later⟩ := Source.nextLine_of_lines_cons held
    obtain ⟨left, skims, leaves⟩ := ih later kept
    cases item with
    | error error => cases may
    | ok line =>
      have passed := takes whole
      rw [given] at passed
      exact ⟨left, .past passed may skims, leaves⟩

end Shell

theorem Source.Thinned.nextLine {shell : Shell σ} {memory : Memory σ} {whole part : Source σ}
    {after : LoopState σ} (thinned : whole.Thinned shell part)
    (took : shell.nextLine.Runs ⟨⟨[], part⟩, memory⟩ taking ended after) :
    ∃ left rest : Source σ, after = ⟨⟨[], rest⟩, after.memory⟩ ∧ left.Thinned shell rest ∧
      shell.nextLine.Skims ⟨⟨[], whole⟩, memory⟩ taking ended ⟨⟨[], left⟩, after.memory⟩ := by
  cases thinned with
  | same =>
    obtain ⟨later, client, _, rfl⟩ := Shell.runs_nextLine_live_iff.mp took
    exact ⟨later, later, rfl, .same later, .now took⟩
  | buffered quiet lines =>
    obtain ⟨rfl, rfl, rfl⟩ := (Shell.runs_nextLine_piped_iff quiet).mp took
    obtain ⟨left, skims, leaves⟩ := Shell.skims_buffered quiet lines
    exact ⟨_, _, rfl, .buffered quiet leaves, skims⟩
  | custom skims =>
    obtain ⟨client, ran, rfl⟩ := Shell.runs_nextLine_custom_iff.mp took
    have passed := skims _ _ _ _ ran
    exact ⟨_, _, rfl, .custom skims, Shell.skims_custom passed memory.history⟩

theorem Input.Thinned.nextLine {shell : Shell σ} {memory : Memory σ} {whole part : Input σ}
    {after : LoopState σ} (thinned : whole.Thinned shell part)
    (took : shell.nextLine.Runs ⟨part, memory⟩ taking ended after) :
    ∃ left : Input σ, left.Thinned shell after.input ∧
      shell.nextLine.Skims ⟨whole, memory⟩ taking ended ⟨left, after.memory⟩ := by
  obtain ⟨queue, source⟩ := whole
  obtain ⟨others, other⟩ := part
  have sources : source.Thinned shell other := thinned.source
  have queued : LeavesOut (Text.isBlankLine · = true) queue others := thinned.queue
  clear thinned
  induction queued with
  | nil =>
    obtain ⟨left, rest, same, still, skims⟩ := sources.nextLine took
    rw [same]
    exact ⟨⟨[], left⟩, ⟨.nil, still⟩, skims⟩
  | kept rest ih =>
    obtain ⟨rfl, rfl, rfl⟩ := Shell.runs_nextLine_queued_iff.mp took
    exact ⟨⟨_, source⟩, ⟨rest, sources⟩, .now (Shell.runs_nextLine_queued_iff.mpr ⟨rfl, rfl, rfl⟩)⟩
  | gone may rest ih =>
    obtain ⟨left, still, skims⟩ := ih took
    exact ⟨left, still, .past (Shell.runs_nextLine_queued_iff.mpr ⟨rfl, rfl, rfl⟩) may skims⟩

namespace Shell

variable {shell : Shell σ} {before middle after : LoopState σ}

theorem TurnsCalls.append (first : shell.TurnsCalls before front calls .unfinished middle)
    (second : shell.TurnsCalls middle back more ending after) :
    shell.TurnsCalls before (front ++ back) (calls ++ more) ending after := by
  generalize cut : Ending.unfinished = reached at first
  induction first with
  | unfinished => exact second
  | @last _ step _ _ _ turn ends =>
    subst cut
    exact absurd ends (Ending.ofResult?_ne_unfinished _)
  | next turn goesOn rest ih =>
    rw [List.append_assoc]
    exact .next turn goesOn (ih second cut)

theorem turns_of_skims (skims : shell.nextLine.Skims before taking ended after) :
    ∃ blanks asked middle, shell.TurnsCalls before blanks [] .unfinished middle ∧
      shell.nextLine.Runs middle asked ended after ∧
      taking = blanks.flatMap (LoopStep.exchanges shell.console) ++ asked := by
  induction skims with
  | now took => exact ⟨[], _, _, .unfinished, took, rfl⟩
  | @past before asked line middle later ended after took blank rest ih =>
    obtain ⟨blanks, last, reached, turns, taken, rfl⟩ := ih
    refine ⟨.blank asked line :: blanks, last, reached, ?_, taken, ?_⟩
    · exact .next (.blank took blank) rfl turns
    · rw [List.flatMap_cons, List.append_assoc]
      rfl

/-- What is taken from the thinned input is taken from the whole one, after turns for blank lines. -/
theorem takes_of_thinned {whole part : Input σ} {memory : Memory σ} (thinned : whole.Thinned shell part)
    (took : shell.nextLine.Runs ⟨part, memory⟩ taking ended after) :
    ∃ blanks asked middle left, shell.TurnsCalls ⟨whole, memory⟩ blanks [] .unfinished middle ∧
      shell.nextLine.Runs middle asked ended ⟨left, after.memory⟩ ∧ left.Thinned shell after.input ∧
      taking = blanks.flatMap (LoopStep.exchanges shell.console) ++ asked := by
  obtain ⟨left, still, skims⟩ := thinned.nextLine took
  obtain ⟨blanks, asked, middle, turns, taken, same⟩ := turns_of_skims skims
  exact ⟨blanks, asked, middle, left, turns, taken, still, same⟩

/-- A turn on the thinned input is one on the whole input, after turns for blank lines. -/
theorem TurnCalls.thickened {whole part : Input σ} {memory : Memory σ} (thinned : whole.Thinned shell part)
    (turn : shell.TurnCalls ⟨part, memory⟩ step calls after) :
    ∃ blanks again middle left, shell.TurnsCalls ⟨whole, memory⟩ blanks [] .unfinished middle ∧
      shell.TurnCalls middle again calls ⟨left, after.memory⟩ ∧ left.Thinned shell after.input ∧
      again.result = step.result ∧
      step.exchanges shell.console = blanks.flatMap (LoopStep.exchanges shell.console) ++
        again.exchanges shell.console := by
  cases turn with
  | unread took =>
    obtain ⟨blanks, asked, middle, left, turns, taken, still, rfl⟩ := takes_of_thinned thinned took
    exact ⟨blanks, _, middle, left, turns, .unread taken, still, rfl, rfl⟩
  | handled took said handler ran =>
    obtain ⟨blanks, asked, middle, left, turns, taken, still, rfl⟩ := takes_of_thinned thinned took
    have handled := TurnCalls.handled taken (still.source.isInteractive ▸ said) handler ran
    refine ⟨blanks, _, middle, left, turns, handled, still, rfl, ?_⟩
    simp only [LoopStep.exchanges, List.append_assoc]
  | unhandled took handler met =>
    obtain ⟨blanks, asked, middle, left, turns, taken, still, rfl⟩ := takes_of_thinned thinned took
    obtain ⟨again, same⟩ := met.refed still.source.isInteractive.symm
    rw [← same] at still
    refine ⟨blanks, _, middle, left, turns, .unhandled taken handler again, still, rfl, ?_⟩
    simp only [LoopStep.exchanges, List.append_assoc]
  | blank took blank =>
    obtain ⟨blanks, asked, middle, left, turns, taken, still, rfl⟩ := takes_of_thinned thinned took
    exact ⟨blanks, _, middle, left, turns, .blank taken blank, still, rfl, rfl⟩
  | executed took filled ran found =>
    obtain ⟨blanks, asked, middle, left, turns, taken, still, rfl⟩ := takes_of_thinned thinned took
    refine ⟨blanks, _, middle, left, turns, .executed taken filled ran found, still, rfl, ?_⟩
    simp only [LoopStep.exchanges, List.append_assoc]
  | unresolved took filled ran =>
    obtain ⟨blanks, asked, middle, left, turns, taken, still, rfl⟩ := takes_of_thinned thinned took
    refine ⟨blanks, _, middle, left, turns, .unresolved taken filled ran, still, rfl, ?_⟩
    simp only [LoopStep.exchanges, List.append_assoc]

/-- Turns on the thinned input are turns on the whole input, with more of them for blank lines. -/
theorem TurnsCalls.thickened {whole : Input σ} (thinned : whole.Thinned shell before.input)
    (took : shell.TurnsCalls before steps calls ending after) :
    ∃ more left, shell.TurnsCalls ⟨whole, before.memory⟩ more calls ending ⟨left, after.memory⟩ ∧
      left.Thinned shell after.input ∧ steps.length ≤ more.length ∧
      steps.flatMap (LoopStep.exchanges shell.console) =
        more.flatMap (LoopStep.exchanges shell.console) := by
  induction took generalizing whole with
  | unfinished => exact ⟨[], whole, .unfinished, thinned, Nat.le_refl _, rfl⟩
  | last turn ends =>
    obtain ⟨blanks, again, middle, left, turns, turned, still, same, asked⟩ := turn.thickened thinned
    have ended : again.ending? = some _ := (congrArg Ending.ofResult? same).trans ends
    have whole := turns.append (.last turned ended)
    refine ⟨blanks ++ [again], left, whole, still, ?_, ?_⟩
    · simp
    · simp [asked]
  | next turn goesOn rest ih =>
    obtain ⟨blanks, again, middle, left, turns, turned, still, same, asked⟩ := turn.thickened thinned
    obtain ⟨more, last, onward, kept, longer, later⟩ := ih still
    have going : again.ending? = none := (congrArg Ending.ofResult? same).trans goesOn
    have whole := turns.append (.next turned going onward)
    refine ⟨blanks ++ again :: more, last, whole, kept, ?_, ?_⟩
    · simp only [List.length_cons, List.length_append]
      omega
    · simp [asked, later]

end Shell

namespace Session

variable {session after : Session σ} {whole part : Input σ}

/-- A run of the loop on the thinned input is one on the whole input, with more turns. -/
theorem LoopCalls.thickened (thinned : whole.Thinned session.shell part)
    (looped : (session.fed part).LoopCalls exchanges steps calls ending after) :
    ∃ more left,
      (session.fed whole).LoopCalls exchanges more calls ending (session.left ⟨left, after.memory⟩) ∧
      left.Thinned session.shell after.input ∧ steps.length ≤ more.length := by
  cases looped with
  | preloopFailed before => exact ⟨[], whole, .preloopFailed before, thinned, Nat.le_refl _⟩
  | ended before took going =>
    obtain ⟨more, left, again, still, longer, same⟩ := took.thickened thinned
    rw [same]
    exact ⟨more, left, .ended before again going, still, longer⟩
  | closed before took closing =>
    obtain ⟨more, left, again, still, longer, same⟩ := took.thickened thinned
    have hooked : LoopHookCalls .preloop (session.fed whole).shell.hooks.preloop
        (session.fed whole).memory _ _ _ := before
    rw [same]
    exact ⟨more, left, .closed hooked again closing, still, longer⟩

/-- On the same surroundings, the loops of two sessions, each with a number of turns, have the same
exchanges and make the same calls. They end in the same way, with the same memory, and leave the
surroundings the same. -/
structure AgreeOn (answer : (asked : Request) → τ → asked.Answer × τ) (surroundings : τ)
    (first : Session σ) (turns : Nat) (second : Session σ) (more : Nat) : Prop where
  exchanges : (first.run turns).exchangesWith answer surroundings =
    (second.run more).exchangesWith answer surroundings
  calls : ∃ steps others calls,
    first.LoopCalls ((first.run turns).exchangesWith answer surroundings) steps calls
      ((first.run turns).run answer surroundings).1.1
      ((first.run turns).run answer surroundings).1.2 ∧
    second.LoopCalls ((second.run more).exchangesWith answer surroundings) others calls
      ((second.run more).run answer surroundings).1.1
      ((second.run more).run answer surroundings).1.2
  ending : ((first.run turns).run answer surroundings).1.1 =
    ((second.run more).run answer surroundings).1.1
  memory : ((first.run turns).run answer surroundings).1.2.memory =
    ((second.run more).run answer surroundings).1.2.memory
  surroundings : ((first.run turns).run answer surroundings).2 =
    ((second.run more).run answer surroundings).2

variable (answer : (asked : Request) → τ → asked.Answer × τ) (surroundings : τ)

theorem exists_agreeOn (session : Session σ) (thinned : whole.Thinned session.shell part) (turns : Nat) :
    ∃ more, turns ≤ more ∧
      AgreeOn answer surroundings (session.fed whole) more (session.fed part) turns := by
  have ran := Program.runs_run_pair answer ((session.fed part).run turns) surroundings
  have answered := Program.answered_run answer ((session.fed part).run turns) surroundings
  obtain ⟨steps, calls, looped, bounded, cut⟩ := runs_run_iff_calls.mp ran
  obtain ⟨others, left, again, _, longer⟩ := looped.thickened thinned
  -- A run that is cut short is cut as late as it can be with blank lines put in.
  have enough : Shell.Enough (max turns others.length) others
      (((session.fed part).run turns).run answer surroundings).1.1 := by
    refine ⟨Nat.le_max_right _ _, fun unfinished => ?_⟩
    have long := cut unfinished
    omega
  obtain ⟨ended, asked⟩ := (runs_run_iff_calls.mpr ⟨others, calls, again, enough⟩).run_eq answered
  refine ⟨max turns others.length, Nat.le_max_left _ _, ?_⟩
  constructor
  · exact asked
  · rw [ended, asked]
    exact ⟨others, steps, calls, again, looped⟩
  · rw [ended]
  · rw [ended]
    rfl
  · rw [ended]

variable {answer surroundings}

/-- A run that has ended stays as it is with more turns. -/
theorem run_of_le {turns more : Nat} (le : turns ≤ more)
    (ended : ((session.run turns).run answer surroundings).1.1 ≠ .unfinished) :
    (session.run more).run answer surroundings = (session.run turns).run answer surroundings ∧
      (session.run more).exchangesWith answer surroundings =
        (session.run turns).exchangesWith answer surroundings := by
  have ran := Program.runs_run_pair answer (session.run turns) surroundings
  have answered := Program.answered_run answer (session.run turns) surroundings
  obtain ⟨steps, looped, bounded, _⟩ := runs_run_iff.mp ran
  have enough : Shell.Enough more steps ((session.run turns).run answer surroundings).1.1 :=
    ⟨Nat.le_trans bounded le, fun unfinished => absurd unfinished ended⟩
  exact (runs_run_iff.mpr ⟨steps, looped, enough⟩).run_eq answered

theorem agreeOn_of_ended (session : Session σ) (thinned : whole.Thinned session.shell part) {turns : Nat}
    (ended : (((session.fed whole).run turns).run answer surroundings).1.1 ≠ .unfinished) :
    AgreeOn answer surroundings (session.fed whole) turns (session.fed part) turns := by
  obtain ⟨more, longer, agree⟩ := exists_agreeOn answer surroundings session thinned turns
  obtain ⟨same, asked⟩ := run_of_le longer ended
  obtain ⟨exchanges, calls, ending, memory, left⟩ := agree
  rw [same, asked] at calls
  rw [asked] at exchanges
  rw [same] at ending memory left
  exact ⟨exchanges, calls, ending, memory, left⟩

end Session

namespace Words.Simple

theorem split_eq_nil_iff {line : String} : split line = .ok [] ↔ Text.isBlankLine line = true := by
  rw [split_eq_ok_iff, Text.isBlankLine, List.all_eq_true]
  constructor
  · rintro ⟨layout, whole, wordless⟩ c member
    have none : layout.words = [] := List.map_eq_nil_iff.mp wordless
    rw [← whole, Layout.text, none, List.flatMap_nil, List.append_nil] at member
    exact layout.blank c member
  · intro blank
    exact ⟨⟨line.toList, [], blank, by simp⟩, by simp [Layout.text], rfl⟩

theorem ne_empty_of_mem {line word : String} {argv : List String} (accepted : split line = .ok argv)
    (member : word ∈ argv) : word ≠ "" := by
  obtain ⟨layout, _, rfl⟩ := split_eq_ok_iff.mp accepted
  obtain ⟨spaced, _, rfl⟩ := List.mem_map.mp member
  intro empty
  have letters := congrArg String.toList empty
  rw [String.toList_ofList] at letters
  exact spaced.isWord.nonempty letters

end Words.Simple

namespace WordRule

theorem parse_simple_wordless_iff (line : String) :
    (∃ statement, simple.parse line = .ok statement ∧ statement.argv = []) ↔
      Text.isBlankLine line = true := by
  rw [← Words.Simple.split_eq_nil_iff]
  constructor
  · intro ⟨statement, parsed, wordless⟩
    rw [← wordless]
    exact (parse_simple_ok_iff.mp parsed).1
  · intro wordless
    exact ⟨⟨line, []⟩, parse_simple_ok_iff.mpr ⟨wordless, rfl⟩, rfl⟩

theorem command_ne_empty {line : String} {statement : Statement}
    (filled : Text.isBlankLine line = false) (parsed : simple.parse line = .ok statement) :
    statement.command ≠ "" := by
  obtain ⟨words, _⟩ := parse_simple_ok_iff.mp parsed
  cases first : statement.argv with
  | nil =>
    rw [first] at words
    have blank := Words.Simple.split_eq_nil_iff.mp words
    rw [filled] at blank
    cases blank
  | cons word later =>
    rw [first] at words
    rw [Statement.command, first]
    exact Words.Simple.ne_empty_of_mem words List.mem_cons_self

end WordRule

theorem StatementHooksRun.eq_of_recording {hooks : List (Named (StatementHook σ))}
    (handed : StatementHooksRun hooks statement before asked (.ok final) after)
    (recording : ∀ hook ∈ hooks, hook.action = .recordHistory) : final = statement := by
  unfold StatementHooksRun at handed
  generalize finished : Except.ok final = ended at handed
  induction handed with
  | done => exact Except.ok.inj finished
  | failed ran => cases finished
  | next ran rest ih =>
    have first := recording _ List.mem_cons_self
    simp only [first, StatementHook.run] at ran
    have handedOn := Action.runs_modify_bind_iff.mp ran
    obtain ⟨_, same, _⟩ := Action.runs_pure_iff.mp handedOn
    obtain rfl := Except.ok.inj same
    exact ih (fun hook member => recording hook (List.mem_cons_of_mem _ member)) finished

namespace Session

/-- With the simple word rule and without hooks that change statements, no empty name is reported. -/
theorem command_ne_empty_of_reported {session after : Session σ}
    (simple : session.shell.parser = .words .simple)
    (recording : ∀ hook ∈ session.shell.hooks.postparse, hook.action = .recordHistory)
    (looped : session.CommandLoop exchanges steps ending after) (member : step ∈ steps)
    (report : step.report? = some (statement, reported)) : statement.command ≠ "" := by
  obtain ⟨front, back, rfl⟩ := List.append_of_mem member
  obtain ⟨_, _, reached, left, _, _, turn, _⟩ := looped.at_step
  have parses : session.shell.parser.FailsOnlyToParse := simple ▸ Parser.words_failsOnlyToParse .simple
  cases turn with
  | unread | endOfInput | blank | executed => cases report
  | unresolved took filled ran =>
    cases report
    obtain ⟨parsed, handed⟩ := ((Shell.runs_notFound_iff parses).mp ran).prepared
    obtain rfl := handed.eq_of_recording recording
    rw [simple] at parsed
    obtain ⟨_, accepted, _⟩ := Parser.runs_words_iff.mp parsed
    exact WordRule.command_ne_empty filled accepted.symm

/-- Blank lines are invisible. A session whose queue lacks some of them makes the same calls, asks for
the same, and ends in the same way with the same memory, on any surroundings; only turns are saved. So
does one whose source lacks some of them, if it makes its prompts quietly.
A line is blank just when the simple word rule finds no words in it, so under that rule no empty name
is reported, unless a hook makes one. -/
theorem run_ignores_blank_lines (session : Session σ) (thinned : whole.Thinned session.shell part) :
    (∀ {τ : Type} (answer : (asked : Request) → τ → asked.Answer × τ) (surroundings : τ) turns,
      (∃ more, turns ≤ more ∧
        AgreeOn answer surroundings (session.fed whole) more (session.fed part) turns) ∧
      ((((session.fed whole).run turns).run answer surroundings).1.1 ≠ .unfinished →
        AgreeOn answer surroundings (session.fed whole) turns (session.fed part) turns)) ∧
    (∀ line, (∃ statement, WordRule.simple.parse line = .ok statement ∧ statement.argv = []) ↔
      Text.isBlankLine line = true) ∧
    (session.shell.parser = .words .simple →
      (∀ hook ∈ session.shell.hooks.postparse, hook.action = .recordHistory) →
      ∀ exchanges steps ending after, session.CommandLoop exchanges steps ending after →
        ∀ step ∈ steps, ∀ statement reported, step.report? = some (statement, reported) →
          statement.command ≠ "") := by
  refine ⟨?agree, WordRule.parse_simple_wordless_iff, ?named⟩
  case agree =>
    intro τ answer surroundings turns
    constructor
    · exact exists_agreeOn answer surroundings session thinned turns
    · intro ended
      exact agreeOn_of_ended session thinned ended
  case named =>
    intro simple recording exchanges steps ending after looped step member statement reported report
    exact command_ne_empty_of_reported simple recording looped member report

/-- Lines around the one that ends a session, and only that one. -/
theorem run_ignores_blank_lines_of_exit :
    let session : Session Unit := {
      shell := { commands := NameTable.insert ∅ "exit" (.builtin .exit 0) }
      memory := { client := () } }
    let whole : Input Unit := {
      queue := ["", "\t"], source := .buffered false (.ofLines [" ", "exit", ""]) }
    let part : Input Unit := { source := .buffered false (.ofLines ["exit"]) }
    whole.Thinned session.shell part ∧
      (((session.fed whole).run 4).runOn {}).1.1 = .stopped (.stopWith 0) ∧
      AgreeOn Host.answer {} (session.fed whole) 4 (session.fed part) 4 := by
  intro session whole part
  have plain : ∀ line ∈ [" ", "exit", ""], Lines.Plain line := by
    intro line member
    simp only [List.mem_cons, List.not_mem_nil, or_false] at member
    rcases member with rfl | rfl | rfl <;> exact ⟨by decide, by decide⟩
  have alone : ∀ line ∈ ["exit"], Lines.Plain line :=
    fun line member => plain line (by simpa using .inr (.inl (List.mem_singleton.mp member)))
  have lines : LeavesOut (HeldLine.isBlank · = true)
      (ByteCursor.ofLines [" ", "exit", ""]).lines (ByteCursor.ofLines ["exit"]).lines := by
    rw [ByteCursor.lines_ofLines plain, ByteCursor.lines_ofLines alone]
    exact .gone (by decide) (.kept (.gone (by decide) .nil))
  have thinned : whole.Thinned session.shell part :=
    ⟨.gone (by decide) (.gone (by decide) .nil), .buffered (Shell.promptsQuietly_of_none rfl) lines⟩
  have ended : (((session.fed whole).run 4).runOn {}).1.1 = .stopped (.stopWith 0) := by
    rfl
  obtain ⟨agree, _⟩ := run_ignores_blank_lines session thinned
  obtain ⟨_, same⟩ := agree Host.answer {} 4
  refine ⟨thinned, ended, same ?_⟩
  intro unfinished
  cases ended.symm.trans unfinished

/-- A client that makes a mark for each of its prompts, and shows the marks, has made one more of them
with a blank line to read. -/
theorem blank_line_marked :
    let marks : Action Failure String (Option Outcome) := .ofFun fun made => do
      discard <| Program.write 0 .out made
      return (.ok none, made)
    let session : Session String := {
      shell := {
        commands := NameTable.insert ∅ "marks" (.custom fun _ => marks)
        renderer := some fun prompt made => pure (prompt, made ++ ".") }
      memory := { client := "" } }
    let shown := fun lines : List String =>
      (((session.fed ⟨[], .buffered false (.ofLines lines)⟩).run 3).runOn {}).2.consoles.map
        (·.current.out.accepted)
    Text.isBlankLine "" = true ∧ shown ["", "marks"] = [Bytes.ofText ".."] ∧
      shown ["marks"] = [Bytes.ofText "."] := by
  intro marks session shown
  exact ⟨by decide, by rfl, by rfl⟩

end Session

end LineShell
