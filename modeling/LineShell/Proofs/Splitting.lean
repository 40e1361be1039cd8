import LineShell.Proofs.Desk
import LineShell.Proofs.Dialogue
import LineShell.Proofs.HistoryFile
/-!
A script over several sessions. Sessions with a history on one file, one after the other, do what one
session does that is given all of their lines: the file hands the history on unchanged.
-/

namespace LineShell

namespace History

variable {limit : Nat} {history : History} {entry path : String}

/-- A history that has been restored, keeps to its limit, and is made of lines that are plain and not
blank. -/
structure Settled (limit : Nat) (history : History) : Prop where
  bound : history.limit = limit
  restored : history.restored = true
  short : trim limit history.entries = history.entries
  plain : ∀ entry ∈ history.entries, Lines.Plain entry
  filled : ∀ entry ∈ history.entries, Text.isBlankLine entry = false

theorem settled_of_missing (limit : Nat) : Settled limit { ofLimit limit with restored := true } := by
  refine ⟨rfl, rfl, ?_, nofun, nofun⟩
  simp [trim, ofLimit]

theorem Settled.push (settled : history.Settled limit) (plain : Lines.Plain entry)
    (filled : Text.isBlankLine entry = false) : (history.push entry).Settled limit := by
  have kept : ∀ other ∈ (history.push entry).entries, other ∈ history.entries ∨ other = entry := by
    intro other member
    have whole := (trim_suffix history.limit (history.entries ++ [entry])).subset member
    simpa using whole
  refine ⟨settled.bound, settled.restored, ?_, ?_, ?_⟩
  · rw [History.push, settled.bound]
    exact trim_trim limit _
  · intro other member
    rcases kept other member with old | rfl
    · exact settled.plain other old
    · exact plain
  · intro other member
    rcases kept other member with old | rfl
    · exact settled.filled other old
    · exact filled

theorem Settled.clear (settled : history.Settled limit) : history.clear.Settled limit := by
  refine ⟨settled.bound, settled.restored, ?_, nofun, nofun⟩
  simp [trim, History.clear]

/-- A session that reads the file of a settled history has that history. -/
theorem Settled.recalled_fileText (settled : history.Settled limit) (path : String) :
    recalled path (.ofLimit limit) (.ok (Bytes.ofText history.fileText)) = .ok history := by
  have clean : ∀ entry ∈ history.entries, Clean entry :=
    fun entry member => ⟨settled.plain entry member, settled.filled entry member⟩
  have entries := entriesOfText_fileOf clean
  obtain ⟨found, bound, restored⟩ := history
  obtain rfl : bound = limit := settled.bound
  obtain rfl : restored = true := settled.restored
  rw [fileText_eq, ← fileOf, recalled, Bytes.toText?_ofText]
  simp only [restore, entries, ofLimit, List.append_nil, settled.short]

variable {σ : Type} {reply : (asked : Request) → σ → asked.Answer × σ} {state : σ}

theorem asks_deliver {ε : Type} (reply : Reply) (wrap : DeviceError → ε) :
    (reply.deliver 0 wrap).Asks Request.Writes := by
  obtain ⟨_, written, _⟩ := reply
  cases written with
  | none => trivial
  | some message => exact ⟨rfl, fun _ => trivial⟩

theorem asks_answer (history : History) (statement : Statement) :
    (history.answer statement).run.Asks Request.Writes := by
  rw [answer, ExceptT.run_map]
  exact (asks_deliver _ _).map _

theorem asks_answerLine (history : History) (line : String) :
    (history.answerLine line).run.Asks Request.Writes := by
  rw [answerLine]
  by_cases blank : Text.isBlankLine line = true
  · rw [if_pos blank]
    trivial
  · rw [if_neg blank]
    cases WordRule.simple.parse line with
    | error error => trivial
    | ok statement => exact asks_answer history statement

theorem asks_answerLines (history : History) (lines : List String) :
    (lines.foldlM answerLine history).run.Asks Request.Writes := by
  induction lines generalizing history with
  | nil => trivial
  | cons line lines ih =>
    rw [List.foldlM_cons, ExceptT.run_bind]
    apply (asks_answerLine history line).bind
    intro result
    cases result with
    | error error => trivial
    | ok after => exact ih after

theorem asks_dialogue (limit : Nat) (path : String) (lines : List String) :
    (dialogue limit path lines).run.Asks (Request.AtDesk path) := by
  rw [dialogue, ExceptT.run_bind]
  have loads : (Program.load path).Asks (Request.AtDesk path) := ⟨rfl, fun _ => trivial⟩
  apply (loads.map _).bind
  intro result
  cases result with
  | error error => trivial
  | ok history =>
    dsimp only
    rw [ExceptT.run_bind]
    have writes := (asks_answerLines history lines).mono fun asked writes => writes.atDesk path
    apply writes.bind
    intro result
    cases result with
    | error error => trivial
    | ok after => exact ⟨rfl, fun _ => trivial⟩

theorem Settled.answer {statement : Statement} {after : History} (settled : history.Settled limit)
    (plain : Lines.Plain statement.raw) (filled : Text.isBlankLine statement.raw = false)
    (answered : ((history.answer statement).run.run reply state).1 = .ok after) :
    after.Settled limit := by
  have pushed := settled.push plain filled
  have left : ((history.push statement.raw).replyTo statement).1.history.Settled limit := by
    rw [replyTo]
    cases Shell.remembered? statement.command with
    | none => exact pushed
    | some builtin =>
      dsimp only
      rcases builtin.history_reply statement.arguments (history.push statement.raw) with
        same | empty
      · rw [same]
        exact pushed
      · rw [empty]
        exact pushed.clear
  rw [History.answer, ExceptT.run_map, Program.run_map] at answered
  revert answered
  generalize (Program.run reply _ state).1 = ended
  intro answered
  cases ended with
  | error error => cases answered
  | ok outcome =>
    cases answered
    exact left

theorem Settled.answerLine {line : String} {after : History} (settled : history.Settled limit)
    (plain : Lines.Plain line)
    (answered : ((history.answerLine line).run.run reply state).1 = .ok after) :
    after.Settled limit := by
  rw [History.answerLine] at answered
  by_cases blank : Text.isBlankLine line = true
  · rw [if_pos blank] at answered
    cases answered
    exact settled
  · rw [if_neg blank] at answered
    cases parsed : WordRule.simple.parse line with
    | error error =>
      rw [parsed] at answered
      cases answered
    | ok statement =>
      obtain rfl : statement.raw = line := WordRule.raw_of_parse parsed
      rw [parsed] at answered
      exact settled.answer plain (by simpa using blank) answered

theorem Settled.answerLines {lines : List String} {after : History} (settled : history.Settled limit)
    (plain : ∀ line ∈ lines, Lines.Plain line)
    (answered : ((lines.foldlM History.answerLine history).run.run reply state).1 = .ok after) :
    after.Settled limit := by
  induction lines generalizing history state with
  | nil =>
    cases answered
    exact settled
  | cons line lines ih =>
    have first := plain line List.mem_cons_self
    have rest := fun other member => plain other (List.mem_cons_of_mem line member)
    rw [List.foldlM_cons, ExceptT.run_bind, Program.run_bind] at answered
    cases told : ((history.answerLine line).run.run reply state).1 with
    | error error =>
      rw [told] at answered
      cases answered
    | ok between =>
      rw [told] at answered
      exact ih (settled.answerLine first told) rest answered

end History

namespace Desk

variable {limit : Nat} {path : String} {desk middle after : Desk} {history between last : History}
variable {lines front back : List String} {error : ShellError}

/-- The lines are answered at the desk. -/
def tell (desk : Desk) (history : History) (lines : List String) :
    Except ShellError History × Desk :=
  (lines.foldlM History.answerLine history).run.run answer desk

/-- A whole session at the desk. -/
def talk (limit : Nat) (path : String) (desk : Desk) (lines : List String) :
    Except ShellError Unit × Desk :=
  (History.dialogue limit path lines).run.run answer desk

/-- The desk with the history in its file. -/
def keep (desk : Desk) (history : History) : Desk :=
  { desk with file := some (Bytes.ofText history.fileText) }

/-- A session that begins at the desk has a history that is settled. -/
structure Recalls (limit : Nat) (path : String) (desk : Desk) (history : History) : Prop where
  recalled : History.recalled path (.ofLimit limit) (desk.file.elim (.error .notFound) .ok) =
    .ok history
  settled : history.Settled limit

theorem recalls_of_missing (missing : desk.file = none) (limit : Nat) (path : String) :
    desk.Recalls limit path { History.ofLimit limit with restored := true } := by
  refine ⟨?_, History.settled_of_missing limit⟩
  rw [missing]
  rfl

theorem recalls_keep (settled : history.Settled limit) (desk : Desk) (path : String) :
    (desk.keep history).Recalls limit path history :=
  ⟨settled.recalled_fileText path, settled⟩

/-- Answering lines does not depend on the file. -/
theorem tell_keep (desk : Desk) (kept history : History) (lines : List String) :
    (desk.keep kept).tell history lines =
      ((desk.tell history lines).1, (desk.tell history lines).2.keep kept) :=
  Program.run_withFile (History.asks_answerLines history lines) desk _

theorem tell_append_of_told (told : desk.tell history front = (.ok between, middle)) :
    desk.tell history (front ++ back) = middle.tell between back := by
  unfold tell at told
  rw [tell, List.foldlM_append, ExceptT.run_bind, Program.run_bind, told]
  rfl

theorem tell_append_of_failed (failed : desk.tell history front = (.error error, middle)) :
    desk.tell history (front ++ back) = (.error error, middle) := by
  unfold tell at failed
  rw [tell, List.foldlM_append, ExceptT.run_bind, Program.run_bind, failed]
  rfl

/-- A session answers its lines once it has read the file, and then it writes the file. -/
theorem talk_eq (recalls : desk.Recalls limit path history) (lines : List String) :
    desk.talk limit path lines =
      (match (desk.tell history lines).1 with
        | .ok last => (.ok (), (desk.tell history lines).2.keep last)
        | .error error => (.error error, (desk.tell history lines).2)) := by
  have read : (History.recalled path (.ofLimit limit) <$> Program.load path).run answer desk =
      (.ok history, desk) := by
    rw [Program.run_map]
    exact congrArg (·, desk) recalls.recalled
  rw [talk, History.dialogue, ExceptT.run_bind, Program.run_bind, ExceptT.run_mk, read]
  dsimp only
  rw [ExceptT.run_bind, Program.run_bind, tell]
  generalize (lines.foldlM History.answerLine history).run.run answer desk = told
  obtain ⟨ended, after⟩ := told
  cases ended <;> rfl

theorem talk_of_told (recalls : desk.Recalls limit path history)
    (told : desk.tell history lines = (.ok last, after)) :
    desk.talk limit path lines = (.ok (), after.keep last) := by
  rw [talk_eq recalls, told]

theorem talk_of_failed (recalls : desk.Recalls limit path history)
    (failed : desk.tell history lines = (.error error, after)) :
    desk.talk limit path lines = (.error error, after) := by
  rw [talk_eq recalls, failed]

/-- What a session has done before its file is written, the next session takes up. -/
theorem talk_append (recalls : desk.Recalls limit path history)
    (told : desk.tell history front = (.ok between, middle)) (settled : between.Settled limit)
    (back : List String) :
    (desk.talk limit path (front ++ back)).1 = ((middle.keep between).talk limit path back).1 ∧
      ((desk.talk limit path (front ++ back)).1 = .ok () →
        (desk.talk limit path (front ++ back)).2 = ((middle.keep between).talk limit path back).2) := by
  have whole : desk.tell history (front ++ back) = middle.tell between back :=
    tell_append_of_told told
  have next := recalls_keep settled middle path
  have again := tell_keep middle between between back
  -- Both go on from the same history at the same console. They differ in the file until they end.
  cases ended : middle.tell between back with
  | mk result after =>
    rw [ended] at whole again
    cases result with
    | error error =>
      rw [talk_of_failed recalls whole, talk_of_failed next again]
      exact ⟨rfl, nofun⟩
    | ok last =>
      rw [talk_of_told recalls whole, talk_of_told next again]
      exact ⟨rfl, fun _ => rfl⟩

/-- Sessions at the desk, one after the other, each with its own lines. -/
def talks (limit : Nat) (path : String) (desk : Desk) (scripts : List (List String)) :
    List (Except ShellError Unit) × Desk :=
  (scripts.mapM fun lines => (History.dialogue limit path lines).run).run answer desk

theorem talks_cons (script : List String) (scripts : List (List String)) :
    desk.talks limit path (script :: scripts) =
      ((desk.talk limit path script).1 ::
          ((desk.talk limit path script).2.talks limit path scripts).1,
        ((desk.talk limit path script).2.talks limit path scripts).2) := by
  rw [talks, List.mapM_cons, Program.run_bind, Program.run_bind]
  rfl

/-- Either all of several sessions complete or a session with all their lines does not. If they
do, the desk is left the same. -/
theorem talks_agree {scripts : List (List String)} (nonempty : scripts ≠ [])
    (plain : ∀ script ∈ scripts, ∀ line ∈ script, Lines.Plain line)
    (recalls : desk.Recalls limit path history) :
    ((desk.talk limit path scripts.flatten).1 = .ok () ↔
        ∀ result ∈ (desk.talks limit path scripts).1, result = .ok ()) ∧
      ((desk.talk limit path scripts.flatten).1 = .ok () →
        (desk.talks limit path scripts).2 = (desk.talk limit path scripts.flatten).2) := by
  induction scripts generalizing desk history with
  | nil => exact absurd rfl nonempty
  | cons script scripts ih =>
    have first := plain script List.mem_cons_self
    have rest := fun other member => plain other (List.mem_cons_of_mem script member)
    rw [talks_cons, List.flatten_cons]
    by_cases last : scripts = []
    · subst last
      rw [List.flatten_nil, List.append_nil]
      exact ⟨by simp [talks], fun _ => rfl⟩
    · cases told : desk.tell history script with
      | mk ended middle =>
        cases ended with
        | error error =>
          have failed := talk_of_failed recalls told
          have whole : desk.tell history (script ++ scripts.flatten) = (.error error, middle) :=
            tell_append_of_failed told
          rw [failed, talk_of_failed recalls whole]
          exact ⟨by simp, nofun⟩
        | ok between =>
          have settled := recalls.settled.answerLines first (congrArg Prod.fst told)
          obtain ⟨results, desks⟩ := talk_append recalls told settled scripts.flatten
          obtain ⟨agree, left⟩ := ih last rest (recalls_keep settled middle path)
          rw [talk_of_told recalls told, results]
          refine ⟨by simpa using agree, fun done => ?_⟩
          rw [desks (results.trans done)]
          exact left done

theorem file_talk (recalls : desk.Recalls limit path history)
    (done : (desk.talk limit path lines).1 = .ok ()) :
    ∃ content, (desk.talk limit path lines).2.file = some content := by
  rw [talk_eq recalls] at done ⊢
  cases ended : (desk.tell history lines).1 with
  | error error =>
    rw [ended] at done
    cases done
  | ok last => exact ⟨_, rfl⟩

end Desk

/-- Neither channel of the console fails. -/
structure Console.Steady (console : Console) : Prop where
  out : console.current.out.fault = none
  err : console.current.err.fault = none

theorem Console.Steady.write {console : Console} (steady : console.Steady) (channel : Channel)
    (text : String) :
    (console.write channel text).1 = .ok () ∧ (console.write channel text).2.Steady := by
  cases channel with
  | out =>
    have taken := Sink.write_of_steady steady.out (Bytes.ofText text)
    simp only [Console.write, taken]
    exact ⟨trivial, steady.out, steady.err⟩
  | err =>
    have taken := Sink.write_of_steady steady.err (Bytes.ofText text)
    simp only [Console.write, taken]
    exact ⟨trivial, steady.out, steady.err⟩

/-- The line is blank, or it can be parsed. -/
def Lines.Readable (line : String) : Prop :=
  Text.isBlankLine line = true ∨ ∃ statement, WordRule.simple.parse line = .ok statement

namespace Desk

variable {desk : Desk} {history : History} {lines : List String}

/-- The program comes to a value at the desk, whose console is steady still. -/
def Completes {ε α : Type} (program : ExceptT ε Program α) (desk : Desk) : Prop :=
  ∃ value after, program.run.run answer desk = (.ok value, after) ∧ after.console.Steady

theorem completes_answer (steady : desk.console.Steady) (history : History) (statement : Statement) :
    Completes (history.answer statement) desk := by
  rw [Completes, History.answer, ExceptT.run_map, Program.run_map]
  generalize (history.push statement.raw).replyTo statement = replied
  obtain ⟨⟨left, written, outcome⟩, wrap⟩ := replied
  cases written with
  | none => exact ⟨left, desk, rfl, steady⟩
  | some message =>
    obtain ⟨channel, text⟩ := message
    obtain ⟨taken, still⟩ := steady.write channel text
    refine ⟨left, { desk with console := (desk.console.write channel text).2 }, ?_, still⟩
    simp only [ExceptT.run_mk, Reply.deliver, Program.run_map, Program.write, Program.request,
      Program.run, answer, taken]
    rfl

theorem completes_answerLine (steady : desk.console.Steady) (history : History) {line : String}
    (readable : Lines.Readable line) : Completes (history.answerLine line) desk := by
  rw [History.answerLine]
  by_cases blank : Text.isBlankLine line = true
  · rw [if_pos blank]
    exact ⟨history, desk, rfl, steady⟩
  · obtain ⟨statement, parsed⟩ := readable.resolve_left blank
    rw [if_neg blank, parsed]
    exact completes_answer steady history statement

theorem completes_answerLines (steady : desk.console.Steady) (history : History)
    (readable : ∀ line ∈ lines, Lines.Readable line) :
    Completes (lines.foldlM History.answerLine history) desk := by
  induction lines generalizing desk history with
  | nil => exact ⟨history, desk, rfl, steady⟩
  | cons line lines ih =>
    have rest := fun other member => readable other (List.mem_cons_of_mem line member)
    obtain ⟨between, middle, answered, still⟩ :=
      completes_answerLine steady history (readable line List.mem_cons_self)
    rw [Completes, List.foldlM_cons, ExceptT.run_bind, Program.run_bind, answered]
    exact ih still between rest

/-- A session over readable lines completes when its console does not fail. -/
theorem talk_completes {limit : Nat} {path : String} (recalls : desk.Recalls limit path history)
    (steady : desk.console.Steady) (readable : ∀ line ∈ lines, Lines.Readable line) :
    (desk.talk limit path lines).1 = .ok () := by
  obtain ⟨last, after, told, _⟩ := completes_answerLines steady history readable
  rw [talk_of_told recalls told]

end Desk

theorem Ending.ofDialogue_eq_stopped_iff {told : Except ShellError Unit} :
    ofDialogue told = .stopped .stopped ↔ told = .ok () := by
  cases told with
  | error error => constructor <;> nofun
  | ok done => exact ⟨fun _ => rfl, fun _ => rfl⟩

/-- What the first console writes its normal output to, with all that it has accepted. -/
def Host.standardOut (host : Host) : Option Sink :=
  host.consoles[0]?.map fun console => console.current.out

theorem Journal.Apart.out_eq {journal : Journal} {files : Files} {there : Location}
    {found shown : Console} (apart : journal.Apart files there found shown) :
    found.current.out = shown.current.out := by
  cases apart with
  | silent off same => rw [same]
  | memory kept same => rw [same]
  | file kept leads held apart same => rw [same]
  | console kept steady steadyToo same => exact same

theorem Host.Shows.standardOut {host : Host} {path : String} {there : Location} {found : Console}
    {desk : Desk} (shows : host.Shows path there found desk) :
    host.standardOut = some desk.console.current.out := by
  rw [Host.standardOut, shows.opened, Option.map_some, shows.apart.out_eq]

theorem Host.shows_of_missing {host : Host} {path : String} {there : Location} {console : Console}
    (missing : host.files.read path = .error .notFound)
    (writable : host.files.locateFile path = .ok there)
    (opened : host.consoles[0]? = some console)
    (apart : host.journal.Apart host.files there console console) :
    host.Shows path there console { console, file := none } := by
  refine ⟨writable, ?_, opened, apart⟩
  rw [Files.read_of_locateFile writable] at missing
  cases held : host.files.node? there with
  | none => rfl
  | some node =>
    cases node with
    | file content =>
      rw [held] at missing
      cases missing
    | directory => exact absurd held (Files.locateFile_eq_ok_iff.mp writable).2.2

namespace Session

variable {σ : Type}

theorem unlogged_mapM_remembering {sources : List (Source σ × σ)} {scripts : List (List String)}
    {turns : Nat} (deliver : sources.Forall₂ (fun given => given.1.Delivers given.2) scripts)
    (enough : ∀ script ∈ scripts, script.length < turns) (limit : Nat) (path : String) :
    (sources.mapM (remembering limit path turns)).unlogged =
      List.map Ending.ofDialogue <$>
        scripts.mapM fun lines => (History.dialogue limit path lines).run := by
  rw [Program.unlogged_mapM]
  induction deliver with
  | nil => rfl
  | @cons given script sources scripts delivers others ih =>
    have first := enough script List.mem_cons_self
    have rest := ih fun other member => enough other (List.mem_cons_of_mem script member)
    rw [List.mapM_cons, List.mapM_cons, unlogged_remembering delivers first, rest]
    simp only [map_eq_pure_bind, bind_assoc, pure_bind, List.map_cons]

/-- Sessions with a history on one file do the same one after the other as one session that is given
all of their lines, when the file is missing at first and can be made: they complete if it does, their
standard output is the same, and they leave the same file. They do complete if the lines can be read
and the console does not fail. The host may keep a log in the meantime, but not in that file. -/
theorem splitting_keeps_history (limit : Nat) (path : String) (scripts : List (List String))
    (sources : List (Source σ × σ)) (source : Source σ) (client : σ) (turns : Nat) (host : Host)
    (there : Location) (console : Console) (nonempty : scripts ≠ [])
    (plain : ∀ script ∈ scripts, ∀ line ∈ script, Lines.Plain line)
    (parts : sources.Forall₂ (fun given => given.1.Delivers given.2) scripts)
    (whole : source.Delivers client scripts.flatten) (enough : scripts.flatten.length < turns)
    (missing : host.files.read path = .error .notFound)
    (writable : host.files.locateFile path = .ok there)
    (opened : host.consoles[0]? = some console)
    (apart : host.journal.Apart host.files there console console) :
    let one := (remembering limit path turns (source, client)).runOn host
    let several := (sources.mapM (remembering limit path turns)).runOn host
    (one.1 = .stopped .stopped ↔ ∀ ending ∈ several.1, ending = .stopped .stopped) ∧
    (one.1 = .stopped .stopped → several.2.standardOut = one.2.standardOut ∧
      ∃ content, several.2.files.read path = .ok content ∧ one.2.files.read path = .ok content) ∧
    (console.Steady → (∀ line ∈ scripts.flatten, Lines.Readable line) → one.1 = .stopped .stopped) := by
  intro one several
  have shows := Host.shows_of_missing missing writable opened apart
  have recalls : (⟨console, none⟩ : Desk).Recalls limit path
      { History.ofLimit limit with restored := true } :=
    Desk.recalls_of_missing rfl limit path
  have bounded : ∀ script ∈ scripts, script.length < turns := by
    intro script member
    have shorter := (List.sublist_flatten_of_mem member).length_le
    omega
  have oneAsks := (History.asks_dialogue limit path scripts.flatten).map Ending.ofDialogue
  have severalAsks : (scripts.mapM fun lines => (History.dialogue limit path lines).run).Asks
      (Request.AtDesk path) := .mapM fun lines _ => History.asks_dialogue limit path lines
  obtain ⟨oneEnding, _, oneShows⟩ :=
    shows.runOn (unlogged_remembering whole enough limit path) oneAsks
  obtain ⟨severalEndings, _, severalShow⟩ :=
    shows.runOn (unlogged_mapM_remembering parts bounded limit path) (severalAsks.map _)
  rw [Program.run_map] at oneEnding oneShows severalEndings severalShow
  obtain ⟨agree, desks⟩ := Desk.talks_agree nonempty plain recalls
  have completed : one.1 = .stopped .stopped ↔
      (Desk.talk limit path ⟨console, none⟩ scripts.flatten).1 = .ok () := by
    rw [oneEnding]
    exact Ending.ofDialogue_eq_stopped_iff
  refine ⟨?endings, ?outputs, ?completes⟩
  case endings =>
    rw [completed, agree, severalEndings]
    simp only [List.forall_mem_map, Ending.ofDialogue_eq_stopped_iff]
    rfl
  case outputs =>
    intro ended
    have done := completed.mp ended
    have same := desks done
    obtain ⟨content, kept⟩ := Desk.file_talk recalls done
    unfold Desk.talks Desk.talk at same
    unfold Desk.talk at kept
    rw [same] at severalShow
    refine ⟨severalShow.standardOut.trans oneShows.standardOut.symm, content, ?_, ?_⟩
    · rw [severalShow.load, kept]
      rfl
    · rw [oneShows.load, kept]
      rfl
  case completes =>
    intro steady readable
    exact completed.mpr (Desk.talk_completes recalls steady readable)

/-- Two sessions of one line each, and one session of both lines. -/
theorem splitting_keeps_history_of_two :
    ∃ one several,
      (remembering 0 "log" 3 ((.buffered false (.ofLines ["echo a", "hist"]) : Source Unit), ())).runOn
        {} = one ∧
      ([((.buffered false (.ofLines ["echo a"]) : Source Unit), ()),
          (.buffered false (.ofLines ["hist"]), ())].mapM (remembering 0 "log" 3)).runOn {} = several ∧
      one.1 = .stopped .stopped ∧ (∀ ending ∈ several.1, ending = .stopped .stopped) ∧
      several.2.standardOut = one.2.standardOut ∧
      ∃ content, several.2.files.read "log" = .ok content ∧ one.2.files.read "log" = .ok content := by
  have each : ∀ line ∈ ["echo a", "hist"], Lines.Plain line ∧ Lines.Readable line := by
    intro line member
    simp only [List.mem_cons, List.not_mem_nil, or_false] at member
    rcases member with rfl | rfl
    · exact ⟨⟨by decide, by decide⟩, .inr ⟨⟨"echo a", ["echo", "a"]⟩, rfl⟩⟩
    · exact ⟨⟨by decide, by decide⟩, .inr ⟨⟨"hist", ["hist"]⟩, rfl⟩⟩
  have plain : ∀ script ∈ [["echo a"], ["hist"]], ∀ line ∈ script, Lines.Plain line := by
    intro script member line inside
    exact (each line (List.mem_flatten.mpr ⟨script, member, inside⟩)).1
  have delivers : ∀ lines, (∀ line ∈ lines, Lines.Plain line) →
      (.buffered false (.ofLines lines) : Source Unit).Delivers () lines :=
    fun lines plain => (Source.gives_ofLines plain).delivers ()
  have first := delivers ["echo a"] (plain _ (by simp))
  have second := delivers ["hist"] (plain _ (by simp))
  have whole := delivers ["echo a", "hist"] fun line member => (each line member).1
  have writable : ({} : Files).locateFile "log" = .ok ⟨.above 0, ["log"]⟩ := by
    have names : "log".splitOn "/" = ["log"] := by cbv
    have bare : "log".endsWith "/" = false := by decide +kernel
    have relative : "log".startsWith "/" = false := by decide +kernel
    have located : ({} : Files).locate "log" = .ok ⟨.above 0, ["log"]⟩ := by
      simp [Files.locate, BaseDirectory.ofPath, relative, names, Files.walk, Files.node?,
        Location.child]
    exact Files.locateFile_eq_ok_iff.mpr ⟨bare, located, by simp [Files.node?]⟩
  have missing : ({} : Files).read "log" = .error .notFound := by
    rw [Files.read_of_locateFile writable]
    rfl
  obtain ⟨agree, outputs, completes⟩ := splitting_keeps_history 0 "log" [["echo a"], ["hist"]]
    [(.buffered false (.ofLines ["echo a"]), ()), (.buffered false (.ofLines ["hist"]), ())] _ () 3 {}
    ⟨.above 0, ["log"]⟩ {} (by simp) plain (.cons first (.cons second .nil)) whole (by simp) missing
    writable rfl (.silent rfl rfl)
  have done := completes ⟨rfl, rfl⟩ fun line member => (each line member).2
  exact ⟨_, _, rfl, rfl, done, agree.mp done, outputs done⟩

end Session

end LineShell
