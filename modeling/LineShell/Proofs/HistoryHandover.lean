import LineShell.Proofs.Accounting
import LineShell.Proofs.Guarding
import LineShell.Proofs.HistoryFile
import LineShell.Proofs.Recording
/-!
What a session hands on to the next one through the history's file. When the loop has been left with an
outcome, the file holds the entries that the hooks after the loop were given, and the next session finds
the same entries in it just when all of them are clean. Entries that were typed are clean unless a
carriage return stands at their end.
-/

namespace LineShell

variable {σ : Type}

namespace Lines

theorem unended_of_mem_dropLast {α : Type} {ends : α → Bool} {units line : List α}
    (member : line ∈ segments ends units) : ∀ unit ∈ line.dropLast, ends unit = false := by
  obtain ⟨inside, unended, rfl | ⟨last, _, rfl⟩⟩ := inside_of_mem_segments member
  · exact fun unit among => unended unit (List.mem_of_mem_dropLast among)
  · rwa [List.dropLast_concat]

theorem unbroken_chomp {line : List Char} (inside : '\n' ∉ line.dropLast) : '\n' ∉ chomp line := by
  cases ended : line.getLast? with
  | none =>
    rw [List.getLast?_eq_none_iff.mp ended]
    exact List.not_mem_nil
  | some last =>
    obtain ⟨front, rfl⟩ := List.getLast?_eq_some_iff.mp ended
    rw [List.dropLast_concat] at inside
    by_cases newline : last = '\n'
    · subst newline
      exact fun kept => inside ((chomp_append_newline_start front).subset kept)
    · have unbroken : '\n' ∉ front ++ [last] := by simp [inside, Ne.symm newline]
      rwa [chomp_of_unbroken unbroken]

end Lines

namespace ByteCursor

theorem unbroken_of_mem_lines {cursor : ByteCursor} {line : String}
    (member : .ok line ∈ cursor.lines) : '\n' ∉ line.toList := by
  obtain ⟨segment, cut, decoded⟩ := List.mem_map.mp member
  unfold decodeLine at decoded
  cases valid : Bytes.toText? segment with
  | none => simp [valid] at decoded
  | some text =>
    simp only [valid, Option.elim_some, Except.ok.injEq] at decoded
    subst decoded
    rw [Lines.chompText, String.toList_ofList]
    apply Lines.unbroken_chomp
    intro newline
    have unended := Lines.unended_of_mem_dropLast cut
    rw [← Bytes.ofText_of_toText? valid, Bytes.ofText_eq] at unended
    cases last : text.toList.getLast? with
    | none =>
      rw [List.getLast?_eq_none_iff.mp last] at newline
      cases newline
    | some final =>
      obtain ⟨front, letters⟩ := List.getLast?_eq_some_iff.mp last
      rw [letters, List.dropLast_concat] at newline
      have bytes : ([final].flatMap String.utf8EncodeChar) ≠ [] := by simp
      rw [letters, List.flatMap_append, List.dropLast_append_of_ne_nil bytes] at unended
      have among : (10 : UInt8) ∈ front.flatMap String.utf8EncodeChar :=
        List.mem_flatMap.mpr ⟨'\n', newline, by decide⟩
      exact absurd (unended 10 (List.mem_append_left _ among)) (by decide)

end ByteCursor

namespace History

/-- A line that can come from a buffer, and that the loop does not pass over. -/
structure Recordable (entry : String) : Prop where
  unbroken : '\n' ∉ entry.toList
  filled : Text.isBlankLine entry = false

/-- The line does not end in a carriage return. -/
def Bare (line : String) : Prop :=
  line.toList.getLast? ≠ some '\r'

theorem Recordable.clean_iff (recordable : Recordable entry) : Clean entry ↔ Bare entry :=
  ⟨fun clean => clean.bare, fun bare => ⟨⟨recordable.unbroken, bare⟩, recordable.filled⟩⟩

theorem recordable_of_mem_entriesOfText {text entry : String}
    (member : entry ∈ entriesOfText text) : Recordable entry :=
  ⟨(of_mem_entriesOfText member).1, (of_mem_entriesOfText member).2⟩

/-- A file made of recordable entries gives back no more of them than it was made of. -/
theorem length_entriesOfText_fileOf_le {entries : List String}
    (recordable : ∀ entry ∈ entries, Recordable entry) :
    (entriesOfText (fileOf entries)).length ≤ entries.length := by
  rw [fileOf_of_filled fun entry member => (recordable entry member).filled, entriesOfText,
    Lines.ofText_linesText_of_unbroken fun entry member => (recordable entry member).unbroken]
  exact (List.length_filter_le _ _).trans_eq (List.length_map _)

/-- The last entries that a file gives back are those that it was made of just when all of these are
clean. -/
theorem trim_entriesOfText_fileOf_iff {entries : List String} (limit : Nat)
    (kept : trim limit entries = entries) :
    trim limit (entriesOfText (fileOf entries)) = entries ↔ ∀ entry ∈ entries, Clean entry := by
  constructor
  · intro same
    have last : entries <:+ entriesOfText (fileOf entries) := by
      have suffix := trim_suffix limit (entriesOfText (fileOf entries))
      rwa [same] at suffix
    -- What is read holds recordable lines only, so the entries are recordable, and none is left out.
    have short := length_entriesOfText_fileOf_le fun entry member =>
      recordable_of_mem_entriesOfText (last.subset member)
    exact entriesOfText_fileOf_iff.mp (last.eq_of_length_le short).symm
  · intro clean
    rw [entriesOfText_fileOf clean, kept]

end History

/-- A hook of the loop brings nothing into the log but what it has read as text. -/
theorem LoopHook.read_of_event {hook : Named (LoopHook σ)} {before after : Memory σ}
    (happened : Call.historyEvent? ⟨.loopHook point hook, before, asked, after⟩ = some event) :
    event.isRestored = true ∧ ∀ entry, event.Brings entry → ∃ path bytes text later,
      asked = History.loaded path (.ok bytes) :: later ∧ Bytes.toText? bytes = some text ∧
        entry ∈ History.entriesOfText text := by
  obtain ⟨name, action⟩ := hook
  cases action with
  | saveHistory file | custom action => cases happened
  | restoreHistory file =>
    change History.restored? asked = some event at happened
    unfold History.restored? at happened
    split at happened
    · cases happened
      exact ⟨rfl, nofun⟩
    · rename_i path bytes later
      obtain ⟨text, valid, rfl⟩ := Option.map_eq_some_iff.mp happened
      exact ⟨rfl, fun entry brings => ⟨path, bytes, text, later, rfl, valid, brings⟩⟩
    · cases happened

/-- What the hooks before the loop bring into the log is what the file holds. -/
theorem Shell.Remembers.restored {shell : Shell σ} {path : String}
    {front : List (Named (LoopHook σ))} {host reached : Host}
    (remembers : shell.Remembers path front)
    (called : LoopHookCalls .preloop shell.hooks.preloop before calls ended entered)
    (answered : Program.Answered Host.answer host (calls.flatMap Call.exchanges ++ more) reached)
    (log : host.LogSpares path) :
    ∀ call ∈ calls, ∀ event, call.historyEvent? = some event → event.Brings entry →
      ∃ text, host.files.readText path = .ok text ∧ entry ∈ History.entriesOfText text := by
  have spares := called.asks remembers.asks_preloop (Request.spares_lenient path)
  intro call member event happened brings
  obtain ⟨hook, among, _, callee⟩ := CallsThrough.callee_of_mem called call member
  obtain ⟨first, rest, rfl⟩ := List.append_of_mem member
  have ran := called.passes.at_call.2
  rw [List.flatMap_append, List.append_assoc] at answered
  obtain ⟨there, earlier, onward⟩ := answered.split
  have kept : host.Keeps path there := by
    apply Host.keeps_of_answered earlier _ log
    intro exchange asked
    exact spares exchange (by rw [List.flatMap_append]; exact List.mem_append_left _ asked)
  obtain ⟨_, start, asked, finish⟩ := call
  obtain rfl : _ = Callee.loopHook .preloop hook := callee
  obtain ⟨restored, read⟩ := LoopHook.read_of_event happened
  obtain ⟨file, bytes, text, later, rfl, valid, found⟩ := read entry brings
  obtain ⟨same, answer, others, asks, _⟩ :=
    remembers.consults (.inr (.inl ⟨hook, among, rfl⟩)) ran happened restored
  obtain ⟨loaded, rfl⟩ := List.cons.inj asks
  obtain ⟨load, given⟩ := Sigma.mk.inj loaded
  obtain rfl := Request.load.inj load
  have held : there.files.read file = .ok bytes := Host.read_of_answered onward kept.log
  exact ⟨text, Files.readText_of_valid (kept.same.symm.trans held) valid, found⟩

theorem Host.read_of_saved {host after : Host} {path : String} {content : Bytes}
    (saved : Host.answer (.save path content) host = (.ok (), after)) :
    after.files.read path = .ok content := by
  cases leads : host.files.locateFile path with
  | error error =>
    have refused : host.files.save path content = .error error := by
      rw [Files.save, leads]
      rfl
    simp only [Host.answer, refused, Prod.mk.injEq, reduceCtorEq, false_and] at saved
  | ok there =>
    have free := (Files.locateFile_eq_ok_iff.mp leads).2.2
    have still : (host.files.put there (.file content)).locateFile path = .ok there :=
      Files.locateFile_put free leads
    simp only [Host.answer, Files.save_of_locateFile leads, Prod.mk.injEq, true_and] at saved
    rw [← saved, Files.read_of_locateFile still, Files.node?_put_self free]

/-- The file holds the text of some entries. -/
def Host.Stores (host : Host) (path : String) (entries : List String) : Prop :=
  host.files.read path = .ok (Bytes.ofText (History.fileOf entries))

/-- After a hook that succeeds, the file holds the entries if the hook saves them, or if it held them
before. -/
theorem LoopHook.Closes.stores {hook : LoopHook σ} {before after : Memory σ} {host reached : Host}
    {path text : String} (closes : hook.Closes path) (ran : hook.run.Runs before asked (.ok ()) after)
    (answered : Program.Answered Host.answer host (HookTable.announced text :: asked) reached)
    (log : host.LogSpares path)
    (known : hook = .saveHistory path ∨ host.Stores path before.history.entries) :
    reached.Stores path before.history.entries := by
  rcases closes with ⟨⟨action, rfl⟩, asks⟩ | rfl
  · have spare : ∀ exchange ∈ HookTable.announced text :: asked, exchange.1.Spares path :=
      List.forall_mem_cons.mpr ⟨(Request.spares_lenient path).record _, asks.of_runs ran⟩
    have kept := Host.keeps_of_answered answered spare log
    rcases known with saves | held
    · cases saves
    · exact kept.same.trans held
  · obtain ⟨saved, rfl, ended, rfl⟩ := History.runs_saveTo_iff.mp ran
    cases saved with
    | error error => cases ended
    | ok written =>
      cases answered with
      | next noted rest =>
        cases rest with
        | next given last =>
          cases last
          have held := Host.read_of_saved given
          rwa [History.fileText_eq] at held

theorem LoopHookCalls.stores {hooks : List (Named (LoopHook σ))} {host reached : Host}
    {path : String} (called : LoopHookCalls .postloop hooks before calls (.ok ()) after)
    (closes : ∀ hook ∈ hooks, hook.action.Closes path)
    (answered : Program.Answered Host.answer host (calls.flatMap Call.exchanges) reached)
    (log : host.LogSpares path)
    (known : (∃ hook ∈ hooks, hook.action = .saveHistory path) ∨
      host.Stores path before.history.entries) :
    reached.Stores path before.history.entries ∧
      ∀ call ∈ calls, call.before.history = before.history := by
  unfold LoopHookCalls at called
  generalize () = given at called
  generalize finished : Except.ok given = ended at called
  induction called generalizing host with
  | done =>
    cases answered
    rcases known with ⟨_, impossible, _⟩ | held
    · cases impossible
    · exact ⟨held, nofun⟩
  | failed ran => cases finished
  | @next value before _ _ middle later calls _ _ hook ran rest ih =>
    rw [List.flatMap_cons] at answered
    obtain ⟨there, first, onward⟩ := answered.split
    have closing := closes _ List.mem_cons_self
    obtain ⟨same, still, _⟩ := closing.saves ran first log
    have others := fun other member => closes other (List.mem_cons_of_mem _ member)
    have next : (∃ other ∈ later, other.action = .saveHistory path) ∨
        there.Stores path middle.history.entries := by
      rw [same]
      rcases known with ⟨saver, member, saves⟩ | held
      · rcases List.mem_cons.mp member with rfl | further
        · exact .inr (closing.stores ran first log (.inl saves))
        · exact .inl ⟨saver, further, saves⟩
      · exact .inr (closing.stores ran first log (.inr held))
    obtain ⟨stored, given⟩ := ih others onward still next finished
    rw [same] at stored given
    exact ⟨stored, List.forall_mem_cons.mpr ⟨rfl, given⟩⟩

/-- A history that has not been restored is restored from a file that holds entries. -/
theorem History.Restores.of_stored {path text : String} {entries : List String}
    {before after : Memory σ} {host reached : Host} (restores : Restores path before asked ended after)
    (fresh : before.history.restored = false)
    (answered : Program.Answered Host.answer host
      (HookTable.announced text :: (asked ++ more)) reached)
    (log : host.LogSpares path) (stored : host.Stores path entries) :
    ended = .ok () ∧ after.history = before.history.restore (entriesOfText (fileOf entries)) := by
  have told : ∀ {found later}, asked = loaded path found :: later →
      found = .ok (Bytes.ofText (fileOf entries)) := by
    intro found later same
    rw [same] at answered
    exact (Host.read_of_answered answered log).symm.trans stored
  cases restores with
  | already again => cases fresh.symm.trans again
  | missing => cases told rfl
  | unreadable => cases told rfl
  | invalid _ invalid =>
    cases told rfl
    rw [Bytes.toText?_ofText] at invalid
    cases invalid
  | read _ valid =>
    cases told rfl
    rw [Bytes.toText?_ofText] at valid
    cases valid
    exact ⟨rfl, rfl⟩

namespace Shell.Remembers

variable {shell : Shell σ} {path : String} {front : List (Named (LoopHook σ))} {host reached : Host}

/-- A fresh history holds what the file gives back once the hooks before the loop have come past the
reader. -/
theorem finds (remembers : shell.Remembers path front)
    (called : LoopHookCalls .preloop shell.hooks.preloop before calls ended entered)
    (answered : Program.Answered Host.answer host (calls.flatMap Call.exchanges) reached)
    (log : host.LogSpares path) (fresh : before.history = .ofLimit limit)
    (stored : host.Stores path entries) :
    (∃ failure, ended = .error failure ∧
      LoopHookCalls .preloop front before calls (.error failure) entered) ∨
    entered.history.entries =
      History.trim limit (History.entriesOfText (History.fileOf entries)) := by
  have spares := called.asks remembers.asks_preloop (Request.spares_lenient path)
  obtain ⟨back, whole, clients⟩ := remembers.preloop
  have inFront : ∀ hook ∈ front, hook.action.IsClients :=
    fun hook among => clients hook (List.mem_append_left back among)
  have behind : ∀ hook ∈ back, hook.action.IsClients :=
    fun hook among => clients hook (List.mem_append_right front among)
  rw [LoopHookCalls, whole] at called
  rcases called.split with ⟨failure, broken, failed⟩ | ⟨first, _, middle, rest, rfl, fronts, onward⟩
  · exact .inl ⟨failure, broken, failed⟩
  right
  rw [List.flatMap_append] at answered spares
  obtain ⟨there, earlier, later⟩ := answered.split
  have kept : host.Keeps path there :=
    Host.keeps_of_answered earlier (fun exchange asked => spares exchange
      (List.mem_append_left _ asked)) log
  have held : there.Stores path entries := kept.same.trans stored
  have same : middle.history = .ofLimit limit :=
    (LoopHookCalls.history fronts inFront).trans fresh
  have unread : middle.history.restored = false := by
    rw [same]
    rfl
  have restored : ∀ {text asked more result left}, History.Restores path middle asked result left →
      Program.Answered Host.answer there (HookTable.announced text :: (asked ++ more)) reached →
      result = .ok () ∧ left.history.entries =
        History.trim limit (History.entriesOfText (History.fileOf entries)) := by
    intro text asked more result left restores told
    obtain ⟨well, now⟩ := restores.of_stored unread told kept.log held
    rw [now, same]
    exact ⟨well, by simp [History.restore, History.ofLimit]⟩
  cases onward with
  | failed ran =>
    cases (restored (History.runs_restoreFrom_iff.mp ran) later).1
  | next ran others =>
    have same : entered.history = _ := LoopHookCalls.history others behind
    rw [same]
    exact (restored (History.runs_restoreFrom_iff.mp ran) later).2

end Shell.Remembers

theorem Host.shows_of_name {name : String} (plain : name.splitOn "/" = [name])
    (relative : name.startsWith "/" = false) (bare : name.endsWith "/" = false)
    (down : name ≠ "" ∧ name ≠ "." ∧ name ≠ "..") :
    ({} : Host).Shows name ⟨.above 0, [name]⟩ {} ⟨{}, none⟩ where
  leads := Files.locateFile_eq_ok_iff.mpr
    ⟨bare, Files.locate_name plain relative down, by simp [Files.node?]⟩
  held := by simp [Files.node?]
  opened := rfl
  apart := .silent rfl rfl

namespace Session

variable {session after : Session σ} {path : String} {front : List (Named (LoopHook σ))}
  {host reached : Host} {earlier calls : List (Call σ)}

/-- A run of the loop that comes to an outcome leaves its entries in the file, and has given them to
all hooks after the loop. -/
theorem LoopCalls.stores (told : session.LoopCalls exchanges steps calls (.stopped outcome) after)
    (guards : session.Guards path front host)
    (saver : ∃ hook ∈ session.shell.hooks.postloop, hook.action = .saveHistory path)
    (answered : Program.Answered Host.answer host exchanges reached) :
    reached.Stores path after.memory.history.entries ∧
      ∀ call ∈ calls, ∀ hook, call.callee = .loopHook .postloop hook →
        call.before.history = after.memory.history := by
  generalize whole : Ending.stopped outcome = ending at told
  cases told with
  | preloopFailed => cases whole
  | ended before took going => exact absurd whole.symm (going outcome)
  | @closed first _ _ _ _ _ _ closing _ before took closed =>
    cases closing with
    | error failure => cases whole
    | ok _ =>
      obtain ⟨_, opened, onward, _⟩ := guards.opening before answered
      obtain ⟨_, turned, last⟩ := onward.split
      obtain ⟨still, _⟩ := Guards.turns guards.shell guards.source opened.log took turned
      obtain ⟨same, _⟩ := closed.saves guards.shell.closes last still.log
      obtain ⟨stored, given⟩ := closed.stores guards.shell.closes last still.log (.inl saver)
      rw [← same] at stored given
      refine ⟨stored, fun call member hook callee => ?_⟩
      rcases List.mem_append.mp member with opening | later
      · obtain ⟨_, _, _, other⟩ := CallsThrough.callee_of_mem before call opening
        cases callee.symm.trans other
      rcases List.mem_append.mp later with turning | ending
      · have ofTurn := took.ofTurn call turning
        rw [callee] at ofTurn
        cases ofTurn
      · exact given call ending

/-- After a run of the loop, an entry was held before it, or was in the file, or is a line that a step
took. -/
theorem LoopCalls.entry_cases (told : session.LoopCalls exchanges steps calls ending after)
    (guards : session.Guards path front host) (records : session.shell.RecordsLines)
    (reflects : session.memory.history.Reflects limit earlier)
    (answered : Program.Answered Host.answer host exchanges reached)
    (member : entry ∈ after.memory.history.entries) :
    entry ∈ session.memory.history.entries ∨
    (∃ text, host.files.readText path = .ok text ∧ entry ∈ History.entriesOfText text) ∨
    (∃ step ∈ steps, step.line? = some entry) ∧ Text.isBlankLine entry = false := by
  have kept : History.trim session.memory.history.limit session.memory.history.entries =
      session.memory.history.entries := by
    rw [reflects.limit, reflects.entries, History.trim_trim]
  rcases told.passes.mem_entries kept member with held | ⟨call, among, event, happened, brings⟩
  · exact .inl held
  right
  cases told with
  | preloopFailed before =>
    rw [← List.append_nil (List.flatMap _ _)] at answered
    exact .inl (guards.shell.restored before answered guards.log call among event happened brings)
  | ended before took =>
    rcases List.mem_append.mp among with opening | turning
    · exact .inl (guards.shell.restored before answered guards.log call opening event happened brings)
    · exact .inr (took.recorded records call turning event happened brings)
  | closed before took closing =>
    rcases List.mem_append.mp among with opening | later
    · exact .inl (guards.shell.restored before answered guards.log call opening event happened brings)
    rcases List.mem_append.mp later with turning | last
    · exact .inr (took.recorded records call turning event happened brings)
    · obtain ⟨hook, behind, _, callee⟩ := CallsThrough.callee_of_mem closing call last
      obtain ⟨_, _, _, _⟩ := call
      obtain rfl : _ = Callee.loopHook .postloop hook := callee
      obtain ⟨name, action⟩ := hook
      rcases guards.shell.postloop _ behind with ⟨custom, rfl⟩ | rfl
      · cases happened
      · cases happened

theorem CommandLoop.line_mem {view : σ → List HeldLine}
    (looped : session.CommandLoop exchanges steps ending after)
    (apart : session.shell.Apart view session.input.source) (member : step ∈ steps)
    (took : step.line? = some line) : .ok line ∈ (session.pending view).lines := by
  obtain ⟨queued, live, drawn, lines⟩ := (looped.fed apart).1.drawn
  have taken : line ∈ queued ++ readable live := by
    rw [← lines]
    exact List.mem_filterMap.mpr ⟨step, member, took⟩
  rw [drawn.lines_eq]
  apply List.mem_append_left
  rcases List.mem_append.mp taken with first | later
  · exact List.mem_append_left _ (List.mem_map_of_mem first)
  · obtain ⟨held, among, read⟩ := List.mem_filterMap.mp later
    cases held with
    | error error => cases read
    | ok other =>
      cases read
      exact List.mem_append_right _ among

/-- After a run of a loop that reads from a buffer, an entry is as wanted if all lines are that wait and
are not blank, all entries that were held before, and all that were in the file. -/
theorem LoopCalls.entries_as_wanted {cursor : ByteCursor} (wanted : String → Prop)
    (told : session.LoopCalls exchanges steps calls ending after)
    (guards : session.Guards path front host) (records : session.shell.RecordsLines)
    (reflects : session.memory.history.Reflects limit earlier)
    (answered : Program.Answered Host.answer host exchanges reached)
    (source : session.input.source = .buffered interactive cursor)
    (queue : ∀ line ∈ session.input.queue, Text.isBlankLine line = false → wanted line)
    (lines : ∀ line, .ok line ∈ cursor.lines → Text.isBlankLine line = false → wanted line)
    (held : ∀ entry ∈ session.memory.history.entries, wanted entry)
    (file : ∀ text, host.files.readText path = .ok text →
      ∀ entry ∈ History.entriesOfText text, wanted entry) :
    ∀ entry ∈ after.memory.history.entries, wanted entry := by
  have apart : session.shell.Apart (fun _ => []) session.input.source := by
    intro interactive next own
    cases source.symm.trans own
  intro entry member
  rcases told.entry_cases guards records reflects answered member with
    before | ⟨text, read, found⟩ | ⟨⟨step, among, took⟩, filled⟩
  · exact held entry before
  · exact file text read entry found
  have looped := commandLoop_iff_calls.mpr ⟨calls, told⟩
  have waited := looped.line_mem apart among took
  rw [pending, LoopState.pending, Pending.lines, source] at waited
  rcases List.mem_append.mp waited with queued | live
  · obtain ⟨line, first, same⟩ := List.mem_map.mp queued
    cases same
    exact queue entry first filled
  · obtain ⟨line, among, same⟩ := List.mem_map.mp live
    cases line with
    | error error => cases same
    | ok line =>
      cases same
      exact lines entry among filled

/-- A session that reads lines from a buffer and records them. Neither the lines of its queue nor those
that it remembers are any that a buffer could not have given. -/
structure Reads (session : Session σ) (cursor : ByteCursor) : Prop where
  source : ∃ interactive, session.input.source = .buffered interactive cursor
  queue : ∀ line ∈ session.input.queue, '\n' ∉ line.toList
  held : ∀ entry ∈ session.memory.history.entries, History.Recordable entry
  records : session.shell.RecordsLines

/-- No carriage return stands at the end of a line that waits, that is remembered, or that is in the
file. -/
structure BareLines (session : Session σ) (cursor : ByteCursor) (files : Files) (path : String) :
    Prop where
  queue : ∀ line ∈ session.input.queue, History.Bare line
  lines : ∀ line, .ok line ∈ cursor.lines → History.Bare line
  held : ∀ entry ∈ session.memory.history.entries, History.Bare entry
  file : ∀ text, files.readText path = .ok text →
    ∀ entry ∈ History.entriesOfText text, History.Bare entry

section Log

/-- A session that reads the text and has no file. -/
def reading (text : String) : Session Unit := {
  input := { source := .buffered false { bytes := Bytes.ofText text } }
  memory := { client := () } }

/-- The session that reads the text, with its history on a file. -/
def onLog (text : String) : Session Unit :=
  (((loadModule (.history 10 (some "log"))).runFrom (reading text)).runOn {}).1.2

private theorem shows_log : ({} : Host).Shows "log" ⟨.above 0, ["log"]⟩ {} ⟨{}, none⟩ :=
  Host.shows_of_name (by cbv) (by decide +kernel) (by decide +kernel) (by decide)

private theorem line_met : (((onLog "ls\n").run 2).exchangesWith Desk.answer ⟨{}, none⟩).all
    (fun exchange => exchange.1.isMet "log") = true := by
  decide +kernel

private theorem line_stopped :
    (((onLog "ls\n").run 2).run Desk.answer ⟨{}, none⟩).1.1 = .stopped .stopped := by
  rfl

private theorem line_entries :
    (((onLog "ls\n").run 2).run Desk.answer ⟨{}, none⟩).1.2.memory.history.entries = ["ls"] := by
  decide +kernel

private theorem return_met : (((onLog "x\r").run 2).exchangesWith Desk.answer ⟨{}, none⟩).all
    (fun exchange => exchange.1.isMet "log") = true := by
  decide +kernel

private theorem return_stopped :
    (((onLog "x\r").run 2).run Desk.answer ⟨{}, none⟩).1.1 = .stopped .stopped := by
  rfl

private theorem return_entries :
    (((onLog "x\r").run 2).run Desk.answer ⟨{}, none⟩).1.2.memory.history.entries = ["x\r"] := by
  decide +kernel

private theorem return_kept :
    (((onLog "x\r").run 2).run Desk.answer ⟨{}, none⟩).2.file = some (Bytes.ofText "x\r\n") := by
  decide +kernel

private theorem opening_met (console : Console) :
    (((onLog "").shell.hooks.runPreloop.runFrom (onLog "").memory).exchangesWith Desk.answer
      ⟨console, some (Bytes.ofText "x\r\n")⟩).all (fun exchange => exchange.1.isMet "log") = true := by
  rfl

private theorem opening_entries (console : Console) :
    let opened := ((onLog "").shell.hooks.runPreloop.runFrom (onLog "").memory).run Desk.answer
      ⟨console, some (Bytes.ofText "x\r\n")⟩
    opened.1.1 = .ok () ∧ opened.1.2.history.entries = ["x"] := by
  exact ⟨rfl, rfl⟩

end Log

/-- What one session remembers is what the next one finds, if no carriage return stands at the end of a
line. When the loop has come to an outcome, all hooks after it have been given the same entries, and a
fresh session on the file holds these entries after the hooks before its loop, unless one of the
client's fails in front of the reading, just when all of them are clean. Entries that were read from a
buffer, or came from the file, are clean when they are bare. -/
theorem next_session_finds_entries {session : Session σ} {host : Host} {outcome : Outcome}
    (guards : session.Guards path front host)
    (reflects : session.memory.history.Reflects limit earlier)
    (saver : ∃ hook ∈ session.shell.hooks.postloop, hook.action = .saveHistory path) (turns : Nat)
    (stopped : ((session.run turns).runOn host).1.1 = .stopped outcome) :
    let after := ((session.run turns).runOn host).1.2
    let left := ((session.run turns).runOn host).2
    let entries := after.memory.history.entries
    (∃ steps calls, session.LoopCalls ((session.run turns).exchangesWith Host.answer host) steps calls
        (.stopped outcome) after ∧
      ∀ call ∈ calls, ∀ hook, call.callee = .loopHook .postloop hook →
        call.before.history.entries = entries) ∧
    (∀ {τ : Type} (next : Session τ) (ahead : List (Named (LoopHook τ))) (again : Host),
      next.shell.Remembers path ahead → next.memory.history = .ofLimit limit →
      left.Keeps path again →
      let opened := (next.shell.hooks.runPreloop.runFrom next.memory).runOn again
      (∃ failure calls, opened.1.1 = .error failure ∧
        LoopHookCalls .preloop ahead next.memory calls (.error failure) opened.1.2) ∨
      (opened.1.2.history.entries = entries ↔ ∀ entry ∈ entries, History.Clean entry)) ∧
    ∀ cursor, session.Reads cursor →
      ((∀ entry ∈ entries, History.Clean entry) ↔ ∀ entry ∈ entries, History.Bare entry) ∧
      (session.BareLines cursor host.files path → ∀ entry ∈ entries, History.Clean entry) := by
  intro after left entries
  have answered := Program.answered_run Host.answer (session.run turns) host
  have ran := Program.runs_run_pair Host.answer (session.run turns) host
  rw [show ((session.run turns).run Host.answer host).1.1 = .stopped outcome from stopped] at ran
  obtain ⟨steps, calls, told, _⟩ := runs_run_iff_calls.mp ran
  obtain ⟨stored, given⟩ := told.stores guards saver answered
  have known := told.passes.reflects reflects
  have last : entries = History.trim limit (History.log (earlier ++ calls)) := known.entries
  have kept : History.trim limit entries = entries := by
    rw [last, History.trim_trim]
  refine ⟨⟨steps, calls, told, ?given⟩, ?found, ?clean⟩
  case given =>
    intro call member hook callee
    exact congrArg History.entries (given call member hook callee)
  case found =>
    intro τ next ahead again remembers fresh keeps opened
    have opens := Program.answered_run Host.answer (next.shell.hooks.runPreloop.runFrom next.memory) again
    have opening : next.shell.hooks.runPreloop.Runs next.memory _ opened.1.1 opened.1.2 :=
      Program.runs_run_pair Host.answer _ again
    obtain ⟨made, called, asked⟩ :=
      loopHooksRun_iff_calls.mp (HookTable.runs_loop_iff.mp opening)
    rw [asked] at opens
    have stored : again.Stores path entries := keeps.same.trans stored
    rcases remembers.finds called opens keeps.log fresh stored with ⟨failure, broken, failed⟩ | found
    · exact .inl ⟨failure, made, broken, failed⟩
    · rw [found]
      exact .inr (History.trim_entriesOfText_fileOf_iff limit kept)
  case clean =>
    intro cursor reads
    obtain ⟨interactive, source⟩ := reads.source
    have wanted := fun wanted =>
      told.entries_as_wanted wanted guards reads.records reflects answered source
    have recordable : ∀ entry ∈ entries, History.Recordable entry := by
      refine wanted _ ?_ ?_ reads.held ?_
      · exact fun line member filled => ⟨reads.queue line member, filled⟩
      · exact fun line member filled => ⟨ByteCursor.unbroken_of_mem_lines member, filled⟩
      · exact fun text read entry found => History.recordable_of_mem_entriesOfText found
    have same : (∀ entry ∈ entries, History.Clean entry) ↔ ∀ entry ∈ entries, History.Bare entry :=
      forall₂_congr fun entry member => (recordable entry member).clean_iff
    refine ⟨same, fun bare => same.mpr ?_⟩
    exact wanted _ (fun line member _ => bare.queue line member)
      (fun line member _ => bare.lines line member) bare.held bare.file

/-- One line, read from a buffer and found again. -/
theorem next_session_finds_entries_of_line :
    let session := onLog "ls\n"
    let ran := (session.run 2).runOn {}
    ran.1.1 = .stopped .stopped ∧ ran.1.2.memory.history.entries = ["ls"] ∧
      (((onLog "").shell.hooks.runPreloop.runFrom (onLog "").memory).runOn
        ran.2).1.2.history.entries = ["ls"] := by
  intro session ran
  have attaches : ∀ text, (loadModule (.history 10 (some "log"))).Runs (reading text) _ (.ok ())
      (onLog text) := fun text => Program.runs_run_pair Host.answer _ {}
  have client : ∀ text, (reading text).shell.ClientAsks (Request.Spares "log") := by
    exact fun text => ⟨nofun, nofun, nofun, nofun, nofun, nofun, nofun, nofun⟩
  have clients : ∀ text, ∀ hook ∈ (reading text).shell.hooks.preloop ++
      (reading text).shell.hooks.postloop, hook.action.IsClients := by
    intro text hook member
    cases member
  have log : ({} : Host).LogSpares "log" := .silent rfl
  obtain ⟨guards, _⟩ := guards_of_loadModule (clients "ls\n") (client _) trivial rfl (attaches _) log
  obtain ⟨again, fresh⟩ := guards_of_loadModule (clients "") (client _) trivial rfl (attaches _) log
  have reflects : session.memory.history.Reflects 10 ([] : List (Call Unit)) :=
    History.reflects_ofLimit 10
  obtain ⟨same, _⟩ := shows_log.runOn_of_met line_met
  have stopped : ran.1.1 = .stopped .stopped := (congrArg Prod.fst same).trans line_stopped
  have entries : ran.1.2.memory.history.entries = ["ls"] :=
    (congrArg (fun result => result.2.memory.history.entries) same).trans line_entries
  obtain ⟨⟨_, _, told, _⟩, finds, _⟩ := next_session_finds_entries guards reflects
    ⟨_, List.mem_singleton_self _, rfl⟩ 2 stopped
  have left := guards.loop reflects told (Program.answered_run Host.answer _ {})
  have clean : ∀ entry ∈ ran.1.2.memory.history.entries, History.Clean entry := by
    rw [entries]
    exact List.forall_mem_singleton.mpr ⟨⟨by decide, by decide⟩, by decide⟩
  refine ⟨stopped, entries, ?_⟩
  rcases finds (onLog "") [] _ again.shell fresh (Host.keeps_refl left.log) with
    ⟨_, _, _, none⟩ | found
  · cases none
  · exact (found.mpr clean).trans entries

/-- The carriage return at the end of a line is gone when the line is found again. -/
theorem return_not_found_again :
    let session := onLog "x\r"
    let ran := (session.run 2).runOn {}
    let opened := ((onLog "").shell.hooks.runPreloop.runFrom (onLog "").memory).runOn ran.2
    ran.1.1 = .stopped .stopped ∧ ran.1.2.memory.history.entries = ["x\r"] ∧
      opened.1.1 = .ok () ∧ opened.1.2.history.entries = ["x"] := by
  intro session ran opened
  obtain ⟨same, _, shows⟩ := shows_log.runOn_of_met return_met
  generalize left : (((onLog "x\r").run 2).run Desk.answer ⟨{}, none⟩).2 = desk at shows
  obtain ⟨console, file⟩ := desk
  obtain rfl : file = some (Bytes.ofText "x\r\n") := by
    rw [← return_kept, left]
  obtain ⟨found, _⟩ := shows.runOn_of_met (opening_met console)
  obtain ⟨going, entries⟩ := opening_entries console
  refine ⟨(congrArg Prod.fst same).trans return_stopped, ?_, ?_, ?_⟩
  · exact (congrArg (fun result => result.2.memory.history.entries) same).trans return_entries
  · exact (congrArg Prod.fst found).trans going
  · exact (congrArg (fun result => result.2.history.entries) found).trans entries

end Session

end LineShell
