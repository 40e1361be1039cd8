import LineShell.Proofs.Desk
import LineShell.Proofs.Requests
/-!
Hosts on which a file is spared. Where the log is kept apart from a file, only a request that is made
for the file changes it.
-/

namespace LineShell

variable {α : Type}

namespace Files

variable {files : Files} {location start : Location} {path : String}

/-- A file that is there closes every way, whatever it holds. -/
theorem walk_put_of_file (held : files.node? location = some (.file before)) (content : Bytes) :
    (files.put location (.file content)).walk start names = files.walk start names := by
  have free : files.node? location ≠ some .directory := by
    rw [held]
    nofun
  induction names generalizing start with
  | nil => rfl
  | cons name names ih =>
    rw [walk, walk]
    by_cases same : start = location
    · rw [same, node?_put_self free, held]
    · rw [node?_put_of_ne same]
      simp only [ih]

theorem read_put_of_file (held : files.node? location = some (.file before)) (content : Bytes)
    (apart : ∀ there, files.locate path = .ok there → there ≠ location) :
    (files.put location (.file content)).read path = files.read path := by
  have located : (files.put location (.file content)).locate path = files.locate path := by
    unfold locate
    rw [walk_put_of_file held]
  unfold read
  rw [located]
  cases leads : files.locate path with
  | error error => rfl
  | ok there =>
    simp only [bind, Except.bind]
    rw [node?_put_of_ne (apart there leads)]

theorem locate_name {name : String} (plain : name.splitOn "/" = [name])
    (relative : name.startsWith "/" = false) (down : name ≠ "" ∧ name ≠ "." ∧ name ≠ "..") :
    files.locate name = .ok ⟨.above 0, [name]⟩ := by
  obtain ⟨filled, here, up⟩ := down
  simp [locate, filled, BaseDirectory.ofPath, relative, plain, walk, node?, here, up,
    Location.child]

/-- The text of the file that a path names. -/
def readText (files : Files) (path : String) : Except DeviceError String := do
  match Bytes.toText? (← files.read path) with
  | none => .error .invalidText
  | some text => .ok text

/-- The file that a path names holds text, or is missing. -/
def Readable (files : Files) (path : String) : Prop :=
  ∀ error, files.readText path = .error error → error = .notFound

theorem readText_of_error (failed : files.read path = .error error) :
    files.readText path = .error error := by
  rw [readText, failed]
  rfl

theorem readText_of_invalid (found : files.read path = .ok bytes)
    (invalid : Bytes.toText? bytes = none) : files.readText path = .error .invalidText := by
  rw [readText, found]
  simp only [bind, Except.bind, invalid]

theorem readText_of_valid (found : files.read path = .ok bytes)
    (valid : Bytes.toText? bytes = some text) : files.readText path = .ok text := by
  rw [readText, found]
  simp only [bind, Except.bind, valid]

theorem readable_of_valid (found : files.read path = .ok bytes)
    (valid : Bytes.toText? bytes = some text) : files.Readable path := by
  intro error unreadable
  cases (readText_of_valid found valid).symm.trans unreadable

theorem readable_of_missing (missing : files.read path = .error .notFound) :
    files.Readable path := by
  intro error unreadable
  cases (readText_of_error missing).symm.trans unreadable
  rfl

theorem Readable.of_same {others : Files} (readable : files.Readable path)
    (same : others.read path = files.read path) : others.Readable path := by
  intro error unreadable
  rw [readText, same] at unreadable
  exact readable error unreadable

end Files

/-- Keeping a record does not change what is at the end of a path. -/
inductive Journal.Spares (journal : Journal) (files : Files) (path : String) : Prop where
  | silent (off : journal.threshold = none)
  | memory (kept : journal.target = .memory)
  | console (kept : journal.target = .console)
  | file (kept : journal.target = .file log) (leads : files.locateFile log = .ok place)
      (held : files.node? place = some (.file before))
      (apart : ∀ there, files.locate path = .ok there → there ≠ place)

/-- The host's log is kept apart from the file that a path names. -/
def Host.LogSpares (host : Host) (path : String) : Prop :=
  host.journal.Spares host.files path

/-- A host that still has the same in the file, and its log apart from it. -/
structure Host.Keeps (path : String) (before after : Host) : Prop where
  log : after.LogSpares path
  same : after.files.read path = before.files.read path

/-- Wherever it is asked, the request leaves the file alone, and the log apart from it. -/
def Request.Spares (path : String) (asked : Request) : Prop :=
  ∀ host : Host, host.LogSpares path → host.Keeps path (Host.answer asked host).2

namespace Host

variable {host middle after : Host} {path : String}

theorem keeps_refl (log : host.LogSpares path) : host.Keeps path host :=
  ⟨log, rfl⟩

theorem Keeps.trans (first : host.Keeps path middle) (second : middle.Keeps path after) :
    host.Keeps path after :=
  ⟨second.log, second.same.trans first.same⟩

theorem keeps_write (log : host.LogSpares path) (console : ConsoleId) (channel : Channel)
    (text : String) : host.Keeps path (host.write console channel text).2 := by
  unfold Host.write
  cases host.consoles[console]? with
  | none => exact keeps_refl log
  | some found => exact ⟨log, rfl⟩

theorem keeps_record (log : host.LogSpares path) (entry : Log.Record) :
    host.Keeps path (host.record entry) := by
  by_cases admitted : host.journal.threshold.admits entry.level = true
  · rw [Host.record, if_pos admitted]
    cases log with
    | silent off =>
      rw [off] at admitted
      cases admitted
    | memory kept =>
      rw [kept]
      exact ⟨.memory kept, rfl⟩
    | console kept =>
      simp only [kept]
      exact keeps_write (.console kept) 0 .err entry.line
    | @file named place before kept leads held apart =>
      have free : host.files.node? place ≠ some .directory := by
        simp [held]
      rw [kept]
      simp only [Files.append_of_locateFile leads held]
      refine ⟨.file kept (Files.locateFile_put free leads) (Files.node?_put_self free _) ?_, ?_⟩
      · intro there leadsThere
        unfold Files.locate at leadsThere apart
        rw [Files.walk_put_of_file held] at leadsThere
        exact apart there leadsThere
      · exact Files.read_put_of_file held _ apart
  · rw [Host.record, if_neg admitted]
    exact keeps_refl log

end Host

theorem Request.spares_lenient (path : String) : Request.Lenient (Request.Spares path) where
  write console channel text _ log := Host.keeps_write log console channel text
  load _ _ log := Host.keeps_refl log
  record entry _ log := Host.keeps_record log entry

namespace Host

variable {host middle after reached : Host} {path : String}

/-- Saving the file is the one request of a session that changes it: it holds what has been saved, or
the same as before. The log stays apart. -/
theorem answer_save (log : host.LogSpares path) (content : Bytes) :
    (Host.answer (.save path content) host).2.LogSpares path ∧
      ((Host.answer (.save path content) host).2.files.read path = host.files.read path ∨
        (Host.answer (.save path content) host).2.files.read path = .ok content) := by
  cases leads : host.files.locateFile path with
  | error error =>
    have refused : host.files.save path content = .error error := by
      rw [Files.save, leads]
      rfl
    have unchanged : (Host.answer (.save path content) host).2 = host := by
      simp only [Host.answer, refused]
    rw [unchanged]
    exact ⟨log, .inl rfl⟩
  | ok there =>
    obtain ⟨_, located, free⟩ := Files.locateFile_eq_ok_iff.mp leads
    have still : (host.files.put there (.file content)).locateFile path = .ok there :=
      Files.locateFile_put free leads
    simp only [Host.answer, Files.save_of_locateFile leads]
    refine ⟨?_, .inr ?_⟩
    · cases log with
      | silent off => exact .silent off
      | memory kept => exact .memory kept
      | console kept => exact .console kept
      | file kept leadsLog held apart =>
        have different := apart there located
        have stays := (Files.node?_put_of_ne (Ne.symm different) (.file content)).trans held
        refine .file kept (Files.locateFile_put free leadsLog) stays ?_
        intro other leadsOther
        obtain ⟨_, same, _⟩ := Files.locateFile_eq_ok_iff.mp still
        cases same.symm.trans leadsOther
        exact different
    · rw [Files.read_of_locateFile still, Files.node?_put_self free]

/-- Requests that spare the file, one after the other, leave it as it is. -/
theorem keeps_of_answered (answered : Program.Answered Host.answer host exchanges reached)
    (spare : ∀ exchange ∈ exchanges, exchange.1.Spares path) (log : host.LogSpares path) :
    host.Keeps path reached := by
  induction answered with
  | none => exact keeps_refl log
  | next given rest ih =>
    have first := spare _ List.mem_cons_self _ log
    rw [given] at first
    have later := fun exchange member => spare exchange (List.mem_cons_of_mem _ member)
    exact first.trans (ih later first.log)

end Host

end LineShell
