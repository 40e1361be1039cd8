import LineShell.Host
import LineShell.Proofs.FileTree
import LineShell.Proofs.Runs
import LineShell.Proofs.Unlogged
/-!
Hosts as a session sees them that uses one console and one file: a desk with both on it. The host's
log is not on the desk, as long as it is kept apart from the file.
-/

namespace LineShell

variable {α : Type}

/-- A console and a file, which may be missing. -/
structure Desk where
  console : Console
  file : Option Bytes
  deriving DecidableEq, Repr

/-- A request that is met at the desk: to write to the first console, or to read or write the file. -/
def Request.AtDesk (path : String) : Request → Prop
  | .write console _ _ => console = 0
  | .load named => named = path
  | .save named _ => named = path
  | .record _ => False
  | .startLog .. => False

/-- A request to write to the first console. -/
def Request.Writes : Request → Prop
  | .write console _ _ => console = 0
  | _ => False

/-- Whether a request is to keep a record or is met at the desk. -/
def Request.isMet (path : String) : Request → Bool
  | .write console _ _ => console == 0
  | .load named => named == path
  | .save named _ => named == path
  | .record _ => true
  | .startLog .. => false

theorem Request.atDesk_of_isMet {asked : Request} {path : String} (met : asked.isMet path = true) :
    asked.AtDesk path ∨ ∃ entry, asked = .record entry := by
  cases asked with
  | write | load | save => exact .inl (beq_iff_eq.mp met)
  | record entry => exact .inr ⟨entry, rfl⟩
  | startLog => cases met

theorem Request.Writes.atDesk {asked : Request} (writes : asked.Writes) (path : String) :
    asked.AtDesk path := by
  cases asked with
  | write console channel text => exact writes
  | load | save | record | startLog => cases writes

/-- How requests are met at the desk. Logs are not kept there. -/
def Desk.answer : (asked : Request) → Desk → asked.Answer × Desk
  | .write _ channel text, desk =>
    ((desk.console.write channel text).1,
      { desk with console := (desk.console.write channel text).2 })
  | .load _, desk => (desk.file.elim (.error .notFound) .ok, desk)
  | .save _ content, desk => (.ok (), { desk with file := some content })
  | .record _, desk => ((), desk)
  | .startLog .., desk => (.ok (), desk)

theorem Program.run_map {σ β : Type} (answer : (asked : Request) → σ → asked.Answer × σ)
    (change : α → β) (program : Program α) (state : σ) :
    (change <$> program).run answer state =
      (change (program.run answer state).1, (program.run answer state).2) := by
  rw [map_eq_pure_bind, run_bind, run_pure]

/-- What only writes to the console does not depend on the file, and leaves it. -/
theorem Program.run_withFile {program : Program α} (asks : program.Asks Request.Writes)
    (desk : Desk) (file : Option Bytes) :
    program.run Desk.answer { desk with file } =
      ((program.run Desk.answer desk).1, { (program.run Desk.answer desk).2 with file }) := by
  induction program generalizing desk with
  | done value => rfl
  | ask asked next ih =>
    obtain ⟨writes, rest⟩ := asks
    cases asked with
    | write console channel text =>
      exact ih _ (rest _) (Desk.answer (.write console channel text) desk).2
    | load | save | record | startLog => cases writes

/-- The log is kept apart from a place in the tree. It may be kept on the console that is found on
the host: then the console that is shown is the same but for what its error channel has accepted, and
neither fails on that channel. -/
inductive Journal.Apart (journal : Journal) (files : Files) (there : Location)
    (found shown : Console) : Prop where
  | silent (off : journal.threshold = none) (same : found = shown)
  | memory (kept : journal.target = .memory) (same : found = shown)
  | file (kept : journal.target = .file log) (leads : files.locateFile log = .ok place)
      (held : files.node? place = some (.file before)) (apart : place ≠ there)
      (same : found = shown)
  | console (kept : journal.target = .console) (steady : found.current.err.fault = none)
      (steadyToo : shown.current.err.fault = none) (same : found.current.out = shown.current.out)

/-- The host shows a desk: the path leads to the file's place, and the console found on the host is
the desk's, the log aside. -/
structure Host.Shows (host : Host) (path : String) (there : Location) (found : Console)
    (desk : Desk) : Prop where
  leads : host.files.locateFile path = .ok there
  held : host.files.node? there = desk.file.map .file
  opened : host.consoles[0]? = some found
  apart : host.journal.Apart host.files there found desk.console

theorem Sink.write_of_steady {sink : Sink} (steady : sink.fault = none) (data : Bytes) :
    sink.write data = (.ok (), { sink with accepted := sink.accepted ++ data }) := by
  rw [write, steady]

namespace Journal.Apart

variable {journal : Journal} {files : Files} {there : Location} {found shown : Console}

theorem write (apart : journal.Apart files there found shown) (channel : Channel) (text : String) :
    (found.write channel text).1 = (shown.write channel text).1 ∧
      journal.Apart files there (found.write channel text).2 (shown.write channel text).2 := by
  cases apart with
  | silent off same => exact ⟨by rw [same], .silent off (by rw [same])⟩
  | memory kept same => exact ⟨by rw [same], .memory kept (by rw [same])⟩
  | file kept leads held apart same =>
    exact ⟨by rw [same], .file kept leads held apart (by rw [same])⟩
  | console kept steady steadyToo same =>
    cases channel with
    | out =>
      have sinks : found.current.out.write (Bytes.ofText text) =
          shown.current.out.write (Bytes.ofText text) := by rw [same]
      refine ⟨?_, .console kept ?_ ?_ ?_⟩
      · simp only [Console.write, sinks]
      · simp only [Console.write, steady]
      · simp only [Console.write, steadyToo]
      · simp only [Console.write, sinks]
    | err =>
      have taken := Sink.write_of_steady steady (Bytes.ofText text)
      have takenToo := Sink.write_of_steady steadyToo (Bytes.ofText text)
      refine ⟨?_, .console kept ?_ ?_ same⟩
      · simp only [Console.write, taken, takenToo]
      · simp only [Console.write, taken, steady]
      · simp only [Console.write, takenToo, steadyToo]

theorem put (apart : journal.Apart files there found shown)
    (free : files.node? there ≠ some .directory) (content : Bytes) :
    journal.Apart (files.put there (.file content)) there found shown := by
  cases apart with
  | silent off same => exact .silent off same
  | memory kept same => exact .memory kept same
  | file kept leads held apart same =>
    have still := (Files.node?_put_of_ne apart (.file content)).trans held
    exact .file kept (Files.locateFile_put free leads) still apart same
  | console kept steady steadyToo same => exact .console kept steady steadyToo same

end Journal.Apart

namespace Host.Shows

variable {host : Host} {path : String} {there : Location} {found : Console} {desk : Desk}

theorem free (shows : host.Shows path there found desk) :
    host.files.node? there ≠ some .directory :=
  (Files.locateFile_eq_ok_iff.mp shows.leads).2.2

theorem written (shows : host.Shows path there found desk) (channel : Channel) (text : String) :
    host.write 0 channel text = ((found.write channel text).1,
      { host with consoles := host.consoles.set 0 (found.write channel text).2 }) := by
  rw [Host.write, shows.opened]

theorem opened_set (shows : host.Shows path there found desk) (console : Console) :
    (host.consoles.set 0 console)[0]? = some console :=
  List.getElem?_set_self (List.getElem?_eq_some_iff.mp shows.opened).1

theorem write (shows : host.Shows path there found desk) (channel : Channel) (text : String) :
    (host.write 0 channel text).1 = (desk.console.write channel text).1 ∧
      (host.write 0 channel text).2.Shows path there (found.write channel text).2
        { desk with console := (desk.console.write channel text).2 } := by
  obtain ⟨alike, apart⟩ := shows.apart.write channel text
  rw [shows.written]
  exact ⟨alike, shows.leads, shows.held, shows.opened_set _, apart⟩

theorem load (shows : host.Shows path there found desk) :
    host.files.read path = desk.file.elim (.error .notFound) .ok := by
  rw [Files.read_of_locateFile shows.leads, shows.held]
  cases desk.file <;> rfl

theorem save (shows : host.Shows path there found desk) (content : Bytes) :
    host.files.save path content = .ok (host.files.put there (.file content)) ∧
      Host.Shows { host with files := host.files.put there (.file content) } path there found
        { desk with file := some content } := by
  refine ⟨Files.save_of_locateFile shows.leads, ?_, ?_, shows.opened, ?_⟩
  · exact Files.locateFile_put shows.free shows.leads
  · exact Files.node?_put_self shows.free _
  · exact shows.apart.put shows.free content

theorem record (shows : host.Shows path there found desk) (entry : Log.Record) :
    ∃ found, (host.record entry).Shows path there found desk := by
  by_cases admitted : host.journal.threshold.admits entry.level = true
  · rw [Host.record, if_pos admitted]
    cases shows.apart with
    | silent off same =>
      rw [off] at admitted
      cases admitted
    | memory kept same =>
      rw [kept]
      exact ⟨found, shows.leads, shows.held, shows.opened, .memory kept same⟩
    | @file log place before kept leads held apart same =>
      -- The log's file is there already, so appending to it opens no way and closes none.
      have free : host.files.node? place ≠ some .directory := by
        rw [held]
        nofun
      rw [kept]
      simp only [Files.append_of_locateFile leads held]
      refine ⟨found, Files.locateFile_put free shows.leads, ?_, shows.opened, ?_⟩
      · exact (Files.node?_put_of_ne (Ne.symm apart) _).trans shows.held
      · exact .file kept (Files.locateFile_put free leads) (Files.node?_put_self free _) apart same
    | console kept steady steadyToo same =>
      have taken := Sink.write_of_steady steady (Bytes.ofText entry.line)
      simp only [kept, shows.written]
      refine ⟨_, shows.leads, shows.held, shows.opened_set _, .console kept ?_ steadyToo same⟩
      simp only [Console.write, taken, steady]
  · rw [Host.record, if_neg admitted]
    exact ⟨found, shows⟩

/-- A request for what is on the desk is answered on the host as at the desk. -/
theorem answer {asked : Request} (shows : host.Shows path there found desk)
    (met : asked.AtDesk path) :
    (Host.answer asked host).1 = (Desk.answer asked desk).1 ∧
      ∃ found, (Host.answer asked host).2.Shows path there found (Desk.answer asked desk).2 := by
  cases asked with
  | write console channel text =>
    obtain rfl : console = 0 := met
    obtain ⟨alike, written⟩ := shows.write channel text
    exact ⟨alike, _, written⟩
  | load named =>
    obtain rfl : named = path := met
    exact ⟨shows.load, found, shows⟩
  | save named content =>
    obtain rfl : named = path := met
    obtain ⟨saved, written⟩ := shows.save content
    simp only [Host.answer, saved]
    exact ⟨rfl, found, written⟩
  | record | startLog => cases met

/-- A program that without its log only uses what is on the desk comes to the same on the host as at
the desk, and the host shows what is on the desk then. -/
theorem runOn {program spoken : Program α} (shows : host.Shows path there found desk)
    (same : program.unlogged = spoken) (asks : spoken.Asks (Request.AtDesk path)) :
    (program.runOn host).1 = (spoken.run Desk.answer desk).1 ∧
      ∃ found, (program.runOn host).2.Shows path there found (spoken.run Desk.answer desk).2 := by
  subst same
  unfold Program.runOn
  induction program generalizing host desk found with
  | done value => exact ⟨rfl, found, shows⟩
  | ask asked next ih =>
    cases asked with
    | record entry =>
      obtain ⟨kept, still⟩ := shows.record entry
      exact ih () still asks
    | write | load | save | startLog =>
      obtain ⟨alike, kept, still⟩ := shows.answer asks.1
      have onward := ih (Host.answer _ host).1 still (asks.2 _)
      rw [congrArg (fun answer => (next answer).unlogged) alike] at onward
      exact onward

/-- A run that only asks for what is met at the desk comes to the same on a host that shows it. -/
theorem runOn_of_met {program : Program α} (shows : host.Shows path there found desk)
    (met : (program.exchangesWith Desk.answer desk).all (fun exchange => exchange.1.isMet path) = true) :
    (program.runOn host).1 = (program.run Desk.answer desk).1 ∧
      ∃ found, (program.runOn host).2.Shows path there found (program.run Desk.answer desk).2 := by
  induction program generalizing host desk found with
  | done value => exact ⟨rfl, found, shows⟩
  | ask asked next ih =>
    obtain ⟨first, rest⟩ := Bool.and_eq_true_iff.mp met
    rcases Request.atDesk_of_isMet first with atDesk | ⟨entry, rfl⟩
    · obtain ⟨alike, kept, still⟩ := shows.answer atDesk
      have same : next (Host.answer asked host).1 = next (Desk.answer asked desk).1 :=
        congrArg next alike
      change ((next (Host.answer asked host).1).runOn (Host.answer asked host).2).1 = _ ∧
        ∃ found, ((next (Host.answer asked host).1).runOn (Host.answer asked host).2).2.Shows _ _ found _
      rw [same]
      exact ih _ still rest
    · obtain ⟨kept, still⟩ := shows.record entry
      exact ih () still rest

end Host.Shows

end LineShell
