import LineShell.Proofs.Alike
import LineShell.Proofs.HistoryLog
/-!
Sessions that remember. Whatever is done with a session that the history has been attached to, its
entries are the end of the log of all its calls, and these are the entries that are listed and saved.
-/

namespace LineShell

variable {σ : Type}

open LineShell.Action

namespace History

/-- Entries as a text of lines. -/
def linesText (entries : List String) : String :=
  String.join (entries.map (· ++ "\n"))

theorem listing_eq (history : History) (count : Option Nat) :
    history.listing count = linesText (count.elim history.entries history.entries.rtake) := by
  cases count <;> rfl

theorem intercalate_newline {entries : List String} (filled : entries ≠ []) :
    "\n".intercalate entries ++ "\n" = linesText entries := by
  induction entries with
  | nil => exact absurd rfl filled
  | cons first later ih =>
    cases later with
    | nil => simp [linesText, String.join_cons, String.join_nil]
    | cons second rest =>
      have inner := ih (by simp)
      rw [String.intercalate_cons_cons, String.append_assoc, String.append_assoc, inner]
      simp [linesText, String.join_cons, String.append_assoc]

theorem intercalate_newline_eq_empty {entries : List String} :
    "\n".intercalate entries = "" ↔ entries = [] ∨ entries = [""] := by
  cases entries with
  | nil => simp
  | cons first later =>
    cases later with
    | nil => simp
    | cons second rest => simp [String.intercalate_cons_cons, String.append_eq_empty_iff]

/-- A file of the history holds the entries, one to a line. An empty entry that is the only one
leaves the file empty. -/
theorem fileText_eq (history : History) :
    history.fileText = if history.entries = [""] then "" else linesText history.entries := by
  unfold fileText
  by_cases blank : "\n".intercalate history.entries = ""
  · simp only [blank, ↓reduceIte]
    rcases intercalate_newline_eq_empty.mp blank with none | lone
    · simp [none, linesText, String.join_nil]
    · simp [lone]
  · have filled : history.entries ≠ [] := fun none => blank (intercalate_newline_eq_empty.mpr (.inl none))
    have several : history.entries ≠ [""] :=
      fun lone => blank (intercalate_newline_eq_empty.mpr (.inr lone))
    simp only [blank, several, ↓reduceIte]
    exact intercalate_newline filled

/-- The text that a file of the history holds for some entries. -/
def fileOf (entries : List String) : String :=
  if entries = [""] then "" else linesText entries

/-- What a call shows of a history with some entries, which may have been restored or not: `hist`
lists its entries, all of them or the last ones, saving writes all of them, and the history's file
is read unless it has been read before. -/
structure Shows (entries : List String) (restored : Bool) (call : Call σ) : Prop where
  held : call.before.history.entries = entries
  listed : ∀ console statement count, call.callee = .command (.builtin .hist console) statement →
    Builtin.histArguments statement.arguments = .ok { clear := false, count } →
    ∃ written, call.asked =
      [⟨.write console .out (linesText (count.elim entries entries.rtake)), written⟩]
  cleared : ∀ console statement count, call.callee = .command (.builtin .hist console) statement →
    Builtin.histArguments statement.arguments = .ok { clear := true, count } → call.asked = []
  saved : ∀ point name path, call.callee = .loopHook point ⟨name, .saveHistory path⟩ →
    ∃ answer, call.asked = [⟨.save path (Bytes.ofText (fileOf entries)), answer⟩]
  read : ∀ point name path, call.callee = .loopHook point ⟨name, .restoreHistory path⟩ →
    if restored then call.asked = []
    else ∃ answer later, call.asked = ⟨.load path, answer⟩ :: later

theorem shows_of_runs {callee : Callee σ} {before after : Memory σ}
    (ran : callee.Runs before asked after) :
    Shows before.history.entries before.history.restored ⟨callee, before, asked, after⟩ := by
  refine ⟨rfl, ?listed, ?cleared, ?saved, ?read⟩
  case listed =>
    rintro console statement count rfl accepted
    obtain ⟨ended, ran⟩ := ran
    obtain ⟨_, worked, _⟩ := runs_map_iff.mp ran
    obtain ⟨asked, _⟩ := Builtin.runs_hist_list accepted worked
    rwa [listing_eq] at asked
  case cleared =>
    rintro console statement count rfl accepted
    obtain ⟨ended, ran⟩ := ran
    obtain ⟨_, worked, _⟩ := runs_map_iff.mp ran
    exact (Builtin.runs_hist_clear accepted worked).1
  case saved =>
    rintro point name path rfl
    obtain ⟨ended, ran⟩ := ran
    obtain ⟨saved, asked, _⟩ := runs_saveTo_iff.mp ran
    rw [fileText_eq] at asked
    exact ⟨saved, asked⟩
  case read =>
    rintro point name path rfl
    obtain ⟨ended, ran⟩ := ran
    have restores := runs_restoreFrom_iff.mp ran
    cases restores with
    | already again => rw [if_pos again]
    | missing first | unreadable first | invalid first | read first =>
      rw [if_neg (by simp [first])]
      exact ⟨_, _, rfl⟩

end History

namespace Session

/-- What a client may do between operations: give more input, bind commands and add hooks. That
leaves the history, and the hooks after the loop that are there. -/
structure Arranged (before after : Session σ) : Prop where
  history : after.memory.history = before.memory.history
  postloop : before.shell.hooks.postloop ⊆ after.shell.hooks.postloop

/-- Operations on a session, told with their calls: lines are executed, the loop is run, and the
client arranges things in between. -/
inductive Operated : Session σ → List (Call σ) → Session σ → Prop where
  | none : Operated session [] session
  | execute (told : session.shell.LineCalls line session.memory calls ended kept)
      (rest : Operated { session with memory := kept } later after) :
      Operated session (calls ++ later) after
  | loop (told : session.LoopCalls exchanges steps calls ending middle)
      (rest : Operated middle later after) : Operated session (calls ++ later) after
  | arrange (arranged : Arranged session middle) (rest : Operated middle calls after) :
      Operated session calls after

variable {session middle after : Session σ}

theorem Operated.append (first : session.Operated front middle) (second : middle.Operated back after) :
    session.Operated (front ++ back) after := by
  induction first with
  | none => exact second
  | execute told rest ih =>
    rw [List.append_assoc]
    exact .execute told (ih second)
  | loop told rest ih =>
    rw [List.append_assoc]
    exact .loop told (ih second)
  | arrange arranged rest ih => exact .arrange arranged (ih second)

theorem Operated.passes (operated : session.Operated calls after) :
    History.Passes session.memory.history calls after.memory.history := by
  induction operated with
  | none => exact .none
  | execute told rest ih => exact told.passes.append ih
  | loop told rest ih => exact told.passes.append ih
  | arrange arranged rest ih => exact arranged.history ▸ ih

theorem LoopCalls.shell_eq (looped : session.LoopCalls exchanges steps calls ending after) :
    after.shell = session.shell := by
  cases looped <;> rfl

theorem Operated.postloop (operated : session.Operated calls after) :
    session.shell.hooks.postloop ⊆ after.shell.hooks.postloop := by
  induction operated with
  | none => exact List.Subset.refl _
  | execute told rest ih => exact ih
  | loop told rest ih =>
    rw [told.shell_eq] at ih
    exact ih
  | arrange arranged rest ih => exact List.Subset.trans arranged.postloop ih

/-- The loop is not left with an outcome unless all hooks after it have succeeded. -/
theorem LoopCalls.call_of_postloop {hook : Named (LoopHook σ)}
    (looped : session.LoopCalls exchanges steps calls (.stopped outcome) after)
    (member : hook ∈ session.shell.hooks.postloop) :
    ∃ front call back, calls = front ++ call :: back ∧ call.callee = .loopHook .postloop hook ∧
      hook.action.run.Runs call.before call.asked (.ok ()) call.after := by
  generalize whole : Ending.stopped outcome = ending at looped
  cases looped with
  | preloopFailed => cases whole
  | ended before took going => exact absurd whole.symm (going outcome)
  | @closed first _ _ made _ _ _ closing _ before took closed =>
    cases closing with
    | error failure => cases whole
    | ok _ =>
      obtain ⟨front, call, back, _, _, rfl, called, ran⟩ := CallsThrough.call_of_mem closed member
      exact ⟨first ++ (made ++ front), call, back, by simp only [List.append_assoc], called, ran⟩

/-- A command is bound to a name that has none. Otherwise it is refused, and nothing has changed. -/
theorem addCommand_cases {name : String} {command : Command σ}
    (ran : (addCommand name command).Runs session asked ended after) :
    (session.shell.commands.contains name = false ∧ ended = .ok () ∧
      after = { session with shell := { session.shell with
        commands := session.shell.commands.insert name command } }) ∨
    (session.shell.commands.contains name = true ∧ ended = .error (.alreadyBound name) ∧
      after = session) := by
  rw [addCommand, runs_get_bind_iff] at ran
  cases taken : session.shell.commands.contains name with
  | true =>
    simp only [taken, ↓reduceIte] at ran
    rcases runs_bind_iff.mp ran with ⟨_, thrown, rfl⟩ | ⟨_, _, _, _, thrown, _⟩
    · obtain ⟨_, same, rfl⟩ := runs_throw_iff.mp thrown
      cases same
      exact .inr ⟨rfl, rfl, rfl⟩
    · obtain ⟨_, impossible, _⟩ := runs_throw_iff.mp thrown
      cases impossible
  | false =>
    simp only [taken, Bool.false_eq_true, ↓reduceIte] at ran
    obtain ⟨_, stored, _⟩ := runs_record_bind_iff.mp ran
    obtain ⟨_, rfl, rfl⟩ := Program.runs_pure_pair_iff.mp stored
    exact .inl ⟨rfl, rfl, rfl⟩

theorem addCommand_of_runs {name : String} {command : Command σ}
    (bound : (addCommand name command).Runs session asked (.ok ()) after) :
    after = { session with shell := { session.shell with
      commands := session.shell.commands.insert name command } } := by
  rcases addCommand_cases bound with ⟨_, _, same⟩ | ⟨_, impossible, _⟩
  · exact same
  · cases impossible

theorem bindBuiltin_of_runs {builtin : Builtin}
    (bound : (Module.bindBuiltin builtin).Runs session asked (.ok ()) after) :
    after = { session with shell := { session.shell with
      commands := session.shell.commands.insert builtin.name
        (.builtin builtin session.shell.console) } } := by
  rw [Module.bindBuiltin, runs_get_bind_iff, runs_mapError_ok_iff] at bound
  exact addCommand_of_runs bound

theorem loadModule_of_runs {module : Module σ} (unloaded : session.hasModule module.name = false)
    (loaded : (loadModule module).Runs session asked (.ok ()) after) :
    ∃ others middle, module.load.Runs session others (.ok ()) middle ∧
      after = { middle with shell := { middle.shell with
        modules := middle.shell.modules.insert module.name () } } := by
  have absent : session.shell.modules.contains module.name = false := unloaded
  rw [loadModule, runs_get_bind_iff] at loaded
  simp only [absent, Bool.false_eq_true, ↓reduceIte] at loaded
  rcases runs_bind_iff.mp loaded with
    ⟨_, _, impossible⟩ | ⟨others, _, middle, _, worked, counted, _⟩
  · cases impossible
  · have noted := runs_modify_bind_iff.mp counted
    obtain ⟨_, _, same⟩ := runs_record_iff.mp noted
    exact ⟨others, middle, runs_mapError_ok_iff.mp worked, same⟩

/-- Attaching the history binds `hist`, starts the history empty and adds its hooks. -/
theorem loadModule_history_eq {base fresh : Session σ} {path : Option String}
    (unloaded : base.hasModule (Module.history limit path : Module σ).name = false)
    (loaded : (loadModule (.history limit path)).Runs base asked (.ok ()) fresh) :
    ∃ modules, fresh = { base with
      shell := { base.shell with
        commands := base.shell.commands.insert Builtin.hist.name
          (.builtin .hist base.shell.console)
        hooks := Module.addHistoryHooks path base.shell.hooks
        modules }
      memory := { base.memory with history := .ofLimit limit } } := by
  obtain ⟨others, middle, worked, rfl⟩ := loadModule_of_runs unloaded loaded
  rcases runs_bind_iff.mp worked with
    ⟨_, _, impossible⟩ | ⟨_, _, bound, _, binding, onward, _⟩
  · cases impossible
  · obtain rfl := bindBuiltin_of_runs binding
    have emptied := runs_modify_bind_iff.mp onward
    obtain ⟨_, _, rfl⟩ := runs_modify_iff.mp emptied
    exact ⟨_, rfl⟩

theorem loadModule_history {base fresh : Session σ} {path : Option String}
    (unloaded : base.hasModule (Module.history limit path : Module σ).name = false)
    (loaded : (loadModule (.history limit path)).Runs base asked (.ok ()) fresh) :
    fresh.memory.history = .ofLimit limit ∧
      fresh.shell.hooks = Module.addHistoryHooks path base.shell.hooks := by
  obtain ⟨modules, rfl⟩ := loadModule_history_eq unloaded loaded
  exact ⟨rfl, rfl⟩

/-- Whatever is done with a session that the history has been attached to, its entries are the end of
the log, as long as the limit allows. These are the entries that `hist` lists and that are saved, and
the file has been put in front of the log once at most. The loop is never left with an outcome without
the entries having been saved. -/
theorem history_refines_log (base fresh : Session σ) (limit : Nat) (path : Option String)
    (asked : List Exchange)
    (unloaded : base.hasModule (Module.history limit path : Module σ).name = false)
    (loaded : (loadModule (.history limit path)).Runs base asked (.ok ()) fresh) :
    (∀ calls session, fresh.Operated calls session →
      session.memory.history.entries = History.lastOf limit (History.log calls) ∧
      (History.events calls).countP HistoryEvent.isRestored ≤ 1 ∧
      ∀ front call back, calls = front ++ call :: back →
        History.Shows (History.lastOf limit (History.log front))
          ((History.events front).any HistoryEvent.isRestored) call) ∧
    (∀ calls session line exchanges ended after, fresh.Operated calls session →
      (session.execute line).Runs exchanges (ended, after) →
      ∃ more, session.shell.LineCalls line session.memory more ended after.memory ∧
        exchanges = more.flatMap Call.exchanges ∧ fresh.Operated (calls ++ more) after) ∧
    (∀ calls session turns exchanges ending after, fresh.Operated calls session →
      (session.run turns).Runs exchanges (ending, after) →
      ∃ steps more, session.LoopCalls exchanges steps more ending after ∧
        fresh.Operated (calls ++ more) after ∧
        ∀ outcome file, ending = .stopped outcome → path = some file →
          ∃ front call back, more = front ++ call :: back ∧
            call.asked = [⟨.save file (Bytes.ofText (History.fileOf
              (History.lastOf limit (History.log (calls ++ front))))), .ok ()⟩]) ∧
    Builtin.histArguments [] = .ok { clear := false, count := none } ∧
    ∀ n, n < 2 ^ 64 → Builtin.histArguments [toString n] = .ok { clear := false, count := some n } := by
  obtain ⟨started, hooks⟩ := loadModule_history unloaded loaded
  have reflects : ∀ {calls session}, fresh.Operated calls session →
      session.memory.history.Reflects limit calls := by
    intro calls session operated
    have passes := operated.passes
    rw [started] at passes
    exact passes.reflects (History.reflects_ofLimit limit)
  have shows : ∀ {front call back session}, fresh.Operated (front ++ call :: back) session →
      History.Shows (History.lastOf limit (History.log front))
        ((History.events front).any HistoryEvent.isRestored) call := by
    intro front call back session operated
    obtain ⟨reached, ran⟩ := operated.passes.at_call
    rw [started] at reached
    have known := reached.reflects (History.reflects_ofLimit limit)
    have shown := History.shows_of_runs ran
    rw [known.restored, known.entries] at shown
    exact shown
  refine ⟨?entries, ?lines, ?loops, rfl, fun n => Builtin.histArguments_toString⟩
  case entries =>
    intro calls session operated
    have known := reflects operated
    refine ⟨known.entries.trans (History.trim_eq_lastOf limit _), known.once, ?_⟩
    rintro front call back rfl
    exact shows operated
  case lines =>
    intro calls session line exchanges ended after operated ran
    obtain ⟨memory, executed, rfl⟩ := runs_execute_iff.mp ran
    obtain ⟨more, told, asked⟩ := Shell.runs_execute_iff_calls.mp executed
    have once : session.Operated (more ++ []) { session with memory } := .execute told .none
    rw [List.append_nil] at once
    exact ⟨more, told, asked, operated.append once⟩
  case loops =>
    intro calls session turns exchanges ending after operated ran
    obtain ⟨steps, more, told, _⟩ := runs_run_iff_calls.mp ran
    have once : session.Operated (more ++ []) after := .loop told .none
    rw [List.append_nil] at once
    have both := operated.append once
    refine ⟨steps, more, told, both, ?_⟩
    rintro outcome file rfl rfl
    have saver : ⟨Module.historyHook, .saveHistory file⟩ ∈ fresh.shell.hooks.postloop := by
      rw [hooks]
      simp [Module.addHistoryHooks]
    obtain ⟨front, call, back, rfl, _, ran⟩ := told.call_of_postloop (operated.postloop saver)
    obtain ⟨saved, asked, success, _⟩ := History.runs_saveTo_iff.mp ran
    have whole : calls ++ (front ++ call :: back) = (calls ++ front) ++ call :: back := by simp
    rw [whole] at both
    have held := (shows both).held
    rw [History.fileText_eq, held] at asked
    refine ⟨front, call, back, rfl, ?_⟩
    cases saved with
    | error error => cases success
    | ok _ => exact asked

/-- A history of one entry, after a run of the loop over one line. -/
theorem history_refines_log_of_queue :
    let base : Session Unit := { input := { queue := ["ls"] }, memory := { client := () } }
    base.hasModule (Module.history 1 (some "file") : Module Unit).name = false ∧
    ∃ asked fresh, (loadModule (.history 1 (some "file"))).Runs base asked (.ok ()) fresh ∧
    ∃ calls after, fresh.Operated calls after ∧ History.lastOf 1 (History.log calls) = ["ls"] ∧
      ∃ call ∈ calls, ∃ entries,
        call.asked = [⟨.save "file" (Bytes.ofText (History.fileOf entries)), .ok ()⟩] := by
  intro base
  have unloaded : base.hasModule (Module.history 1 (some "file") : Module Unit).name = false := rfl
  let answer := fun (asked : Request) (_ : Unit) => (asked.anyAnswer, ())
  let attached := (loadModule (.history 1 (some "file"))).runFrom base
  have loaded := Program.runs_run answer attached ()
  obtain ⟨entries, _, loops, _⟩ := history_refines_log base _ 1 (some "file") _ unloaded loaded
  let program := (attached.run answer ()).1.2.run 2
  have ran := Program.runs_run_pair answer program ()
  obtain ⟨steps, calls, _, operated, saves⟩ := loops [] _ 2 _ _ _ .none ran
  obtain ⟨kept, _, _⟩ := entries _ _ operated
  have recorded : (program.run answer ()).1.2.memory.history.entries = ["ls"] := by decide +kernel
  have stopped : (program.run answer ()).1.1.ctorIdx = (Ending.stopped .stopped).ctorIdx := by
    decide +kernel
  have held : History.lastOf 1 (History.log calls) = ["ls"] := kept.symm.trans recorded
  clear entries loops
  generalize (program.run answer ()).1.1 = ending at stopped saves
  cases ending with
  | stopped outcome =>
    obtain ⟨front, call, back, rfl, saved⟩ := saves outcome "file" rfl rfl
    exact ⟨unloaded, _, _, loaded, _, _, operated, held, call, by simp, _, saved⟩
  | failed | unfinished => cases stopped

end Session

end LineShell
