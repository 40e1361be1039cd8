import LineShell.Proofs.Accounting
import LineShell.Proofs.Endings
import LineShell.Proofs.HistoryRefinement
/-!
Failed writes. The shell's own commands end with the error of a write that fails, and so does the loop
of a shell that has only these: nothing is asked for after it, and no line is taken.
-/

namespace LineShell

variable {ε ε' σ τ α β : Type}

/-- The exchange in which a write is refused. -/
def Exchange.refused (console : ConsoleId) (channel : Channel) (text : String)
    (error : DeviceError) : Exchange :=
  ⟨.write console channel text, .error error⟩

/-- The exchange is no write to the channel. -/
def Exchange.Spares (console : ConsoleId) (channel : Channel) (exchange : Exchange) : Prop :=
  ∀ text, exchange.1 ≠ .write console channel text

/-- No write to the channel is refused. -/
def Unrefused (console : ConsoleId) (channel : Channel) (exchanges : List Exchange) : Prop :=
  ∀ text error, Exchange.refused console channel text error ∉ exchanges

/-- A refused write to the channel is the last of the exchanges, and its error is the result. -/
def Heeded (console : ConsoleId) (channel : Channel) (wrap : DeviceError → ε)
    (exchanges : List Exchange) (ended : Except ε α) : Prop :=
  ∀ front text error back, exchanges = front ++ .refused console channel text error :: back →
    back = [] ∧ ended = .error (wrap error)

theorem exists_behind {item : α} {asked later front back : List α} (absent : item ∉ asked)
    (whole : asked ++ later = front ++ item :: back) :
    ∃ between, front = asked ++ between ∧ later = between ++ item :: back := by
  rcases List.append_eq_append_iff.mp whole with ⟨between, same, rest⟩ | ⟨beyond, same, rest⟩
  · exact ⟨between, same, rest⟩
  · cases beyond with
    | nil =>
      rw [List.append_nil] at same
      exact ⟨[], by rw [List.append_nil, same], rest.symm⟩
    | cons first more =>
      obtain ⟨rfl, _⟩ := List.cons.inj rest
      exact absurd (by simp [same]) absent

variable {console : ConsoleId} {channel : Channel} {wrap : DeviceError → ε}
  {exchanges asked later : List Exchange}

theorem unrefused_of_spares (spares : ∀ exchange ∈ exchanges, exchange.Spares console channel) :
    Unrefused console channel exchanges :=
  fun text _ member => spares _ member text rfl

theorem Unrefused.heeded (unrefused : Unrefused console channel exchanges) (ended : Except ε α) :
    Heeded console channel wrap exchanges ended := by
  intro front text error back whole
  exact absurd (by simp [whole]) (unrefused text error)

namespace Heeded

variable {ended : Except ε α}

theorem unrefused (heeds : Heeded console channel wrap exchanges ended)
    (other : ∀ error, ended ≠ .error (wrap error)) : Unrefused console channel exchanges := by
  intro text error member
  obtain ⟨front, back, whole⟩ := List.append_of_mem member
  exact other error (heeds front text error back whole).2

/-- What is asked for before anything is refused makes no difference. -/
theorem behind (heeds : Heeded console channel wrap later ended)
    (unrefused : Unrefused console channel asked) :
    Heeded console channel wrap (asked ++ later) ended := by
  intro front text error back whole
  obtain ⟨between, _, rest⟩ := exists_behind (unrefused text error) whole
  exact heeds between text error back rest

end Heeded

namespace Action

/-- The action ends with a write to the channel that is refused, and with its error. -/
def Heeds (console : ConsoleId) (channel : Channel) (wrap : DeviceError → ε)
    (action : Action ε σ α) : Prop :=
  ∀ before exchanges ended after, action.Runs before exchanges ended after →
    Heeded console channel wrap exchanges ended

theorem heeds_of_spares {action : Action ε σ α}
    (spares : ∀ before exchanges ended after, action.Runs before exchanges ended after →
      ∀ exchange ∈ exchanges, exchange.Spares console channel) :
    action.Heeds console channel wrap := by
  intro before exchanges ended after ran
  exact (unrefused_of_spares (spares _ _ _ _ ran)).heeded ended

theorem heeds_pure (value : α) : (pure value : Action ε σ α).Heeds console channel wrap := by
  apply heeds_of_spares
  intro before exchanges ended after ran
  obtain ⟨rfl, _⟩ := runs_pure_iff.mp ran
  exact nofun

theorem heeds_throw (error : ε) : (throw error : Action ε σ α).Heeds console channel wrap := by
  apply heeds_of_spares
  intro before exchanges ended after ran
  obtain ⟨rfl, _⟩ := runs_throw_iff.mp ran
  exact nofun

theorem heeds_modify (change : σ → σ) :
    (modify change : Action ε σ PUnit).Heeds console channel wrap := by
  apply heeds_of_spares
  intro before exchanges ended after ran
  obtain ⟨rfl, _⟩ := runs_modify_iff.mp ran
  exact nofun

theorem heeds_record (level : Log.Level) (target text : String) :
    (record level target text : Action ε σ Unit).Heeds console channel wrap := by
  apply heeds_of_spares
  intro before exchanges ended after ran exchange member
  obtain ⟨rfl, _⟩ := runs_record_iff.mp ran
  obtain rfl := List.mem_singleton.mp member
  exact fun _ => nofun

theorem heeds_ofExcept (result : Except ε α) :
    (MonadExcept.ofExcept result : Action ε σ α).Heeds console channel wrap := by
  cases result with
  | error error => exact heeds_throw error
  | ok value => exact heeds_pure value

theorem heeds_write (place : ConsoleId) (aside : Channel) (text : String) :
    (attempt wrap (Program.write place aside text) : Action ε σ Unit).Heeds console channel wrap := by
  intro before exchanges ended after ran front refusedText error back whole
  obtain ⟨written, wrote, rfl, _⟩ := runs_attempt_iff.mp ran
  obtain rfl := Program.runs_write_iff.mp wrote
  cases front with
  | nil =>
    obtain ⟨same, rfl⟩ := List.cons.inj whole
    cases same
    exact ⟨rfl, rfl⟩
  | cons first more =>
    obtain ⟨_, impossible⟩ := List.cons.inj whole
    simp at impossible

theorem Heeds.bind {action : Action ε σ α} {next : α → Action ε σ β}
    (first : action.Heeds console channel wrap)
    (second : ∀ value, (next value).Heeds console channel wrap) :
    (action >>= next).Heeds console channel wrap := by
  intro before exchanges ended after ran
  rcases runs_bind_iff.mp ran with
    ⟨error, failed, rfl⟩ | ⟨asked, value, middle, later, worked, onward, rfl⟩
  · intro front text refusal back whole
    obtain ⟨last, same⟩ := first _ _ _ _ failed front text refusal back whole
    exact ⟨last, congrArg Except.error (Except.error.inj same)⟩
  · have unrefused := (first _ _ _ _ worked).unrefused nofun
    exact (second value _ _ _ _ onward).behind unrefused

theorem heeds_get_bind {next : σ → Action ε σ β}
    (onward : ∀ state, (next state).Heeds console channel wrap) :
    (get >>= next).Heeds console channel wrap := by
  intro before exchanges ended after ran
  exact onward before _ _ _ _ (runs_get_bind_iff.mp ran)

theorem Heeds.map {action : Action ε σ α} (change : α → β)
    (heeds : action.Heeds console channel wrap) :
    (change <$> action).Heeds console channel wrap := by
  intro before exchanges ended after ran front text error back whole
  obtain ⟨outcome, worked, rfl⟩ := runs_map_iff.mp ran
  obtain ⟨last, rfl⟩ := heeds _ _ _ _ worked front text error back whole
  exact ⟨last, rfl⟩

theorem Heeds.mapError {action : Action ε σ α} (change : ε → ε')
    (heeds : action.Heeds console channel wrap) :
    (action.mapError change).Heeds console channel (change ∘ wrap) := by
  intro before exchanges ended after ran front text error back whole
  obtain ⟨outcome, worked, rfl⟩ := runs_mapError_iff.mp ran
  obtain ⟨last, rfl⟩ := heeds _ _ _ _ worked front text error back whole
  exact ⟨last, rfl⟩

end Action

open LineShell.Action

namespace Builtin

theorem heeds_refuse (builtin : Builtin) (place : ConsoleId) (refusal : Refusal) :
    (builtin.refuse place refusal : Action Failure σ Outcome).Heeds console channel .device := by
  cases refusal with
  | help =>
    apply (heeds_write _ _ _).bind
    intro _
    exact heeds_pure _
  | misuse text =>
    apply (heeds_write _ _ _).bind
    intro _
    exact heeds_pure _

/-- None of the shell's own commands swallows a failed write. -/
theorem heeds_run (builtin : Builtin) (place : ConsoleId) (words : List String) :
    (builtin.run place words : Action Failure (Memory σ) Outcome).Heeds console channel
      .device := by
  cases builtin with
  | exit =>
    simp only [run]
    split
    · exact heeds_refuse _ _ _
    · exact heeds_pure _
  | echo =>
    simp only [run]
    split
    · exact heeds_refuse _ _ _
    · apply (heeds_write _ _ _).bind
      intro _
      exact heeds_pure _
  | hist =>
    simp only [run]
    split
    · exact heeds_refuse _ _ _
    · apply (heeds_modify _).bind
      intro _
      exact heeds_pure _
    · apply heeds_get_bind
      intro memory
      apply (heeds_write _ _ _).bind
      intro _
      exact heeds_pure _

end Builtin

/-- A shell with a word rule, with commands of its own on the first console, and with the hooks that
come with them but for those on a file. -/
structure Shell.IsStock (shell : Shell σ) : Prop where
  parser : ∃ rule, shell.parser = .words rule
  commands : ∀ name command, shell.commands.find? name = some command →
    ∃ builtin, command = .builtin builtin 0
  preloop : shell.hooks.preloop = []
  postloop : shell.hooks.postloop = []
  postparse : ∀ hook ∈ shell.hooks.postparse, hook.action = .recordHistory
  postexecute : ∀ hook ∈ shell.hooks.postexecute, hook.action = .defaultOutcome
  console : shell.console = 0
  renderer : shell.renderer = none
  endOfInput : shell.endOfInput = none

/-- A module that brings nothing of the client's, and no file. -/
inductive Module.IsStock : Module σ → Prop where
  | exit : IsStock .exit
  | echo : IsStock .echo
  | history : IsStock (.history limit none)
  | defaultOutcome : IsStock .defaultOutcome

namespace Shell.IsStock

variable {shell : Shell σ}

theorem withCommand (stock : shell.IsStock) (builtin : Builtin) :
    Shell.IsStock { shell with
      commands := shell.commands.insert builtin.name (.builtin builtin shell.console) } := by
  refine { stock with commands := ?_ }
  intro name command found
  rw [NameTable.find?_insert] at found
  split at found
  · exact ⟨builtin, by rw [← Option.some.inj found, stock.console]⟩
  · exact stock.commands name command found

theorem withModules (stock : shell.IsStock) (modules : NameTable Unit) :
    Shell.IsStock { shell with modules } :=
  { stock with }

theorem withHistory (stock : shell.IsStock) :
    Shell.IsStock { shell with hooks := Module.addHistoryHooks none shell.hooks } := by
  refine { stock with preloop := ?_, postloop := ?_, postparse := ?_ }
  · simp [Module.addHistoryHooks, stock.preloop]
  · simp [Module.addHistoryHooks, stock.postloop]
  · intro hook member
    rcases List.mem_append.mp member with old | new
    · exact stock.postparse hook old
    · rw [List.mem_singleton.mp new]

theorem withDefaultOutcome (stock : shell.IsStock) :
    Shell.IsStock { shell with hooks := { shell.hooks with
      postexecute := shell.hooks.postexecute ++ [⟨Module.defaultOutcomeHook, .defaultOutcome⟩] } } := by
  refine { stock with postexecute := ?_ }
  intro hook member
  rcases List.mem_append.mp member with old | new
  · exact stock.postexecute hook old
  · rw [List.mem_singleton.mp new]

end Shell.IsStock

namespace Session

variable {session after : Session σ}

theorem isStock_of_load {module : Module σ} (brings : module.IsStock)
    (stock : session.shell.IsStock) (loaded : module.load.Runs session asked (.ok ()) after) :
    after.shell.IsStock ∧ after.input = session.input := by
  cases brings with
  | exit | echo =>
    obtain rfl := bindBuiltin_of_runs loaded
    exact ⟨stock.withCommand _, rfl⟩
  | history =>
    rcases runs_bind_iff.mp loaded with
      ⟨_, _, impossible⟩ | ⟨_, _, bound, _, binding, onward, _⟩
    · cases impossible
    · obtain rfl := bindBuiltin_of_runs binding
      have emptied := runs_modify_bind_iff.mp onward
      obtain ⟨_, _, rfl⟩ := runs_modify_iff.mp emptied
      exact ⟨(stock.withCommand .hist).withHistory, rfl⟩
  | defaultOutcome =>
    obtain ⟨_, _, rfl⟩ := runs_modify_iff.mp loaded
    exact ⟨stock.withDefaultOutcome, rfl⟩

theorem isStock_of_loadModule {module : Module σ} (brings : module.IsStock)
    (stock : session.shell.IsStock)
    (loaded : (loadModule module).Runs session asked (.ok ()) after) :
    after.shell.IsStock ∧ after.input = session.input := by
  by_cases unloaded : session.hasModule module.name = false
  · obtain ⟨_, middle, worked, rfl⟩ := loadModule_of_runs unloaded loaded
    obtain ⟨still, same⟩ := isStock_of_load brings stock worked
    exact ⟨still.withModules _, same⟩
  · have present : session.shell.modules.contains module.name = true := by
      simpa [hasModule] using unloaded
    rw [loadModule, runs_get_bind_iff] at loaded
    simp only [present, ↓reduceIte] at loaded
    obtain ⟨_, _, rfl⟩ := runs_record_iff.mp loaded
    exact ⟨stock, rfl⟩

/-- However many stock modules are attached, and in whatever order, the shell stays stock. -/
theorem isStock_of_modules {modules : List (Module σ)} (bring : ∀ module ∈ modules, module.IsStock)
    (stock : session.shell.IsStock)
    (loaded : (modules.forM loadModule).Runs session asked (.ok ⟨⟩) after) :
    after.shell.IsStock ∧ after.input = session.input := by
  induction modules generalizing session asked with
  | nil =>
    obtain ⟨_, _, rfl⟩ := runs_pure_iff.mp loaded
    exact ⟨stock, rfl⟩
  | cons module later ih =>
    have rest := fun other member => bring other (List.mem_cons_of_mem module member)
    rcases runs_bind_iff.mp loaded with
      ⟨_, _, impossible⟩ | ⟨_, _, middle, _, first, onward, _⟩
    · cases impossible
    · obtain ⟨still, same⟩ := isStock_of_loadModule (bring module List.mem_cons_self) stock first
      obtain ⟨stays, input⟩ := ih rest still onward
      exact ⟨stays, input.trans same⟩

end Session

theorem HookTable.heeds_runStatement {wrap : DeviceError → Failure}
    {hooks : List (Named (StatementHook σ))}
    (recording : ∀ hook ∈ hooks, hook.action = .recordHistory) (statement : Statement) :
    (runStatement hooks statement).Heeds console channel wrap := by
  induction hooks generalizing statement with
  | nil => exact heeds_pure _
  | cons hook later ih =>
    have first := recording hook List.mem_cons_self
    have rest := ih fun other member => recording other (List.mem_cons_of_mem hook member)
    rw [runStatement]
    apply (heeds_record _ _ _).bind
    intro _
    rw [first, StatementHook.run]
    apply Heeds.bind _ rest
    apply (heeds_modify _).bind
    intro _
    exact heeds_pure _

theorem HookTable.heeds_runOutcome {wrap : DeviceError → Failure}
    {hooks : List (Named (OutcomeHook σ))}
    (filling : ∀ hook ∈ hooks, hook.action = .defaultOutcome) (statement : Statement)
    (outcome : Option Outcome) :
    (runOutcome statement hooks outcome).Heeds console channel wrap := by
  induction hooks generalizing outcome with
  | nil => exact heeds_pure _
  | cons hook later ih =>
    have first := filling hook List.mem_cons_self
    have rest := ih fun other member => filling other (List.mem_cons_of_mem hook member)
    rw [runOutcome]
    apply (heeds_record _ _ _).bind
    intro _
    rw [first, OutcomeHook.run]
    exact (heeds_pure _).bind rest

theorem Shell.IsStock.heeds_execute {shell : Shell σ} (stock : shell.IsStock) (line : String) :
    (shell.execute line).Heeds console channel (.command ∘ .device) := by
  obtain ⟨rule, parser⟩ := stock.parser
  unfold Shell.execute
  rw [parser]
  apply (heeds_ofExcept _).bind
  intro parsed
  apply ((HookTable.heeds_runStatement stock.postparse parsed).mapError _).bind
  intro statement
  split
  · exact heeds_throw _
  · rename_i command found
    obtain ⟨builtin, rfl⟩ := stock.commands _ _ found
    apply (heeds_record _ _ _).bind
    intro _
    apply (((builtin.heeds_run 0 _).map _).mapError _).bind
    intro outcome
    exact (HookTable.heeds_runOutcome stock.postexecute statement outcome).mapError _

/-- Nobody types into the source, and neither asking it that nor reading from it writes anything to the
first console's normal channel. -/
inductive Source.Quiet : Source σ → Prop where
  | empty : Quiet .empty
  | buffered : Quiet (.buffered false cursor)
  | custom {next : String → ConsoleId → Action ShellError σ (Option String)}
      (denies : ∀ client asked interactive changed,
        (asks client).Runs asked (interactive, changed) →
          interactive = false ∧ ∀ exchange ∈ asked, exchange.Spares 0 .out)
      (silent : ∀ prompt place client asked ended changed,
        (next prompt place).Runs client asked ended changed →
          ∀ exchange ∈ asked, exchange.Spares 0 .out) : Quiet (.custom asks next)

theorem Source.Quiet.isInteractive {source : Source σ} (quiet : source.Quiet)
    (said : (source.isInteractive client).Runs asked (interactive, changed)) :
    interactive = false ∧ ∀ exchange ∈ asked, exchange.Spares 0 .out := by
  cases quiet with
  | empty | buffered =>
    obtain ⟨rfl, rfl, _⟩ := Program.runs_pure_pair_iff.mp said
    exact ⟨rfl, nofun⟩
  | custom denies silent => exact denies _ _ _ _ said

theorem Source.Reads.quiet {source later : Source σ} {client changed : σ}
    (reads : Reads prompt place source client exchanges ended later changed) (quiet : source.Quiet) :
    (∀ exchange ∈ exchanges, exchange.Spares 0 .out) ∧ later.Quiet := by
  cases quiet with
  | empty =>
    cases reads
    exact ⟨nofun, .empty⟩
  | buffered =>
    cases reads
    exact ⟨nofun, .buffered⟩
  | custom denies silent =>
    cases reads with
    | custom ran => exact ⟨silent _ _ _ _ _ _ ran, .custom denies silent⟩

namespace LoopStep

theorem exchanges_eq_taking (place : ConsoleId) (step : LoopStep) :
    ∃ following, step.exchanges place = step.taking ++ following := by
  cases step with
  | unread | blank => exact ⟨[], (List.append_nil _).symm⟩
  | endOfInput | executed | unresolved => exact ⟨_, rfl⟩

end LoopStep

namespace Shell

variable {shell : Shell σ} {before after : LoopState σ}

theorem nextLine_quiet (fixed : shell.renderer = none) (quiet : before.input.source.Quiet)
    (took : shell.nextLine.Runs before taking ended after) :
    (∀ exchange ∈ taking, exchange.Spares 0 .out) ∧ after.input.source.Quiet := by
  obtain ⟨⟨queue, source⟩, memory⟩ := before
  cases queue with
  | cons line queue =>
    obtain ⟨rfl, _, rfl⟩ := runs_nextLine_queued_iff.mp took
    exact ⟨nofun, quiet⟩
  | nil =>
    obtain ⟨later, client, read, rfl⟩ := runs_nextLine_live_iff.mp took
    obtain ⟨_, _, reading⟩ := (promptsQuietly_of_none fixed).lineRead_iff.mp read
    exact (Source.reads_of_runs reading).quiet quiet

theorem Turn.took (turn : shell.Turn before step after) :
    ∃ middle, shell.nextLine.Runs before step.taking step.fetched middle := by
  cases turn with
  | unread took | blank took => exact ⟨_, took⟩
  | endOfInput took | executed took | unresolved took => exact ⟨_, took⟩

theorem Turns.uncons (took : shell.Turns before (step :: steps) ending after) :
    ∃ middle, shell.Turn before step middle ∧
      (steps ≠ [] → shell.Turns middle steps ending after) := by
  cases took with
  | last turn ends => exact ⟨_, turn, fun others => absurd rfl others⟩
  | next turn goesOn rest => exact ⟨_, turn, fun _ => rest⟩

/-- A turn ends with a write that is refused, which only a line can have asked for. -/
theorem IsStock.heeds_turn (stock : shell.IsStock) (quiet : before.input.source.Quiet)
    (turn : shell.Turn before step after) :
    Heeded 0 .out (.command ∘ .device) (step.exchanges shell.console) step.result ∧
      (step.line? = none → Unrefused 0 .out (step.exchanges shell.console)) ∧
      after.input.source.Quiet := by
  cases turn with
  | unread took =>
    obtain ⟨spares, still⟩ := nextLine_quiet stock.renderer quiet took
    have unrefused := unrefused_of_spares spares
    exact ⟨unrefused.heeded _, fun _ => unrefused, still⟩
  | @endOfInput taking _ _ _ _ took met =>
    obtain ⟨spares, still⟩ := nextLine_quiet stock.renderer quiet took
    cases runs_atEndOfInput_iff.mp met with
    | handled _ handler ran => cases handler.symm.trans stock.endOfInput
    | person said unhandled => cases (still.isInteractive said).1
    | @finished first _ said unhandled =>
      have unrefused : Unrefused 0 .out (taking ++ (first ++ [endAnnounced false])) := by
        apply unrefused_of_spares
        intro exchange member
        simp only [List.mem_append, List.mem_singleton] at member
        rcases member with taken | asked | rfl
        · exact spares exchange taken
        · exact (still.isInteractive said).2 exchange asked
        · exact fun _ => nofun
      exact ⟨unrefused.heeded _, fun _ => unrefused, still⟩
  | blank took blank =>
    obtain ⟨spares, still⟩ := nextLine_quiet stock.renderer quiet took
    have unrefused := unrefused_of_spares spares
    exact ⟨unrefused.heeded _, fun _ => unrefused, still⟩
  | executed took filled ran found =>
    obtain ⟨spares, still⟩ := nextLine_quiet stock.renderer quiet took
    have heeded : Heeded 0 .out _ _ _ := stock.heeds_execute _ _ _ _ _ ran
    exact ⟨heeded.behind (unrefused_of_spares spares), nofun, still⟩
  | @unresolved taking line taken following statement memory reported took filled ran =>
    obtain ⟨spares, still⟩ := nextLine_quiet stock.renderer quiet took
    have heeded : Heeded 0 .out _ following _ := stock.heeds_execute _ _ _ _ _ ran
    have unrefused := heeded.unrefused nofun
    have reports : Unrefused 0 .out (reporting shell.console statement reported) := by
      apply unrefused_of_spares
      intro exchange member
      simp only [reporting, List.mem_cons, List.not_mem_nil, or_false] at member
      rcases member with rfl | rfl
      · exact fun _ => nofun
      · simp [Exchange.Spares]
    exact ⟨((reports.heeded _).behind unrefused).behind (unrefused_of_spares spares), nofun, still⟩

/-- Turns end with the line that has a write refused. -/
theorem IsStock.ended_of_refused (stock : shell.IsStock) (quiet : before.input.source.Quiet)
    (took : shell.Turns before steps ending after)
    (whole : steps.flatMap (LoopStep.exchanges shell.console) =
      front ++ .refused 0 .out text error :: back) :
    ∃ earlier final line last, steps = earlier ++ [final] ∧ back = [] ∧
      front = earlier.flatMap (LoopStep.exchanges shell.console) ++ last ∧
      final.exchanges shell.console = last ++ [.refused 0 .out text error] ∧
      final.line? = some line ∧ final.result = .error (.command (.device error)) ∧
      ending = .failed (.command (.device error)) := by
  induction took generalizing front with
  | unfinished => simp at whole
  | @last _ step _ _ turn ends =>
    rw [List.flatMap_singleton] at whole
    obtain ⟨heeded, silent, _⟩ := stock.heeds_turn quiet turn
    obtain ⟨rfl, result⟩ := heeded front text error back whole
    have failed := LoopStep.ending?_eq_failed_iff.mpr result
    have ended := Option.some.inj (ends.symm.trans failed)
    cases taken : step.line? with
    | none => exact absurd (by simp [whole]) (silent taken text error)
    | some line => exact ⟨[], step, line, front, rfl, rfl, rfl, whole, taken, result, ended⟩
  | @next _ step _ steps _ _ turn goesOn rest ih =>
    obtain ⟨heeded, _, still⟩ := stock.heeds_turn quiet turn
    have continues : ∀ refusal, step.result ≠ .error ((.command ∘ .device) refusal) := by
      intro refusal same
      cases goesOn.symm.trans (LoopStep.ending?_eq_failed_iff.mpr same)
    rw [List.flatMap_cons] at whole
    obtain ⟨between, rfl, later⟩ := exists_behind (heeded.unrefused continues text error) whole
    obtain ⟨earlier, final, line, last, rfl, rfl, rfl, onward⟩ := ih still later
    refine ⟨step :: earlier, final, line, last, rfl, rfl, ?_, onward⟩
    rw [List.flatMap_cons, List.append_assoc]

theorem Turn.line?_eq {other : LoopStep} {left : LoopState σ} (first : shell.Turn before step after)
    (second : shell.Turn before other left)
    (same : step.taking ++ more = other.taking ++ others) : step.line? = other.line? := by
  obtain ⟨_, took⟩ := first.took
  obtain ⟨_, taken⟩ := second.took
  obtain ⟨_, fetched, _⟩ := took.unique taken same
  rw [step.line?_eq, other.line?_eq, fetched]

/-- Two runs of turns take the same lines as long as they are answered alike. -/
theorem IsStock.lines_of_common (stock : shell.IsStock) (quiet : before.input.source.Quiet)
    (first : shell.Turns before (earlier ++ [final]) ended left)
    (second : shell.Turns before others ending after)
    (differ : final.exchanges shell.console = last ++ [.refused 0 .out text error])
    (common : others.flatMap (LoopStep.exchanges shell.console) =
      (earlier.flatMap (LoopStep.exchanges shell.console) ++ last) ++ more)
    (goesOn : more ≠ []) :
    (earlier ++ [final]).filterMap LoopStep.line? <+: others.filterMap LoopStep.line? := by
  induction earlier generalizing before others with
  | nil =>
    rw [List.flatMap_nil, List.nil_append] at common
    cases others with
    | nil => exact absurd (List.append_eq_nil_iff.mp common.symm).2 goesOn
    | cons step rest =>
      obtain ⟨_, turn, _⟩ := first.uncons
      obtain ⟨_, other, _⟩ := second.uncons
      obtain ⟨_, took⟩ := turn.took
      obtain ⟨following, whole⟩ := final.exchanges_eq_taking shell.console
      obtain ⟨behind, others⟩ := step.exchanges_eq_taking shell.console
      -- The refused write comes after the line has been taken, and so all before it is common.
      have unrefused := unrefused_of_spares (nextLine_quiet stock.renderer quiet took).1
      obtain ⟨between, rfl, _⟩ := exists_behind (unrefused text error) (whole.symm.trans differ)
      rw [List.flatMap_cons, others, List.append_assoc, List.append_assoc] at common
      have same := turn.line?_eq other common.symm
      have alone : [final].filterMap LoopStep.line? = [step].filterMap LoopStep.line? := by
        simp only [List.filterMap_cons, same]
      rw [List.nil_append, alone, ← List.singleton_append (l := rest), List.filterMap_append]
      exact List.prefix_append _ _
  | cons step earlier ih =>
    cases others with
    | nil => exact absurd (List.append_eq_nil_iff.mp common.symm).2 goesOn
    | cons other rest =>
      obtain ⟨middle, turn, onward⟩ := first.uncons
      obtain ⟨_, alike, following⟩ := second.uncons
      simp only [List.flatMap_cons, List.append_assoc] at common
      obtain ⟨asked, _, rfl⟩ := alike.runs.unique turn.runs common
      have line : other.line? = step.line? := by
        obtain ⟨_, whole⟩ := step.exchanges_eq_taking shell.console
        obtain ⟨_, others⟩ := other.exchanges_eq_taking shell.console
        exact alike.line?_eq turn (others.symm.trans (asked.trans whole))
      rw [asked, List.append_cancel_left_eq, ← List.append_assoc] at common
      have others : rest ≠ [] := by
        rintro rfl
        exact goesOn (List.append_eq_nil_iff.mp common.symm).2
      have still := (stock.heeds_turn quiet turn).2.2
      have later := ih still (onward (by simp)) (following others) common
      obtain ⟨further, same⟩ := later
      refine ⟨further, ?_⟩
      rw [List.cons_append, List.filterMap_cons, List.filterMap_cons, line, ← same]
      cases step.line? <;> rfl

end Shell

theorem Session.CommandLoop.turns {session after : Session σ}
    (looped : session.CommandLoop exchanges steps ending after)
    (preloop : session.shell.hooks.preloop = []) (postloop : session.shell.hooks.postloop = []) :
    ∃ state, session.shell.Turns ⟨session.input, session.memory⟩ steps ending state ∧
      exchanges = steps.flatMap (LoopStep.exchanges session.shell.console) ∧
      after = session.left state := by
  cases looped with
  | preloopFailed before =>
    rw [preloop] at before
    cases before
  | unfinished before took | failed before took =>
    rw [preloop] at before
    cases before
    exact ⟨_, took, rfl, rfl⟩
  | postloopFailed before took closing =>
    rw [postloop] at closing
    cases closing
  | stopped before took closing =>
    rw [preloop] at before
    rw [postloop] at closing
    cases before
    cases closing
    exact ⟨_, took, by simp, rfl⟩

end LineShell
