import LineShell.Proofs.Accounting
import LineShell.Proofs.ExitStatus
/-!
Lines without words. For the simple word rule these are the blank lines; for the POSIX rule they are
made of separators and comments. The loop passes over a blank line in silence. A comment is not blank,
so the loop looks for a command with an empty name, and reports that when there is none.
-/

namespace LineShell

variable {σ : Type}

namespace Words.Posix

/-- Separators and comments. A newline ends a comment; only the last one can do without. -/
inductive Wordless : List Char → Prop where
  | nil : Wordless []
  | separator (separates : isSeparator c = true) (rest : Wordless back) : Wordless (c :: back)
  | comment (inside : '\n' ∉ text) (rest : Wordless back) :
      Wordless ('#' :: (text ++ '\n' :: back))
  | lastComment (inside : '\n' ∉ text) : Wordless ('#' :: text)

theorem wordless_comment_newline_iff {rest : List Char} :
    Wordless ('#' :: '\n' :: rest) ↔ Wordless rest := by
  constructor
  · intro wordless
    generalize whole : '#' :: '\n' :: rest = letters at wordless
    cases wordless with
    | nil => cases whole
    | separator separates =>
      obtain ⟨rfl, _⟩ := List.cons.inj whole
      simp [isSeparator] at separates
    | @comment text back inside behind =>
      cases text with
      | nil => simpa [← (List.cons.inj (List.cons.inj whole).2).2] using behind
      | cons c text =>
        obtain ⟨rfl, _⟩ := List.cons.inj (List.cons.inj whole).2
        exact absurd List.mem_cons_self inside
    | lastComment inside =>
      obtain ⟨_, rfl⟩ := List.cons.inj whole
      exact absurd List.mem_cons_self inside
  · intro wordless
    exact .comment List.not_mem_nil wordless

theorem wordless_comment_cons_iff {c : Char} {rest : List Char} (within : c ≠ '\n') :
    Wordless ('#' :: c :: rest) ↔ Wordless ('#' :: rest) := by
  constructor
  · intro wordless
    generalize whole : '#' :: c :: rest = letters at wordless
    cases wordless with
    | nil => cases whole
    | separator separates =>
      obtain ⟨rfl, _⟩ := List.cons.inj whole
      simp [isSeparator] at separates
    | @comment text back inside behind =>
      cases text with
      | nil => exact absurd (List.cons.inj (List.cons.inj whole).2).1 within
      | cons d text =>
        obtain ⟨_, rfl⟩ := List.cons.inj (List.cons.inj whole).2
        exact .comment (mt (List.mem_cons_of_mem d) inside) behind
    | lastComment inside =>
      obtain ⟨_, rfl⟩ := List.cons.inj whole
      exact .lastComment (mt (List.mem_cons_of_mem c) inside)
  · intro wordless
    generalize whole : '#' :: rest = letters at wordless
    have outside : ∀ text, '\n' ∉ text → '\n' ∉ c :: text := fun text inside =>
      List.not_mem_cons_of_ne_of_not_mem (Ne.symm within) inside
    cases wordless with
    | nil => cases whole
    | separator separates =>
      obtain ⟨rfl, _⟩ := List.cons.inj whole
      simp [isSeparator] at separates
    | comment inside behind =>
      obtain ⟨_, rfl⟩ := List.cons.inj whole
      exact .comment (outside _ inside) behind
    | lastComment inside =>
      obtain ⟨_, rfl⟩ := List.cons.inj whole
      exact .lastComment (outside _ inside)

/-- What the rest of a line is like in which a scan finds no words at a place. A word that has begun
is a word, so only two places can have such a rest. -/
def Place.Wordless (rest : List Char) : Place → Prop
  | between => Posix.Wordless rest
  | inComment => Posix.Wordless ('#' :: rest)
  | _ => False

theorem Place.not_wordless_after (letters : List Char) (c : Char) (rest : List Char) :
    ¬(Place.after letters c).Wordless rest := by
  unfold Place.after
  repeat' split
  all_goals exact id

theorem Place.not_wordless_between_cons {c : Char} {rest : List Char}
    (letter : isSeparator c = false) (bare : c ≠ '#') : ¬Place.between.Wordless (c :: rest) := by
  intro wordless
  cases wordless with
  | separator separates =>
    rw [letter] at separates
    cases separates
  | comment | lastComment => exact bare rfl

theorem scan_eq_nil_iff {place : Place} {rest : List Char} :
    scan place rest = some [] ↔ place.Wordless rest := by
  induction rest generalizing place with
  | nil =>
    cases place with
    | between => exact iff_of_true rfl .nil
    | inComment => exact iff_of_true rfl (.lastComment List.not_mem_nil)
    | inWord | afterBackslash | inSingle | inDouble | inDoubleAfterBackslash =>
      simp [scan, Place.Wordless]
  | cons c rest ih =>
    cases place with
    | between =>
      rw [scan]
      split
      case isTrue separates =>
        rw [ih]
        constructor
        · exact .separator separates
        · intro wordless
          cases wordless with
          | separator _ behind => exact behind
          | comment | lastComment => simp [isSeparator] at separates
      split
      case isTrue opens =>
        subst opens
        exact ih
      case isFalse letter bare =>
        have started : ¬Place.between.Wordless (c :: rest) :=
          Place.not_wordless_between_cons (by simpa using letter) bare
        exact ih.trans (iff_of_false (Place.not_wordless_after [] c rest) started)
    | inComment =>
      rw [scan]
      split
      case isTrue ends =>
        subst ends
        exact ih.trans wordless_comment_newline_iff.symm
      case isFalse within => exact ih.trans (wordless_comment_cons_iff within).symm
    | inWord letters =>
      rw [scan]
      split
      · simp [Place.Wordless]
      · exact ih.trans (iff_of_false (Place.not_wordless_after letters c rest) id)
    | afterBackslash | inSingle | inDouble | inDoubleAfterBackslash =>
      rw [scan]
      repeat' split
      all_goals exact ih

/-- A line has no words just when it is made of separators and comments. -/
theorem split_eq_nil_iff {line : String} : split line = some [] ↔ Wordless line.toList :=
  scan_eq_nil_iff

theorem isBlank_of_isSeparator {c : Char} (separates : isSeparator c = true) :
    Text.isBlank c = true := by
  simp only [isSeparator, Bool.or_eq_true, beq_iff_eq] at separates
  rcases separates with (rfl | rfl) | rfl <;> decide

/-- A line without words is blank unless it has a comment. -/
theorem Wordless.all_isBlank_iff (wordless : Wordless letters) :
    letters.all Text.isBlank = true ↔ '#' ∉ letters := by
  induction wordless with
  | nil => simp
  | @separator c back separates rest ih =>
    have differs : '#' ≠ c := by
      rintro rfl
      simp [isSeparator] at separates
    simp [isBlank_of_isSeparator separates, differs, ih]
  | comment | lastComment =>
    have filled : Text.isBlank '#' = false := by decide
    simp [filled]

end Words.Posix

namespace WordRule

/-- The rule accepts the line, and finds no words in it. -/
def FindsNone (rule : WordRule) (line : String) : Prop :=
  ∃ statement, rule.parse line = .ok statement ∧ statement.argv = []

/-- The lines in which a rule finds no words. -/
def Wordless (rule : WordRule) (line : String) : Prop :=
  match rule with
  | simple => Text.isBlankLine line = true
  | posix => Words.Posix.Wordless line.toList

/-- The rule knows no comments, or nothing in the line could begin one. -/
def Uncommented (rule : WordRule) (line : String) : Prop :=
  rule = .simple ∨ '#' ∉ line.toList

theorem findsNone_iff {rule : WordRule} {line : String} :
    rule.FindsNone line ↔ rule.Wordless line := by
  cases rule with
  | simple => exact parse_simple_wordless_iff line
  | posix =>
    rw [Wordless, ← Words.Posix.split_eq_nil_iff, FindsNone]
    simp only [parse]
    cases Words.Posix.split line with
    | none => simp
    | some argv =>
      constructor
      · rintro ⟨statement, parsed, wordless⟩
        obtain rfl := Except.ok.inj parsed
        exact congrArg some wordless
      · intro same
        exact ⟨_, rfl, Option.some.inj same⟩

theorem FindsNone.isBlankLine_iff {rule : WordRule} {line : String} (finds : rule.FindsNone line) :
    Text.isBlankLine line = true ↔ rule.Uncommented line := by
  have wordless := findsNone_iff.mp finds
  cases rule with
  | simple => exact iff_of_true wordless (.inl rfl)
  | posix => simpa [Text.isBlankLine, Uncommented] using wordless.all_isBlank_iff

end WordRule

/-- The client's hooks on statements add no words to a statement without any. -/
def HookTable.AddsNoWords (table : HookTable σ) : Prop :=
  ∀ hook ∈ table.postparse, ∀ action, hook.action = .custom action →
    ∀ statement client asked given changed, statement.argv = [] →
      (action statement).Runs client asked (.ok given) changed → given.argv = []

theorem StatementHook.wordless_of_runs {hook : StatementHook σ}
    (custom : ∀ action, hook = .custom action → ∀ statement client asked given changed,
      statement.argv = [] → (action statement).Runs client asked (.ok given) changed →
        given.argv = [])
    (wordless : statement.argv = []) (ran : (hook.run statement).Runs before asked (.ok given) after) :
    given.argv = [] := by
  cases hook with
  | recordHistory =>
    have handedOn : (pure statement : Action Failure (Memory σ) Statement).Runs _ _ _ _ :=
      Action.runs_modify_bind_iff.mp ran
    obtain ⟨_, same, _⟩ := Action.runs_pure_iff.mp handedOn
    rwa [Except.ok.inj same]
  | custom action =>
    obtain ⟨_, worked, _⟩ := Action.runs_onPart_iff.mp ran
    exact custom action rfl _ _ _ _ _ wordless worked

/-- A statement without words has none when such hooks have handed it on. -/
theorem StatementHooksRun.wordless {table : HookTable σ} (adds : table.AddsNoWords)
    (handed : StatementHooksRun table.postparse statement before asked (.ok final) after)
    (wordless : statement.argv = []) : final.argv = [] := by
  unfold HookTable.AddsNoWords at adds
  unfold StatementHooksRun at handed
  generalize table.postparse = hooks at adds handed
  generalize finished : Except.ok final = ended at handed
  induction handed with
  | done => rwa [Except.ok.inj finished]
  | failed ran => cases finished
  | next ran rest ih =>
    have first := StatementHook.wordless_of_runs (adds _ List.mem_cons_self) wordless ran
    exact ih first (fun hook member => adds hook (List.mem_cons_of_mem _ member)) finished

theorem Statement.command_of_wordless {statement : Statement} (wordless : statement.argv = []) :
    statement.command = "" := by
  rw [Statement.command, wordless]
  rfl

namespace Shell

variable {shell : Shell σ}

/-- The exchanges that report that a command without a name is missing. -/
def reportingNameless (console : ConsoleId) (reported : Except DeviceError Unit) : List Exchange :=
  [Action.recorded .warn Shell.logTarget "command not found: \"\"",
    ⟨.write console .err ": command not found\n", reported⟩]

theorem reporting_of_wordless {statement : Statement} (wordless : statement.argv = [])
    (console : ConsoleId) (reported : Except DeviceError Unit) :
    reporting console statement reported = reportingNameless console reported := by
  rw [reporting, Statement.command_of_wordless wordless]
  rfl

/-- When no command has the empty name, a line without words comes to a failed hook, or to a command
that is found missing. -/
theorem execute_of_findsNone {rule : WordRule} (stock : shell.parser = .words rule)
    (adds : shell.hooks.AddsNoWords) (finds : rule.FindsNone line)
    (unbound : shell.commands.find? "" = none)
    (ran : (shell.execute line).Runs before exchanges ended after) :
    (∃ broken, ended = .error (.command broken)) ∨
      ∃ statement, statement.argv = [] ∧ ended = .error (.commandNotFound statement) := by
  obtain ⟨statement, accepted, wordless⟩ := finds
  have reads : ∀ {asked found middle}, (shell.parser.parse line).Runs before asked found middle →
      found = .ok statement := by
    intro asked found middle parsed
    rw [stock] at parsed
    exact (Parser.runs_words_iff.mp parsed).2.1.trans accepted
  have prepares : ∀ {asked final middle}, shell.Prepared line before asked final middle →
      final.argv = [] := by
    intro asked final middle prepared
    cases prepared with
    | intro parsed handed =>
      obtain rfl := Except.ok.inj (reads parsed)
      exact handed.wordless adds wordless
  cases runs_execute_iff.mp ran with
  | parserFailed parsed => cases reads parsed
  | raised raised => exact .inl ⟨_, rfl⟩
  | notFound unresolved => exact .inr ⟨_, prepares unresolved.prepared, rfl⟩
  | done prepared bound =>
    rw [Statement.command_of_wordless (prepares prepared), unbound] at bound
    cases bound

theorem executeInLoop_of_blank {line : String} (blank : Text.isBlankLine line = true)
    (state : LoopState σ) : (shell.executeInLoop line).runFrom state = pure (.ok none, state) := by
  simp [executeInLoop, blank]

variable {before after : LoopState σ}

theorem Turn.silent_of_blank (turn : shell.Turn before step after) (took : step.line? = some line)
    (blank : Text.isBlankLine line = true) :
    step.exchanges shell.console = step.taking ∧ step.ending? = none := by
  cases turn with
  | unread | endOfInput => cases took
  | blank => exact ⟨rfl, rfl⟩
  | executed _ filled | unresolved _ filled =>
    obtain rfl := Option.some.inj took
    rw [blank] at filled
    cases filled

/-- A step that took another line without words reports that a command without a name is missing,
unless there is such a command or a hook fails. -/
theorem Turn.nameless_of_findsNone {rule : WordRule} (turn : shell.Turn before step after)
    (stock : shell.parser = .words rule) (adds : shell.hooks.AddsNoWords)
    (took : step.line? = some line) (finds : rule.FindsNone line)
    (filled : Text.isBlankLine line = false)
    (unbound : shell.commands.find? "" = none) :
    (∃ broken, step.result = .error (.command broken)) ∨
      ∃ following reported, step.exchanges shell.console =
          step.taking ++ (following ++ reportingNameless shell.console reported) ∧
        (step.ending? = none ↔ reported = .ok ()) := by
  cases turn with
  | unread | endOfInput => cases took
  | blank _ blank =>
    obtain rfl := Option.some.inj took
    rw [filled] at blank
    cases blank
  | executed _ _ ran found =>
    obtain rfl := Option.some.inj took
    rcases execute_of_findsNone stock adds finds unbound ran with failed | ⟨statement, _, missing⟩
    · exact .inl failed
    · exact absurd missing (found statement)
  | @unresolved _ _ _ following statement _ reported _ _ ran =>
    obtain rfl := Option.some.inj took
    rcases execute_of_findsNone stock adds finds unbound ran with ⟨_, same⟩ | ⟨_, wordless, same⟩
    · cases same
    · cases same
      refine .inr ⟨following, reported, ?_, ?_⟩
      · rw [← reporting_of_wordless wordless]
        rfl
      · cases reported with
        | ok _ => exact iff_of_true rfl rfl
        | error error => exact iff_of_false nofun nofun

end Shell

namespace Session

/-- A line without words is silent unless it has a comment. Both word rules find no words in the
lines that are blank, and the POSIX rule also in comments. A blank line asks for nothing, changes
nothing, and the loop goes on; but a comment is reported as a missing command without a name. -/
theorem run_is_silent_on_uncommented (session : Session σ) {rule : WordRule}
    (stock : session.shell.parser = .words rule) (adds : session.shell.hooks.AddsNoWords) :
    (∀ line, (rule.FindsNone line ↔ rule.Wordless line) ∧
      (rule.FindsNone line → (Text.isBlankLine line = true ↔ rule.Uncommented line))) ∧
    (∀ line, rule.FindsNone line → rule.Uncommented line → ∀ state,
      (session.shell.executeInLoop line).runFrom state = pure (.ok none, state)) ∧
    ∀ turns exchanges ending after, (session.run turns).Runs exchanges (ending, after) →
      ∃ steps, session.CommandLoop exchanges steps ending after ∧
        ∀ step ∈ steps, ∀ line, step.line? = some line → rule.FindsNone line →
          (rule.Uncommented line →
            step.exchanges session.shell.console = step.taking ∧ step.ending? = none) ∧
          (¬rule.Uncommented line → session.shell.commands.find? "" = none →
            (∃ broken, step.result = .error (.command broken)) ∨
              ∃ following reported, step.exchanges session.shell.console =
                  step.taking ++ (following ++
                    Shell.reportingNameless session.shell.console reported) ∧
                (step.ending? = none ↔ reported = .ok ())) := by
  refine ⟨?lines, ?blank, ?steps⟩
  case lines =>
    intro line
    exact ⟨WordRule.findsNone_iff, WordRule.FindsNone.isBlankLine_iff⟩
  case blank =>
    intro line wordless uncommented state
    exact Shell.executeInLoop_of_blank (wordless.isBlankLine_iff.mpr uncommented) state
  case steps =>
    intro turns exchanges ending after ran
    obtain ⟨steps, looped, _⟩ := commandLoop_of_runs ran
    refine ⟨steps, looped, ?_⟩
    intro step member line took wordless
    obtain ⟨front, back, rfl⟩ := List.append_of_mem member
    obtain ⟨_, _, _, _, _, _, turn, _⟩ := looped.at_step
    constructor
    · intro uncommented
      exact turn.silent_of_blank took (wordless.isBlankLine_iff.mpr uncommented)
    · intro commented unbound
      have filled : Text.isBlankLine line = false := by
        simpa using mt wordless.isBlankLine_iff.mp commented
      exact turn.nameless_of_findsNone stock adds took wordless filled unbound

/-- A blank line, a comment and a command, in a session that remembers its lines. The blank line is passed
over, the comment is reported as a missing command, and the loop goes on to the command. -/
theorem run_is_silent_on_uncommented_of_note :
    let session : Session Unit := {
      shell := {
        parser := .words .posix
        hooks := { postparse := [⟨"remember", .recordHistory⟩] }
        commands := NameTable.insert ∅ "echo" (.builtin .echo 0) }
      input := { queue := [" \t", "# note", "echo seen"] }
      memory := { client := () } }
    session.shell.parser = .words .posix ∧ session.shell.hooks.AddsNoWords ∧
      WordRule.posix.Uncommented " \t" ∧
      (∀ state, (session.shell.executeInLoop " \t").runFrom state = pure (.ok none, state)) ∧
      WordRule.posix.FindsNone "# note" ∧ ¬WordRule.posix.Uncommented "# note" ∧
      (∃ exchanges steps ending after, (session.run 4).Runs exchanges (ending, after) ∧
        session.CommandLoop exchanges steps ending after ∧ CommandLine.endingStatus ending = 0 ∧
        ∀ step ∈ steps, step.line? = some "# note" →
          ∃ following reported, step.exchanges 0 =
              step.taking ++ (following ++ Shell.reportingNameless 0 reported) ∧
            (step.ending? = none ↔ reported = .ok ())) ∧
      ((session.run 4).runOn {}).2.consoles.map
          (fun console => (console.current.out.accepted, console.current.err.accepted)) =
        [(Bytes.ofText "seen\n", Bytes.ofText ": command not found\n")] := by
  intro session
  have adds : session.shell.hooks.AddsNoWords := by
    intro hook member action custom
    obtain rfl := List.mem_singleton.mp member
    cases custom
  have uncommented : WordRule.posix.Uncommented " \t" := .inr (by decide)
  have commented : ¬WordRule.posix.Uncommented "# note" := by
    rintro (impossible | absent)
    · cases impossible
    · exact absent (by decide)
  have finds : WordRule.posix.FindsNone "# note" := ⟨⟨"# note", []⟩, rfl, rfl⟩
  have ran := Program.runs_run_pair Host.answer (session.run 4) {}
  have status : CommandLine.endingStatus ((session.run 4).run Host.answer {}).1.1 = 0 := by
    decide +kernel
  obtain ⟨_, silent, stepwise⟩ := run_is_silent_on_uncommented session rfl adds
  obtain ⟨steps, looped, each⟩ := stepwise _ _ _ _ ran
  refine ⟨rfl, adds, uncommented, silent _ ⟨⟨" \t", []⟩, rfl, rfl⟩ uncommented, finds, commented,
    ⟨_, steps, _, _, ran, looped, status, fun step member took => ?_⟩, by decide +kernel⟩
  obtain ⟨_, reports⟩ := each step member _ took finds
  rcases reports commented (by decide +kernel) with ⟨broken, failed⟩ | reported
  · -- A hook that fails would have ended the loop with its failure.
    obtain ⟨front, back, rfl⟩ := List.append_of_mem member
    obtain ⟨_, _, _, _, _, _, _, ends⟩ := looped.at_step
    rw [(ends _ failed).2] at status
    cases status
  · exact reported

/-- A line with nothing but a comment has no words, and yet it is reported. -/
theorem comment_reported :
    let session : Session Unit := {
      shell := { parser := .words .posix }
      input := { queue := ["# note"] }
      memory := { client := () } }
    session.shell.hooks.postparse = [] ∧ WordRule.posix.FindsNone "# note" ∧
      ((session.run 2).runOn {}).2.consoles.map (·.current.err.accepted) =
        [Bytes.ofText ": command not found\n"] := by
  intro session
  exact ⟨rfl, ⟨⟨"# note", []⟩, rfl, rfl⟩, rfl⟩

end Session

end LineShell
