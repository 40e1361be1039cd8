import LineShell.Proofs.ArgumentReading
import LineShell.Proofs.ExitStatus
import LineShell.Proofs.Printing
/-!
Words in single quotes. Under the POSIX rule any words at all, put in quotes and with spaces between
them, are read back as they were. Behind `echo -- ` they are written as they were.
-/

namespace LineShell

variable {σ : Type}

open LineShell.Action

namespace Words.Posix

/-- A letter within single quotes. A quote is written as three: one that ends the quotes, one behind a
backslash, and one that begins them again. -/
def quoteLetter (c : Char) : List Char :=
  if c = '\'' then ['\'', '\\', '\'', '\''] else [c]

/-- A text in single quotes. -/
def quoted (text : List Char) : List Char :=
  '\'' :: (text.flatMap quoteLetter ++ ['\''])

def quote (word : String) : String :=
  String.ofList (quoted word.toList)

/-- Words in single quotes, with a space between each two. -/
def quoteAll (words : List String) : String :=
  " ".intercalate (words.map quote)

theorem scan_quoteLetter (c : Char) (letters rest : List Char) :
    scan (.inSingle letters) (quoteLetter c ++ rest) = scan (.inSingle (c :: letters)) rest := by
  by_cases quote : c = '\''
  · subst quote
    simp [quoteLetter, scan, isSeparator, Place.after]
  · simp [quoteLetter, scan, quote]

theorem scan_quoteLetters (text letters rest : List Char) :
    scan (.inSingle letters) (text.flatMap quoteLetter ++ rest) =
      scan (.inSingle (text.reverse ++ letters)) rest := by
  induction text generalizing letters with
  | nil => rfl
  | cons c text ih =>
    rw [List.flatMap_cons, List.append_assoc, scan_quoteLetter, ih]
    simp

/-- A quoted text begins a word that holds the text, even if that is empty. -/
theorem scan_quoted (text rest : List Char) :
    scan .between (quoted text ++ rest) = scan (.inWord text.reverse) rest := by
  have opened : scan .between (quoted text ++ rest) =
      scan (.inSingle []) (text.flatMap quoteLetter ++ ('\'' :: rest)) := by
    simp [quoted, scan, isSeparator, Place.after]
  rw [opened, scan_quoteLetters]
  simp [scan]

theorem scan_quoteds (texts : List (List Char)) :
    scan .between ([' '].intercalate (texts.map quoted)) = some (texts.map String.ofList) := by
  induction texts with
  | nil => rfl
  | cons text later ih =>
    cases later with
    | nil =>
      have single := scan_quoted text []
      rw [List.append_nil] at single
      simp [single, scan]
    | cons next more =>
      rw [List.map_cons, List.map_cons, List.intercalate_cons_cons, List.append_assoc, scan_quoted]
      rw [List.map_cons] at ih
      simp [scan, isSeparator, ih]

theorem toList_quoteAll (words : List String) :
    (quoteAll words).toList = [' '].intercalate ((words.map String.toList).map quoted) := by
  rw [quoteAll, String.toList_intercalate, List.map_map, List.map_map]
  have letters : String.toList ∘ quote = quoted ∘ String.toList := by
    funext word
    simp [quote]
  rw [letters]
  rfl

theorem split_quoteAll (words : List String) : split (quoteAll words) = some words := by
  rw [split, toList_quoteAll, scan_quoteds, List.map_map]
  have same : String.ofList ∘ String.toList = id := by
    funext word
    simp
  rw [same, List.map_id]

/-- The line that has `echo` write words. -/
def echoing (words : List String) : String :=
  "echo -- " ++ quoteAll words

theorem split_echoing (words : List String) :
    split (echoing words) = some ("echo" :: "--" :: words) := by
  have front : "echo -- ".toList = ['e', 'c', 'h', 'o', ' ', '-', '-', ' '] := by decide
  have behind : scan .between (quoteAll words).toList = some words := split_quoteAll words
  rw [split, echoing, String.toList_append, front]
  simp [scan, isSeparator, Place.after, behind]

end Words.Posix

namespace Builtin

open Arguments Arguments.Reading

theorem echoRules_onlySwitches : echoRules.OnlySwitches := by
  intro word set known
  simp only [echoRules] at known
  split at known <;> cases known

theorem readAll_echo (help : Bool) (echo : EchoArguments) (words : List String) :
    readAll echoRules ⟨true, help, echo⟩ words =
      .ok ⟨true, help, { echo with values := echo.values ++ words }⟩ := by
  induction words generalizing echo with
  | nil => simp
  | cons word rest ih =>
    have taken : next echoRules ⟨true, help, echo⟩ word =
        .ok ⟨true, help, { echo with values := echo.values ++ [word] }⟩ :=
      next_eq_ok_iff.mpr (.value (.inl rfl) rfl)
    refine readAll_cons_ok_iff.mpr ⟨_, taken, ?_⟩
    rw [ih, List.append_assoc]
    rfl

theorem echoText_verbatim (words : List String) :
    echoText ("--" :: words) = .ok (" ".intercalate words ++ "\n") := by
  have closed : next echoRules { values := {} } "--" = .ok ⟨true, false, {}⟩ :=
    next_eq_ok_iff.mpr (.closing rfl rfl)
  have whole := readAll_cons_ok_iff.mpr ⟨_, closed, readAll_echo false {} words⟩
  rw [echoText, read_eq echoRules_onlySwitches, whole]
  rfl

theorem runs_echo_iff {console : ConsoleId} {before after : Memory σ} {text : String}
    (accepted : echoText words = .ok text) :
    (echo.run console words).Runs before exchanges ended after ↔
      ∃ reply, exchanges = [⟨.write console .out text, reply⟩] ∧
        ended = (reply.mapError .device).map (fun _ => .success) ∧ after = before := by
  simp only [run, accepted]
  exact runs_say_pure_iff

end Builtin

/-- Nothing is written to any console. -/
def Silent (exchanges : List Exchange) : Prop :=
  ∀ place channel, written place channel exchanges = []

theorem Silent.append (first : Silent asked) (second : Silent later) : Silent (asked ++ later) :=
  fun place channel => by rw [written_append, first, second, List.append_nil]

theorem HandedThrough.silent {κ β : Type} {text : Named κ → β → String}
    {run : κ → β → Action Failure (Memory σ) β} {hooks : List (Named κ)} {value : β}
    {ended : Except Failure β}
    (handed : HandedThrough text run hooks value before exchanges ended after)
    (each : ∀ hook ∈ hooks, ∀ value before asked ended after,
      (run hook.action value).Runs before asked ended after → Silent asked) : Silent exchanges := by
  induction handed with
  | done => exact fun _ _ => rfl
  | failed ran =>
    have first : Silent _ := each _ List.mem_cons_self _ _ _ _ _ ran
    exact first
  | next ran rest ih =>
    have first : Silent _ := each _ List.mem_cons_self _ _ _ _ _ ran
    exact first.append (ih fun hook member => each hook (List.mem_cons_of_mem _ member))

/-- A shell with the POSIX rule in which `echo` writes to a console, and with no hooks on statements
and outcomes but those of the shell's own modules. -/
structure Shell.Echoes (shell : Shell σ) (console : ConsoleId) : Prop where
  parser : shell.parser = .words .posix
  bound : shell.commands.find? Builtin.echo.name = some (.builtin .echo console)
  postparse : ∀ hook ∈ shell.hooks.postparse, hook.action = .recordHistory
  postexecute : ∀ hook ∈ shell.hooks.postexecute, hook.action = .defaultOutcome

/-- The exchanges write one text to a channel of a console, and nothing else anywhere. -/
def WritesOnly (console : ConsoleId) (channel : Channel) (text : String)
    (exchanges : List Exchange) : Prop :=
  ∀ place aimed, written place aimed exchanges =
    if place = console ∧ aimed = channel then [text] else []

theorem writesOnly_of_silent {reply : Except DeviceError Unit} (before : Silent asked)
    (behind : Silent later) (console : ConsoleId) (channel : Channel) (text : String) :
    WritesOnly console channel text (asked ++ ⟨.write console channel text, reply⟩ :: later) := by
  intro place aimed
  rw [written_append, before, List.nil_append]
  by_cases same : place = console ∧ aimed = channel
  · obtain ⟨rfl, rfl⟩ := same
    rw [written_write, behind, if_pos ⟨rfl, rfl⟩]
  · have none : (Request.write console channel text).text? place aimed = none :=
      if_neg fun ⟨here, aim⟩ => same ⟨here.symm, aim.symm⟩
    rw [if_neg same, ← behind place aimed]
    simp [written, none]

namespace Shell.Echoes

variable {shell : Shell σ} {console : ConsoleId}

theorem recording_silent (echoes : shell.Echoes console) :
    ∀ hook ∈ shell.hooks.postparse, ∀ statement before asked ended after,
      (hook.action.run statement).Runs before asked ended after →
        Silent asked ∧ ended = .ok statement := by
  intro hook member statement before asked ended after ran
  simp only [echoes.postparse hook member, StatementHook.run] at ran
  have handedOn := runs_modify_bind_iff.mp ran
  obtain ⟨rfl, same, _⟩ := runs_pure_iff.mp handedOn
  exact ⟨fun _ _ => rfl, same⟩

theorem filling_silent (echoes : shell.Echoes console) :
    ∀ hook ∈ shell.hooks.postexecute, ∀ statement outcome before asked ended after,
      (hook.action.run statement outcome).Runs before asked ended after →
        Silent asked ∧ ended = .ok (some (outcome.getD .success)) := by
  intro hook member statement outcome before asked ended after ran
  rw [echoes.postexecute hook member, OutcomeHook.run] at ran
  obtain ⟨rfl, same, _⟩ := runs_pure_iff.mp ran
  exact ⟨fun _ _ => rfl, same⟩

theorem prepared (echoes : shell.Echoes console)
    (prepared : shell.Prepared line before asked statement after) :
    WordRule.posix.parse line = .ok statement ∧ Silent asked := by
  cases prepared with
  | intro parsed handed =>
    have silent := handed.silent fun hook member _ _ _ _ _ ran =>
      (echoes.recording_silent hook member _ _ _ _ _ ran).1
    obtain rfl := handed.eq_of_recording echoes.postparse
    rw [echoes.parser] at parsed
    obtain ⟨rfl, same, _⟩ := Parser.runs_words_iff.mp parsed
    exact ⟨same.symm, silent⟩

/-- Executing a line that names `echo` writes the text that its arguments ask for, and nothing else. -/
theorem execute_cases (echoes : shell.Echoes console)
    (parsed : WordRule.posix.parse line = .ok statement)
    (named : statement.command = Builtin.echo.name)
    (accepted : Builtin.echoText statement.arguments = .ok text)
    (ran : (shell.execute line).Runs before exchanges ended after) :
    WritesOnly console .out text exchanges ∧
      (ended = .ok (some .success) ∨
        ∃ error, .refused console .out text error ∈ exchanges ∧
          ended = .error (.command (.device error))) := by
  have bound : shell.commands.find? statement.command = some (.builtin .echo console) := by
    rw [named]
    exact echoes.bound
  cases pipeline_of_runs ran with
  | parserFailed failed =>
    rw [echoes.parser] at failed
    cases (Parser.runs_words_iff.mp failed).2.1.trans parsed
  | notFound unresolved =>
    obtain ⟨same, _⟩ := echoes.prepared unresolved.prepared
    cases same.symm.trans parsed
    cases bound.symm.trans unresolved.unbound
  | raised raised =>
    cases raised with
    | statementHook _ hooks _ failed =>
      have member := hooks.symm ▸ List.mem_append_right _ List.mem_cons_self
      cases (echoes.recording_silent _ member _ _ _ _ _ failed).2
    | command prepared known failed =>
      obtain ⟨same, silent⟩ := echoes.prepared prepared
      cases same.symm.trans parsed
      cases known.symm.trans bound
      obtain ⟨outcome, worked, result⟩ := runs_map_iff.mp failed
      obtain ⟨reply, rfl, rfl, _⟩ := (Builtin.runs_echo_iff accepted).mp worked
      cases reply with
      | ok => cases result
      | error error =>
        cases result
        refine ⟨?_, .inr ⟨error, by simp [Exchange.refused], rfl⟩⟩
        rw [List.append_cons]
        exact writesOnly_of_silent (silent.append fun _ _ => rfl) (fun _ _ => rfl) _ _ _
    | outcomeHook _ _ _ hooks _ failed =>
      have member := hooks.symm ▸ List.mem_append_right _ List.mem_cons_self
      cases (echoes.filling_silent _ member _ _ _ _ _ _ failed).2
  | done prepared known worked handed =>
    obtain ⟨same, silent⟩ := echoes.prepared prepared
    cases same.symm.trans parsed
    cases known.symm.trans bound
    obtain ⟨outcome, worked, result⟩ := runs_map_iff.mp worked
    obtain ⟨reply, rfl, rfl, _⟩ := (Builtin.runs_echo_iff accepted).mp worked
    cases reply with
    | error error => cases result
    | ok =>
      cases result
      have filled := handed.eq_of_filling echoes.postexecute rfl
      have behind := handed.silent fun hook member _ _ _ _ _ ran =>
        (echoes.filling_silent hook member _ _ _ _ _ _ ran).1
      refine ⟨?_, .inl (congrArg Except.ok (Except.ok.inj filled))⟩
      rw [List.append_cons]
      exact writesOnly_of_silent (silent.append fun _ _ => rfl) behind _ _ _

/-- In the loop, the same is written behind what taking the line comes with, and the loop goes on. -/
theorem turn_cases {before after : LoopState σ} (echoes : shell.Echoes console)
    (filled : Text.isBlankLine line = false) (parsed : WordRule.posix.parse line = .ok statement)
    (named : statement.command = Builtin.echo.name)
    (accepted : Builtin.echoText statement.arguments = .ok text)
    (turn : shell.Turn before step after) (took : step.line? = some line) :
    ∃ following, step.exchanges shell.console = step.taking ++ following ∧
      WritesOnly console .out text following ∧
      (step.ending? = none ∨
        ∃ error, .refused console .out text error ∈ following ∧
          step.ending? = some (.failed (.command (.device error)))) := by
  cases turn with
  | unread | endOfInput => cases took
  | blank _ blank =>
    cases took
    cases filled.symm.trans blank
  | executed _ _ ran =>
    cases took
    obtain ⟨writes, rfl | ⟨error, refused, rfl⟩⟩ := echoes.execute_cases parsed named accepted ran
    · exact ⟨_, rfl, writes, .inl rfl⟩
    · exact ⟨_, rfl, writes, .inr ⟨error, refused, rfl⟩⟩
  | unresolved _ _ ran =>
    cases took
    obtain ⟨_, missing | ⟨_, _, missing⟩⟩ := echoes.execute_cases parsed named accepted ran
    · cases missing
    · cases missing

/-- On a host whose console does not fail, the console accepts the text. -/
theorem execute_on_host (echoes : shell.Echoes console)
    (parsed : WordRule.posix.parse line = .ok statement)
    (named : statement.command = Builtin.echo.name)
    (accepted : Builtin.echoText statement.arguments = .ok text) (memory : Memory σ) {host : Host}
    {found : Console} (opened : host.consoles[console]? = some found) (steady : found.Steady) :
    let ran := ((shell.execute line).runFrom memory).runOn host
    ran.1.1 = .ok (some .success) ∧ ∃ left, ran.2.consoles[console]? = some left ∧
      left.accepted .out = found.accepted .out ++ Bytes.ofText text := by
  intro ran
  have runs := Program.runs_run_pair Host.answer ((shell.execute line).runFrom memory) host
  have answered := Program.answered_run Host.answer ((shell.execute line).runFrom memory) host
  have unrefused := Host.unrefused_of_steady opened steady answered .out
  obtain ⟨writes, ended⟩ := echoes.execute_cases parsed named accepted runs
  constructor
  · rcases ended with done | ⟨error, refused, _⟩
    · exact done
    · exact absurd refused (unrefused text error)
  · have unlogged : host.Unlogged console .out := nofun
    obtain ⟨left, still, same⟩ := unlogged.answered opened answered nofun unrefused
    rw [writes console .out, if_pos ⟨rfl, rfl⟩, List.flatMap_singleton] at same
    exact ⟨left, still, same⟩

end Shell.Echoes

namespace WordRule

open Words.Posix

theorem isBlankLine_echoing (words : List String) : Text.isBlankLine (echoing words) = false := by
  have first : Text.isBlank 'e' = false := by decide
  simp [Text.isBlankLine, echoing, first]

/-- Any words, each in single quotes and with spaces between them, are a line of these words under the
POSIX rule. With `echo -- ` in front, the line makes a shell write the words with spaces between them
and a newline behind them, and nothing else; unless that is refused, the loop goes on. -/
theorem parse_posix_quotes (words : List String) :
    posix.parse (quoteAll words) = .ok ⟨quoteAll words, words⟩ ∧
    ∀ {σ : Type} (shell : Shell σ) (console : ConsoleId), shell.Echoes console →
      let text := " ".intercalate words ++ "\n"
      (∀ before exchanges ended after,
        (shell.execute (echoing words)).Runs before exchanges ended after →
          WritesOnly console .out text exchanges ∧
            (ended = .ok (some .success) ∨
              ∃ error, .refused console .out text error ∈ exchanges ∧
                ended = .error (.command (.device error)))) ∧
      (∀ before step after, shell.Turn before step after → step.line? = some (echoing words) →
        ∃ following, step.exchanges shell.console = step.taking ++ following ∧
          WritesOnly console .out text following ∧
          (step.ending? = none ∨
            ∃ error, .refused console .out text error ∈ following ∧
              step.ending? = some (.failed (.command (.device error))))) ∧
      ∀ memory (host : Host) found, host.consoles[console]? = some found → found.Steady →
        let ran := ((shell.execute (echoing words)).runFrom memory).runOn host
        ran.1.1 = .ok (some .success) ∧ ∃ left, ran.2.consoles[console]? = some left ∧
          left.accepted .out = found.accepted .out ++ Bytes.ofText text := by
  have parsed : posix.parse (echoing words) = .ok ⟨echoing words, "echo" :: "--" :: words⟩ := by
    rw [parse, split_echoing]
  have accepted := Builtin.echoText_verbatim words
  refine ⟨by rw [parse, split_quoteAll], fun shell console echoes => ⟨?_, ?_, ?_⟩⟩
  · intro before exchanges ended after ran
    exact echoes.execute_cases parsed rfl accepted ran
  · intro before step after turn took
    exact echoes.turn_cases (isBlankLine_echoing words) parsed rfl accepted turn took
  · intro memory host found opened steady
    exact echoes.execute_on_host parsed rfl accepted memory opened steady

/-- An empty word, quotes, a flag, and a newline behind what could open a comment. -/
theorem parse_posix_quotes_of_awkward :
    let words := ["", "it's", "-n", "#\n\\", "é"]
    let shell : Shell Unit := {
      parser := .words .posix
      commands := NameTable.insert ∅ "echo" (.builtin .echo 0) }
    posix.parse "'' 'it'\\''s' '-n' '#\n\\' 'é'" =
        .ok ⟨"'' 'it'\\''s' '-n' '#\n\\' 'é'", words⟩ ∧
      shell.Echoes 0 ∧
      ∃ left, (((shell.execute (echoing words)).runFrom ⟨{}, ()⟩).runOn {}).2.consoles[0]? =
          some left ∧
        left.accepted .out = Bytes.ofText " it's -n #\n\\ é\n" := by
  intro words shell
  have echoes : shell.Echoes 0 := ⟨rfl, rfl, nofun, nofun⟩
  have line : quoteAll words = "'' 'it'\\''s' '-n' '#\n\\' 'é'" := by decide +kernel
  have text : " ".intercalate words ++ "\n" = " it's -n #\n\\ é\n" := by decide +kernel
  obtain ⟨read, shells⟩ := parse_posix_quotes words
  obtain ⟨_, left, still, out⟩ := (shells shell 0 echoes).2.2 ⟨{}, ()⟩ {} {} rfl ⟨rfl, rfl⟩
  rw [line] at read
  rw [text] at out
  exact ⟨read, echoes, left, still, out⟩

end WordRule

end LineShell
