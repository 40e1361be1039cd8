import LineShell.Proofs.Pipeline
/-!
Where the errors of a line come from. Only the look-up finds no command; what a hook or a command
raises is wrapped, whatever its causes are.
-/

namespace LineShell

variable {σ : Type}

/-- A parser that fails only on lines that cannot be split into words. -/
def Parser.FailsOnlyToParse (parser : Parser σ) : Prop :=
  ∀ line before exchanges error after,
    (parser.parse line).Runs before exchanges (.error error) after → ∃ detail, error = .parse detail

theorem WordRule.parse_error {rule : WordRule} {line : String} {error : ShellError}
    (parsed : rule.parse line = .error error) : ∃ detail, error = .parse detail := by
  cases rule with
  | simple =>
    simp only [parse] at parsed
    split at parsed
    · cases parsed
    · exact ⟨_, (Except.error.inj parsed).symm⟩
  | posix =>
    simp only [parse] at parsed
    split at parsed
    · cases parsed
    · exact ⟨_, (Except.error.inj parsed).symm⟩

namespace Parser

theorem runs_words_iff {rule : WordRule} {line : String} {before : Memory σ} :
    ((words rule).parse line).Runs before exchanges ended after ↔
      exchanges = [] ∧ ended = rule.parse line ∧ after = before := by
  simp only [parse]
  cases rule.parse line with
  | error error => exact Action.runs_throw_iff
  | ok statement => exact Action.runs_pure_iff

theorem words_failsOnlyToParse (rule : WordRule) :
    (words rule : Parser σ).FailsOnlyToParse := by
  intro line before exchanges error after ran
  obtain ⟨_, parsed, _⟩ := runs_words_iff.mp ran
  exact WordRule.parse_error parsed.symm

end Parser

namespace Shell

variable {shell : Shell σ}

/-- A line fails to be parsed, finds no command, or has a failure raised. -/
theorem error_of_runs (parses : shell.parser.FailsOnlyToParse)
    (ran : (shell.execute line).Runs before exchanges (.error error) after) :
    (∃ detail, error = .parse detail ∧
      (shell.parser.parse line).Runs before exchanges (.error error) after) ∨
    (∃ statement, error = .commandNotFound statement ∧
      shell.Unresolved line before exchanges statement after) ∨
    (∃ broken, error = .command broken ∧ shell.Raised line before exchanges broken after) := by
  cases pipeline_of_runs ran with
  | parserFailed parsed =>
    obtain ⟨detail, same⟩ := parses _ _ _ _ _ parsed
    exact .inl ⟨detail, same, parsed⟩
  | notFound unresolved => exact .inr (.inl ⟨_, rfl, unresolved⟩)
  | raised raised => exact .inr (.inr ⟨_, rfl, raised⟩)

/-- A command is not found when the look-up finds none, and at no other time. -/
theorem runs_notFound_iff (parses : shell.parser.FailsOnlyToParse) :
    (shell.execute line).Runs before exchanges (.error (.commandNotFound statement)) after ↔
      shell.Unresolved line before exchanges statement after := by
  constructor
  · intro ran
    rcases error_of_runs parses ran with
      ⟨_, impossible, _⟩ | ⟨_, same, unresolved⟩ | ⟨_, impossible, _⟩
    · cases impossible
    · cases same
      exact unresolved
    · cases impossible
  · intro unresolved
    exact runs_of_pipeline (.notFound unresolved)

theorem runs_raised_iff (parses : shell.parser.FailsOnlyToParse) :
    (shell.execute line).Runs before exchanges (.error (.command broken)) after ↔
      shell.Raised line before exchanges broken after := by
  constructor
  · intro ran
    rcases error_of_runs parses ran with
      ⟨_, impossible, _⟩ | ⟨_, impossible, _⟩ | ⟨_, same, raised⟩
    · cases impossible
    · cases impossible
    · cases same
      exact raised
  · intro raised
    exact runs_of_pipeline (.raised raised)

end Shell

end LineShell
