import LineShell.Host
import LineShell.Proofs.Failures
import LineShell.Proofs.Loop
/-!
How the loop ends: at the first step that asks to stop or fails, and at no step before it.
-/

namespace LineShell

variable {σ : Type}

/-- What a step leaves the loop with when it is to go on. -/
def Ending.Continues (result : Except ShellError (Option Outcome)) : Prop :=
  result = .ok none ∨ ∃ outcome, result = .ok (some outcome) ∧ outcome.stop = false

namespace LoopStep

theorem ending?_eq_none_iff {step : LoopStep} :
    step.ending? = none ↔ Ending.Continues step.result := by
  unfold ending? Ending.Continues
  rcases step.result with error | _ | outcome
  · simp [Ending.ofResult?]
  · simp [Ending.ofResult?]
  · cases stops : outcome.stop <;> simp [Ending.ofResult?, stops]

theorem ending?_eq_stopped_iff {step : LoopStep} :
    step.ending? = some (.stopped outcome) ↔
      step.result = .ok (some outcome) ∧ outcome.stop = true := by
  unfold ending?
  rcases step.result with error | _ | last
  · simp [Ending.ofResult?]
  · simp [Ending.ofResult?]
  · cases stops : last.stop
    · simp only [Ending.ofResult?, stops, Bool.false_eq_true, ↓reduceIte, reduceCtorEq,
        Except.ok.injEq, Option.some.injEq, false_iff, not_and]
      intro same
      simp [← same, stops]
    · simp only [Ending.ofResult?, stops, ↓reduceIte, Option.some.injEq, Ending.stopped.injEq,
        Except.ok.injEq, iff_self_and]
      intro same
      simp [← same, stops]

theorem ending?_eq_failed_iff {step : LoopStep} :
    step.ending? = some (.failed error) ↔ step.result = .error error := by
  unfold ending?
  rcases step.result with error | _ | last
  · simp [Ending.ofResult?]
  · simp [Ending.ofResult?]
  · cases stops : last.stop <;> simp [Ending.ofResult?, stops]

end LoopStep

namespace Shell

variable {shell : Shell σ}

/-- Turns that end the loop end it with the last of them, and the loop goes on after every other. -/
theorem Turns.ended (took : shell.Turns before steps ending after) (complete : ending ≠ .unfinished) :
    ∃ front final, steps = front ++ [final] ∧ final.ending? = some ending ∧
      ∀ step ∈ front, Ending.Continues step.result := by
  induction took with
  | unfinished => exact absurd rfl complete
  | @last _ step _ _ turn ends => exact ⟨[], step, rfl, ends, by simp⟩
  | @next _ step _ _ _ _ turn goesOn rest ih =>
    obtain ⟨front, final, rfl, ends, continues⟩ := ih complete
    refine ⟨step :: front, final, rfl, ends, ?_⟩
    intro other member
    rcases List.mem_cons.mp member with rfl | later
    · exact LoopStep.ending?_eq_none_iff.mp goesOn
    · exact continues other later

/-- A step among turns is a turn after those before it. If the loop ends with it, it is the last. -/
theorem Turns.at_step (took : shell.Turns before (front ++ step :: back) ending after) :
    ∃ reached left, shell.Turns before front .unfinished reached ∧ shell.Turn reached step left ∧
      ∀ ended, step.ending? = some ended → back = [] ∧ ending = ended := by
  induction front generalizing before with
  | nil =>
    cases took with
    | last turn ends =>
      refine ⟨before, after, .unfinished, turn, ?_⟩
      intro ended same
      exact ⟨rfl, Option.some.inj (ends.symm.trans same)⟩
    | next turn goesOn rest =>
      refine ⟨before, _, .unfinished, turn, ?_⟩
      intro ended same
      rw [goesOn] at same
      cases same
  | cons first more ih =>
    rw [List.cons_append] at took
    generalize tail : more ++ step :: back = later at took
    cases took with
    | last turn ends => simp at tail
    | next turn goesOn rest =>
      subst tail
      obtain ⟨reached, left, earlier, here, ends⟩ := ih rest
      exact ⟨reached, left, .next turn goesOn earlier, here, ends⟩

theorem Turn.unresolved_of_parses (parses : shell.parser.FailsOnlyToParse)
    {following : List Exchange}
    (turn : shell.Turn before (.unresolved taking following line statement reported) after) :
    ∃ taken memory, shell.nextLine.Runs before taking (.ok (some line)) taken ∧
      shell.Unresolved line taken.memory following statement memory ∧
      after = { taken with memory } := by
  cases turn with
  | unresolved took filled ran => exact ⟨_, _, took, (runs_notFound_iff parses).mp ran, rfl⟩

end Shell

namespace Session

/-- A run of the loop executes lines one by one, up to the first that asks to stop or fails with an
error other than that of a missing command. It comes to an outcome when that asks to stop, is what
the last step left, and all hooks after the loop have succeeded. -/
theorem run_refines_execution (session : Session σ)
    (parses : session.shell.parser.FailsOnlyToParse) :
    (∀ exchanges ending after,
      (∃ turns, (session.run turns).Runs exchanges (ending, after)) ↔
        ∃ steps, session.CommandLoop exchanges steps ending after) ∧
    (∀ {τ : Type} (answer : (asked : Request) → τ → asked.Answer × τ) (surroundings : τ) turns,
      ∃ exchanges steps ending after, session.CommandLoop exchanges steps ending after ∧
        ((session.run turns).run answer surroundings).1 = (ending, after)) ∧
    (∀ before steps ending after, session.shell.Turns before steps ending after →
      ending ≠ .unfinished → ∃ front final, steps = front ++ [final] ∧
        final.ending? = some ending ∧ ∀ step ∈ front, Ending.Continues step.result) ∧
    (∀ before taking following line statement reported after,
      session.shell.Turn before (.unresolved taking following line statement reported) after →
        ∃ taken memory, session.shell.nextLine.Runs before taking (.ok (some line)) taken ∧
          session.shell.Unresolved line taken.memory following statement memory ∧
          after = { taken with memory }) ∧
    (∀ exchanges steps outcome after,
      session.CommandLoop exchanges steps (.stopped outcome) after →
        outcome.stop = true ∧ ∃ front final, steps = front ++ [final] ∧
          final.result = .ok (some outcome) ∧ ∀ step ∈ front, Ending.Continues step.result) := by
  refine ⟨?runs, ?answered, ?first, ?unresolved, ?stopped⟩
  case runs =>
    intro exchanges ending after
    constructor
    · intro ⟨turns, ran⟩
      obtain ⟨steps, looped, _⟩ := runs_run_iff.mp ran
      exact ⟨steps, looped⟩
    · intro ⟨steps, looped⟩
      have enough : Shell.Enough steps.length steps ending := ⟨Nat.le_refl _, fun _ => rfl⟩
      exact ⟨steps.length, runs_run_iff.mpr ⟨steps, looped, enough⟩⟩
  case answered =>
    intro τ answer surroundings turns
    have ran := Program.runs_run answer (session.run turns) surroundings
    obtain ⟨steps, looped, _⟩ := commandLoop_of_runs ran
    exact ⟨_, steps, _, _, looped, rfl⟩
  case first =>
    intro before steps ending after took complete
    exact took.ended complete
  case unresolved =>
    intro before taking following line statement reported after turn
    exact turn.unresolved_of_parses parses
  case stopped =>
    intro exchanges steps outcome after looped
    cases looped with
    | stopped hooksBefore took hooksAfter =>
      obtain ⟨front, final, rfl, ends, continues⟩ := took.ended nofun
      obtain ⟨left, stops⟩ := LoopStep.ending?_eq_stopped_iff.mp ends
      exact ⟨stops, front, final, rfl, left, continues⟩

/-- A session that is told to end after a blank line. -/
theorem run_refines_execution_of_queue :
    let session : Session Unit := {
      shell := { commands := NameTable.insert ∅ "exit" (.builtin .exit 0) }
      input := { queue := ["", "exit", "exit"] }
      memory := { client := () } }
    session.shell.parser.FailsOnlyToParse ∧
    ∃ exchanges steps after, session.CommandLoop exchanges steps (.stopped (.stopWith 0)) after ∧
      after.input.queue = ["exit"] := by
  intro session
  have parses : session.shell.parser.FailsOnlyToParse := Parser.words_failsOnlyToParse .simple
  obtain ⟨_, answered, _⟩ := run_refines_execution session parses
  obtain ⟨exchanges, steps, ending, after, looped, ran⟩ := answered Host.answer {} 3
  have ended : Ending.stopped (.stopWith 0) = ending := congrArg Prod.fst ran
  have left : ["exit"] = after.input.queue := congrArg (·.2.input.queue) ran
  exact ⟨parses, exchanges, steps, after, ended ▸ looped, left.symm⟩

end Session

end LineShell
