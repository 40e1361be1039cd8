import Mathlib.Algebra.Group.Nat.Defs
import LineShell.Module.Stock
import LineShell.Proofs.Frame
/-!
What the shell's own hooks and commands do with the history, and that nothing else touches it.
-/

namespace LineShell

variable {σ α : Type}

open LineShell.Action

/-- The exchange in which the history's file is read. -/
def History.loaded (path : String) (answer : Except DeviceError Bytes) : Exchange :=
  ⟨.load path, answer⟩

/-- Reading the history's file: it has been read already, it is missing, it cannot be read, it holds
no text, or its lines are put in front. -/
inductive History.Restores (path : String) (before : Memory σ) :
    List Exchange → Except Failure Unit → Memory σ → Prop where
  | already (again : before.history.restored = true) : Restores path before [] (.ok ()) before
  | missing (first : before.history.restored = false) :
      Restores path before
        [loaded path (.error .notFound),
          recorded .debug logTarget ("no history file at " ++ path)]
        (.ok ()) { before with history := { before.history with restored := true } }
  | unreadable (first : before.history.restored = false) (other : error ≠ .notFound) :
      Restores path before [loaded path (.error error)]
        (.error (.context ("hist: can't read " ++ path) (.device error))) before
  | invalid (first : before.history.restored = false) (invalid : Bytes.toText? bytes = none) :
      Restores path before [loaded path (.ok bytes)]
        (.error (.context ("hist: can't read " ++ path) (.device .invalidText))) before
  | read (first : before.history.restored = false) (valid : Bytes.toText? bytes = some text) :
      Restores path before
        [loaded path (.ok bytes),
          recorded .debug logTarget
            ("read " ++ toString (before.history.restore (entriesOfText text)).entries.length ++
              " history entries from " ++ path)]
        (.ok ()) { before with history := before.history.restore (entriesOfText text) }

namespace Action

variable {ε : Type}

theorem runs_modify_iff {change : σ → σ} {before after : σ} {ended : Except ε PUnit} :
    (modify change : Action ε σ PUnit).Runs before exchanges ended after ↔
      exchanges = [] ∧ ended = .ok ⟨⟩ ∧ after = change before := by
  rw [Runs, runFrom_modify, Program.runs_pure_pair_iff]

theorem runs_modify_bind_iff {change : σ → σ} {next : PUnit → Action ε σ α} {before after : σ} :
    (modify change >>= next).Runs before exchanges ended after ↔
      (next ⟨⟩).Runs (change before) exchanges ended after := by
  rw [Runs, runFrom_bind, runFrom_modify, pure_bind, Runs]

theorem runs_load_bind_iff {path : String} {next : Except DeviceError Bytes → Action ε σ α}
    {before after : σ} :
    (ofProgram (Program.load path) >>= next).Runs before exchanges ended after ↔
      ∃ answer later, (next answer).Runs before later ended after ∧
        exchanges = ⟨.load path, answer⟩ :: later := by
  rw [runs_bind_iff]
  constructor
  · rintro (⟨error, ran, _⟩ | ⟨asked, value, middle, later, ran, rest, rfl⟩)
    · obtain ⟨_, _, impossible, _⟩ := runs_ofProgram_iff.mp ran
      cases impossible
    · obtain ⟨answer, answered, same, rfl⟩ := runs_ofProgram_iff.mp ran
      cases same
      rw [Program.runs_request_iff.mp answered]
      exact ⟨_, later, rest, rfl⟩
  · rintro ⟨answer, later, ran, rfl⟩
    have loaded : (ofProgram (Program.load path) : Action ε σ _).Runs before
        [⟨.load path, answer⟩] (.ok answer) before :=
      runs_ofProgram_iff.mpr ⟨answer, Program.runs_request_iff.mpr rfl, rfl, rfl⟩
    exact .inr ⟨_, answer, before, later, loaded, ran, rfl⟩

end Action

namespace History

theorem runs_restoreFrom_iff {path : String} {before after : Memory σ} :
    (restoreFrom path).Runs before exchanges ended after ↔
      Restores path before exchanges ended after := by
  rw [restoreFrom, runs_get_bind_iff]
  by_cases again : before.history.restored = true
  · simp only [again, ↓reduceIte, runs_pure_iff]
    constructor
    · rintro ⟨rfl, rfl, rfl⟩
      exact .already again
    · intro restores
      cases restores with
      | already => exact ⟨rfl, rfl, rfl⟩
      | missing first | unreadable first | invalid first | read first =>
        rw [again] at first
        cases first
  · have first : before.history.restored = false := by simpa using again
    simp only [first, Bool.false_eq_true, ↓reduceIte, runs_load_bind_iff]
    constructor
    · rintro ⟨answer, later, ran, rfl⟩
      split at ran
      · obtain ⟨rest, changed, rfl⟩ := runs_record_bind_iff.mp ran
        obtain ⟨rfl, rfl, rfl⟩ := runs_modify_iff.mp changed
        exact .missing first
      · rename_i error other
        obtain ⟨rfl, rfl, rfl⟩ := runs_throw_iff.mp ran
        exact .unreadable first fun same => other (same ▸ rfl)
      · rename_i bytes
        split at ran
        · rename_i invalid
          obtain ⟨rfl, rfl, rfl⟩ := runs_throw_iff.mp ran
          exact .invalid first invalid
        · rename_i text valid
          obtain ⟨rfl, rfl, rfl⟩ := runs_record_iff.mp (runs_modify_bind_iff.mp ran)
          exact .read first valid
    · intro restores
      cases restores with
      | already again =>
        rw [first] at again
        cases again
      | missing =>
        refine ⟨_, _, ?_, rfl⟩
        exact runs_record_bind_iff.mpr ⟨_, runs_modify_iff.mpr ⟨rfl, rfl, rfl⟩, rfl⟩
      | unreadable _ other =>
        refine ⟨_, _, ?_, rfl⟩
        split
        · rename_i same
          exact absurd (Except.error.inj same) other
        · rename_i same
          cases same
          exact runs_throw_iff.mpr ⟨rfl, rfl, rfl⟩
        · rename_i impossible
          cases impossible
      | invalid _ invalid =>
        refine ⟨_, _, ?_, rfl⟩
        simp only [invalid]
        exact runs_throw_iff.mpr ⟨rfl, rfl, rfl⟩
      | read _ valid =>
        refine ⟨_, _, ?_, rfl⟩
        simp only [valid]
        exact runs_modify_bind_iff.mpr (runs_record_iff.mpr ⟨rfl, rfl, rfl⟩)

/-- Saving writes the text of the entries, and changes nothing. -/
theorem runs_saveTo_iff {path : String} {before after : Memory σ} :
    (saveTo path).Runs before exchanges ended after ↔
      ∃ saved, exchanges = [⟨.save path (Bytes.ofText before.history.fileText), saved⟩] ∧
        ended = saved.mapError (fun error =>
          .context ("hist: can't write " ++ path) (.device error)) ∧ after = before := by
  rw [saveTo, runs_get_bind_iff, runs_attempt_iff]
  constructor
  · rintro ⟨saved, ran, rfl, rfl⟩
    exact ⟨saved, Program.runs_request_iff.mp ran, rfl, rfl⟩
  · rintro ⟨saved, rfl, rfl, rfl⟩
    exact ⟨saved, Program.runs_request_iff.mpr rfl, rfl, rfl⟩

end History

namespace Text

theorem le_ofDigitChars (value : Nat) (letters : List Char) :
    value ≤ Nat.ofDigitChars 10 letters value := by
  induction letters generalizing value with
  | nil => exact Nat.le_refl _
  | cons c rest ih =>
    have later := ih (10 * value + (c.toNat - '0'.toNat))
    have first : value ≤ 10 * value + (c.toNat - '0'.toNat) := by omega
    exact Nat.le_trans first later

/-- Digits are read as the number that they write, if that is within the bound. -/
theorem digits_of_le {bound value : Nat} {beyond : IntegerError} {letters : List Char}
    (all : ∀ c ∈ letters, c.isDigit = true) (within : Nat.ofDigitChars 10 letters value ≤ bound) :
    digits bound beyond value letters = .ok (Nat.ofDigitChars 10 letters value) := by
  induction letters generalizing value with
  | nil => rfl
  | cons c rest ih =>
    have first := all c List.mem_cons_self
    have later := ih (fun d member => all d (List.mem_cons_of_mem c member)) within
    have small : 10 * value + digitValue c ≤ bound :=
      Nat.le_trans (le_ofDigitChars _ rest) within
    simp only [digits, first, ↓reduceIte, small]
    exact later

theorem integer_toString {low high : Int} {n : Nat} (within : n ≤ high.toNat) :
    integer low high (toString n) = .ok n := by
  have letters : (toString n).toList = Nat.toDigits 10 n := Nat.toList_repr
  have all : ∀ c ∈ Nat.toDigits 10 n, c.isDigit = true :=
    fun c member => Nat.isDigit_of_mem_toDigits (by omega) (by omega) member
  have value : Nat.ofDigitChars 10 (Nat.toDigits 10 n) 0 = n :=
    Nat.ofDigitChars_toDigits (by omega) (by omega)
  have known : digits high.toNat .tooLarge 0 (Nat.toDigits 10 n) = .ok n := by
    rw [digits_of_le all (value.symm ▸ within), value]
  rw [integer, letters]
  have first : ∀ c, (Nat.toDigits 10 n).head? = some c → c.isDigit = true :=
    fun c begun => all c (List.mem_of_mem_head? begun)
  -- No digit is a sign.
  split
  · rename_i none
    exact absurd none Nat.toDigits_ne_nil
  · rename_i sign
    exact absurd (first '+' (by rw [sign]; rfl)) (by decide)
  · rename_i sign
    exact absurd (first '-' (by rw [sign]; rfl)) (by decide)
  · rename_i sign
    exact absurd (first '+' (by rw [sign]; rfl)) (by decide)
  · rename_i sign
    exact absurd (first '-' (by rw [sign]; rfl)) (by decide)
  · rw [known]
    rfl

end Text

namespace Arguments

theorem isValue_of_isDigit {word : String}
    (first : ∀ c, word.toList.head? = some c → c.isDigit = true) :
    isHelp word = false ∧ isDashed word = false := by
  constructor
  · rw [isHelp, Bool.or_eq_false_iff, beq_eq_false_iff_ne, beq_eq_false_iff_ne]
    constructor
    · rintro rfl
      exact absurd (first '-' rfl) (by decide)
    · rintro rfl
      exact absurd (first 'h' rfl) (by decide)
  · rw [isDashed, beq_eq_false_iff_ne]
    intro dash
    exact absurd (first '-' dash) (by decide)

end Arguments

namespace Builtin

theorem histArguments_of_integer {word : String} {n : Int}
    (first : ∀ c, word.toList.head? = some c → c.isDigit = true)
    (value : Text.integer 0 maxCount word = .ok n) :
    histArguments [word] = .ok { clear := false, count := some n.toNat } := by
  obtain ⟨plain, undashed⟩ := Arguments.isValue_of_isDigit first
  have taken : histRules.value word {} = .ok { clear := false, count := some n.toNat } := by
    simp [histRules, value]
  rw [histArguments, Arguments.read]
  unfold Arguments.readFrom
  simp only [plain, undashed, taken]
  rfl

/-- `hist` takes every number of 64 bits, written in decimal. -/
theorem histArguments_toString {n : Nat} (within : n < 2 ^ 64) :
    histArguments [toString n] = .ok { clear := false, count := some n } := by
  have bounded : n ≤ maxCount.toNat := Nat.le_of_lt_succ within
  refine histArguments_of_integer ?_ (Text.integer_toString bounded)
  intro c begun
  have letters : (toString n).toList = Nat.toDigits 10 n := Nat.toList_repr
  rw [letters] at begun
  exact Nat.isDigit_of_mem_toDigits (by omega) (by omega) (List.mem_of_mem_head? begun)

theorem runs_say_iff {console : ConsoleId} {channel : Channel} {text : String} {before after : σ} :
    (say console channel text).Runs before exchanges ended after ↔
      ∃ written, exchanges = [⟨.write console channel text, written⟩] ∧
        ended = written.mapError .device ∧ after = before := by
  rw [say, runs_attempt_iff]
  simp only [Program.runs_write_iff]

theorem runs_say_pure_iff {console : ConsoleId} {channel : Channel} {text : String}
    {outcome : Outcome} {before after : σ} :
    (say console channel text >>= fun _ => pure outcome).Runs before exchanges ended after ↔
      ∃ written, exchanges = [⟨.write console channel text, written⟩] ∧
        ended = (written.mapError .device).map (fun _ => outcome) ∧ after = before := by
  simp only [runs_bind_pure_iff, runs_say_iff]
  constructor
  · rintro ⟨_, ⟨written, rfl, rfl, rfl⟩, rfl⟩
    exact ⟨written, rfl, rfl, rfl⟩
  · rintro ⟨written, rfl, rfl, rfl⟩
    exact ⟨_, ⟨written, rfl, rfl, rfl⟩, rfl⟩

theorem runs_hist_clear {console : ConsoleId} {before after : Memory σ} {count : Option Nat}
    (accepted : histArguments words = .ok { clear := true, count })
    (ran : (hist.run console words).Runs before exchanges ended after) :
    exchanges = [] ∧ after = { before with history := before.history.clear } := by
  simp only [run, accepted] at ran
  have cleared := runs_modify_bind_iff.mp ran
  obtain ⟨rfl, _, rfl⟩ := runs_pure_iff.mp cleared
  exact ⟨rfl, rfl⟩

theorem runs_hist_list {console : ConsoleId} {before after : Memory σ} {count : Option Nat}
    (accepted : histArguments words = .ok { clear := false, count })
    (ran : (hist.run console words).Runs before exchanges ended after) :
    (∃ written, exchanges = [⟨.write console .out (before.history.listing count), written⟩]) ∧
      after = before := by
  simp only [run, accepted] at ran
  obtain ⟨_, said, _⟩ := runs_bind_pure_iff.mp (runs_get_bind_iff.mp ran)
  obtain ⟨written, asked, _, same⟩ := runs_say_iff.mp said
  exact ⟨⟨written, asked⟩, same⟩

end Builtin

theorem Action.leaves_ofClient_history {ε : Type} (action : Action ε σ α) :
    action.ofClient.Leaves Memory.history := by
  intro before exchanges ended after ran
  obtain ⟨client, _, same⟩ := runs_onPart_iff.mp ran
  rw [same]

theorem Parser.leaves_history (parser : Parser σ) (line : String) :
    (parser.parse line).Leaves Memory.history := by
  cases parser with
  | words rule => exact leaves_ofExcept _
  | custom parse => exact leaves_ofClient_history _

theorem OutcomeHook.leaves_history (hook : OutcomeHook σ) (statement : Statement)
    (outcome : Option Outcome) : (hook.run statement outcome).Leaves Memory.history := by
  cases hook with
  | defaultOutcome => exact leaves_pure _
  | custom action => exact leaves_ofClient_history _

theorem Builtin.leaves_history (builtin : Builtin) (other : builtin ≠ .hist) (console : ConsoleId)
    (words : List String) :
    (builtin.run console words : Action Failure (Memory σ) Outcome).Leaves Memory.history := by
  cases builtin with
  | exit =>
    simp only [run]
    split
    · exact leaves_refuse _ _ _ _
    · exact leaves_pure _
  | echo =>
    simp only [run]
    split
    · exact leaves_refuse _ _ _ _
    · apply (leaves_attempt _ _).bind
      intro _
      exact leaves_pure _
  | hist => exact absurd rfl other

end LineShell
