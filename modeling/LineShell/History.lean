import LineShell.Action
import LineShell.Text.Blank
import LineShell.Text.Lines
/-!
The history of a session: the lines that reached it, the last ones only if it has a limit. Beside it the
commands and hooks of a shell remember a state that belongs to the client.
-/

namespace LineShell

/-- Remembered lines, how many are kept at most (no limit when zero), and whether the lines of an
earlier session have been put in front. -/
structure History where
  entries : List String := []
  limit : Nat := 0
  restored : Bool := false
  deriving DecidableEq, Repr

namespace History

/-- The last entries of a list, as many as the limit allows. -/
def trim (limit : Nat) (entries : List String) : List String :=
  if limit = 0 then entries else entries.drop (entries.length - limit)

def ofLimit (limit : Nat) : History :=
  { limit }

def push (history : History) (entry : String) : History :=
  { history with entries := trim history.limit (history.entries ++ [entry]) }

def clear (history : History) : History :=
  { history with entries := [] }

/-- Put the lines of an earlier session in front. -/
def restore (history : History) (earlier : List String) : History :=
  { history with entries := trim history.limit (earlier ++ history.entries), restored := true }

def latest (history : History) : Option Nat → List String
  | none => history.entries
  | some count => history.entries.drop (history.entries.length - count)

/-- The last lines as a text of lines. -/
def listing (history : History) (count : Option Nat) : String :=
  String.join ((history.latest count).map (· ++ "\n"))

/-- The text that a file of the history holds. -/
def fileText (history : History) : String :=
  let text := "\n".intercalate history.entries
  if text = "" then "" else text ++ "\n"

/-- The entries that a file's text holds: its lines that are not blank. -/
def entriesOfText (text : String) : List String :=
  (Lines.ofText text).filter fun line => !Text.isBlankLine line

/-- What is kept is the end of the list. -/
theorem trim_suffix (limit : Nat) (entries : List String) : trim limit entries <:+ entries := by
  unfold trim
  split
  · exact List.suffix_rfl
  · exact List.drop_suffix _ _

/-- What was left out earlier makes no difference to what is kept later. -/
theorem trim_append_trim (limit : Nat) (earlier later : List String) :
    trim limit (trim limit earlier ++ later) = trim limit (earlier ++ later) := by
  unfold trim
  split
  · rfl
  · rename_i bounded
    rcases Nat.le_total earlier.length limit with short | long
    · simp [Nat.sub_eq_zero_of_le short]
    · have kept : earlier.drop (earlier.length - limit) ++ later =
          (earlier ++ later).drop (earlier.length - limit) :=
        (List.drop_append_of_le_length (Nat.sub_le _ _)).symm
      rw [kept, List.drop_drop]
      congr 1
      simp
      omega

@[simp] theorem limit_push (history : History) (entry : String) :
    (history.push entry).limit = history.limit := rfl

@[simp] theorem limit_clear (history : History) : history.clear.limit = history.limit := rfl

@[simp] theorem limit_restore (history : History) (earlier : List String) :
    (history.restore earlier).limit = history.limit := rfl

end History

/-- The history beside the state of the client. -/
structure Memory (σ : Type) where
  history : History := {}
  client : σ
  deriving DecidableEq, Repr

variable {ε σ α : Type}

/-- Let an action of the client work on its part of the memory. -/
def Action.ofClient (action : Action ε σ α) : Action ε (Memory σ) α :=
  action.onPart Memory.client fun memory client => { memory with client }

end LineShell
