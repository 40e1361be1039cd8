/-!
Cutting a sequence into lines. A line keeps what ends it until it is chomped.
-/

namespace LineShell.Lines

variable {α : Type} (ends : α → Bool)

/-- The first line up to what ends it, and what follows. -/
def splitFirst : List α → List α × List α
  | [] => ([], [])
  | unit :: rest =>
    if ends unit then ([unit], rest)
    else
      let split := splitFirst rest
      (unit :: split.1, split.2)

/-- All lines in order, each up to what ends it. -/
def segments : List α → List (List α)
  | [] => []
  | unit :: rest =>
    if ends unit then [unit] :: segments rest
    else
      match segments rest with
      | [] => [[unit]]
      | first :: more => (unit :: first) :: more

@[simp] theorem splitFirst_append (units : List α) :
    (splitFirst ends units).1 ++ (splitFirst ends units).2 = units := by
  induction units with
  | nil => rfl
  | cons unit rest ih => by_cases h : ends unit <;> simp [splitFirst, h, ih]

theorem splitFirst_fst_eq_nil {units : List α} : (splitFirst ends units).1 = [] ↔ units = [] := by
  cases units with
  | nil => simp [splitFirst]
  | cons unit rest => by_cases h : ends unit <;> simp [splitFirst, h]

/-- Splitting off one line after the other gives all lines. -/
theorem segments_cons {units : List α} (nonempty : units ≠ []) :
    segments ends units =
      (splitFirst ends units).1 :: segments ends (splitFirst ends units).2 := by
  induction units with
  | nil => exact absurd rfl nonempty
  | cons unit rest ih =>
    by_cases h : ends unit
    · simp [segments, splitFirst, h]
    · cases rest with
      | nil => simp [segments, splitFirst, h]
      | cons next more => simp [segments.eq_2 ends unit, splitFirst.eq_2 ends unit, h, ih]

@[simp] theorem flatten_segments (units : List α) : (segments ends units).flatten = units := by
  induction units with
  | nil => rfl
  | cons unit rest ih =>
    by_cases h : ends unit
    · simp [segments, h, ih]
    · cases lines : segments ends rest with
      | nil => simp_all [segments]
      | cons first more => simp_all [segments]

def isNewline (c : Char) : Bool :=
  c == '\n'

/-- A line without the newline that ends it and without one carriage return right before that
newline. A line that no newline ends stays as it is. -/
def chomp (line : List Char) : List Char :=
  match line.reverse with
  | '\n' :: '\r' :: letters => letters.reverse
  | '\n' :: letters => letters.reverse
  | _ => line

/-- The lines of a text, chomped. -/
def ofText (text : String) : List String :=
  (segments isNewline text.toList).map fun line => String.ofList (chomp line)

def chompText (line : String) : String :=
  String.ofList (chomp line.toList)

end LineShell.Lines
