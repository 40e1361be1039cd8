import Mathlib.Logic.ExistsUnique
import LineShell.Words
/-!
The layout of a line for the simple word rule: words of plain characters and closed quoted runs, and
the blanks before, between and behind them. The rule accepts the lines that have a layout, which is
then the only one, and names the open quote of every other line.
-/

namespace LineShell.Words.Simple

open Text (isBlank)

/-- A piece of a word: a plain character, or a quoted run with its two quotes. -/
inductive Piece : List Char → Prop where
  | plain (filled : isBlank c = false) (unquoted : isQuote c = false) : Piece [c]
  | quoted (quotes : isQuote quote = true) (inside : quote ∉ run) :
      Piece (quote :: (run ++ [quote]))

/-- Pieces, one after the other. -/
inductive Pieces : List Char → Prop where
  | none : Pieces []
  | more (piece : Piece front) (rest : Pieces back) : Pieces (front ++ back)

/-- Pieces and blanks: text that ends outside any quoted run. -/
inductive Closed : List Char → Prop where
  | nil : Closed []
  | blank (blank : isBlank c = true) (rest : Closed back) : Closed (c :: back)
  | piece (piece : Piece front) (rest : Closed back) : Closed (front ++ back)

/-- A word is made of one piece or more. -/
structure IsWord (letters : List Char) : Prop where
  nonempty : letters ≠ []
  pieces : Pieces letters

def Blanks (letters : List Char) : Prop :=
  ∀ c ∈ letters, isBlank c = true

/-- A word, and the blanks behind it. -/
@[ext] structure SpacedWord where
  letters : List Char
  gap : List Char
  isWord : IsWord letters
  blank : Blanks gap

def SpacedWord.text (word : SpacedWord) : List Char :=
  word.letters ++ word.gap

/-- Blanks, and words with the blanks behind each. Only the last word can have none behind it. -/
@[ext] structure Layout where
  lead : List Char
  words : List SpacedWord
  blank : Blanks lead
  apart : ∀ word ∈ words.dropLast, word.gap ≠ []

namespace Layout

def text (layout : Layout) : List Char :=
  layout.lead ++ layout.words.flatMap SpacedWord.text

def argv (layout : Layout) : List String :=
  layout.words.map fun word => String.ofList word.letters

end Layout

/-- The text does not go on with a blank. -/
def StartsFilled (text : List Char) : Prop :=
  ∀ c ∈ text.head?, isBlank c = false

/-- The text goes on with a blank, or is at its end. -/
def StartsBlank (text : List Char) : Prop :=
  ∀ c ∈ text.head?, isBlank c = true

theorem isBlank_of_isQuote {c : Char} (quotes : isQuote c = true) : isBlank c = false := by
  rcases (by simpa [isQuote] using quotes : c = '"' ∨ c = '\'') with rfl | rfl <;> decide

theorem Piece.cons (piece : Piece letters) : ∃ c more, letters = c :: more ∧ isBlank c = false := by
  cases piece with
  | plain filled unquoted => exact ⟨_, _, rfl, filled⟩
  | quoted quotes inside => exact ⟨_, _, rfl, isBlank_of_isQuote quotes⟩

theorem IsWord.cons (word : IsWord letters) :
    ∃ c more, letters = c :: more ∧ isBlank c = false := by
  cases word.pieces with
  | none => exact absurd rfl word.nonempty
  | more piece rest =>
    obtain ⟨c, more, rfl, filled⟩ := piece.cons
    exact ⟨c, _, rfl, filled⟩

theorem IsWord.startsFilled (word : IsWord letters) (behind : List Char) :
    StartsFilled (letters ++ behind) := by
  obtain ⟨c, more, rfl, filled⟩ := word.cons
  simpa [StartsFilled] using filled

theorem eq_nil_of_gap_eq_nil {word : SpacedWord} {later : List SpacedWord}
    (apart : ∀ other ∈ (word :: later).dropLast, other.gap ≠ []) (bare : word.gap = []) :
    later = [] := by
  cases later with
  | nil => rfl
  | cons next rest => exact absurd bare (apart word (by simp))

theorem apart_tail {word : SpacedWord} {later : List SpacedWord}
    (apart : ∀ other ∈ (word :: later).dropLast, other.gap ≠ []) :
    ∀ other ∈ later.dropLast, other.gap ≠ [] := by
  intro other member
  cases later with
  | nil => simp at member
  | cons next rest => exact apart other (by simp [member])

theorem scan_blanks (blank : Blanks front) (rest : List Char) :
    scan .between (front ++ rest) = scan .between rest := by
  induction front with
  | nil => rfl
  | cons c front ih =>
    have white := blank c List.mem_cons_self
    have later : Blanks front := fun d member => blank d (List.mem_cons_of_mem c member)
    simp [scan, white, ih later]

/-- Inside a quoted run, all is a letter up to the quote that closes it. -/
theorem scan_run (inside : quote ∉ run) (letters rest : List Char) :
    scan (.inQuote quote letters) (run ++ quote :: rest) =
      scan (.inWord (quote :: (run.reverse ++ letters))) rest := by
  induction run generalizing letters with
  | nil => simp [scan]
  | cons c run ih =>
    obtain ⟨differs, later⟩ := List.ne_and_not_mem_of_not_mem_cons inside
    simp [scan, Ne.symm differs, ih later]

theorem scan_piece (piece : Piece front) (letters rest : List Char) :
    scan (.inWord letters) (front ++ rest) = scan (.inWord (front.reverse ++ letters)) rest := by
  cases piece with
  | plain filled unquoted => simp [scan, filled, unquoted, Place.after]
  | quoted quotes inside =>
    simp [scan, isBlank_of_isQuote quotes, quotes, Place.after, scan_run inside]

theorem scan_pieces (pieces : Pieces front) (letters rest : List Char) :
    scan (.inWord letters) (front ++ rest) = scan (.inWord (front.reverse ++ letters)) rest := by
  induction pieces generalizing letters with
  | none => rfl
  | more piece pieces ih => rw [List.append_assoc, scan_piece piece, ih]; simp

/-- A word begins where no blank is. -/
theorem scan_between_of_startsFilled {text : List Char} (nonempty : text ≠ [])
    (filled : StartsFilled text) : scan .between text = scan (.inWord []) text := by
  cases text with
  | nil => exact absurd rfl nonempty
  | cons c rest =>
    have white : isBlank c = false := filled c rfl
    simp [scan, white]

theorem scan_word (word : IsWord front) (rest : List Char) :
    scan .between (front ++ rest) = scan (.inWord front.reverse) rest := by
  have begun : front ++ rest ≠ [] := by simp [word.nonempty]
  rw [scan_between_of_startsFilled begun (word.startsFilled rest), scan_pieces word.pieces,
    List.append_nil]

theorem scan_gap (nonempty : gap ≠ []) (blank : Blanks gap) (letters rest : List Char) :
    scan (.inWord letters) (gap ++ rest) =
      (scan .between rest).map (String.ofList letters.reverse :: ·) := by
  cases gap with
  | nil => exact absurd rfl nonempty
  | cons c gap =>
    have white := blank c List.mem_cons_self
    have later : Blanks gap := fun d member => blank d (List.mem_cons_of_mem c member)
    simp [scan, white, scan_blanks later]

theorem scan_words (words : List SpacedWord) (apart : ∀ word ∈ words.dropLast, word.gap ≠ []) :
    scan .between (words.flatMap SpacedWord.text) =
      .ok (words.map fun word => String.ofList word.letters) := by
  induction words with
  | nil => rfl
  | cons word later ih =>
    rw [List.flatMap_cons, SpacedWord.text, List.append_assoc, scan_word word.isWord]
    by_cases bare : word.gap = []
    · obtain rfl := eq_nil_of_gap_eq_nil apart bare
      simp [bare, scan]
    · rw [scan_gap bare word.blank, ih (apart_tail apart)]
      simp [Except.map]

theorem Layout.scan_text (layout : Layout) : scan .between layout.text = .ok layout.argv := by
  rw [text, scan_blanks layout.blank, scan_words layout.words layout.apart, argv]

theorem run_inj (inside : quote ∉ run) (within : quote ∉ other)
    (same : run ++ quote :: back = other ++ quote :: rest) : run = other ∧ back = rest := by
  induction run generalizing other with
  | nil =>
    cases other with
    | nil => exact ⟨rfl, (List.cons.inj same).2⟩
    | cons c other =>
      obtain ⟨rfl, _⟩ := List.cons.inj same
      exact absurd List.mem_cons_self within
  | cons c run ih =>
    cases other with
    | nil =>
      obtain ⟨rfl, _⟩ := List.cons.inj same
      exact absurd List.mem_cons_self inside
    | cons d other =>
      obtain ⟨rfl, tails⟩ := List.cons.inj same
      have later : quote ∉ run := mt (List.mem_cons_of_mem c) inside
      have last : quote ∉ other := mt (List.mem_cons_of_mem c) within
      obtain ⟨rfl, rfl⟩ := ih later last tails
      exact ⟨rfl, rfl⟩

theorem Piece.append_inj (first : Piece front) (second : Piece other)
    (same : front ++ back = other ++ rest) : front = other ∧ back = rest := by
  cases first with
  | plain filled unquoted =>
    cases second with
    | plain _ _ =>
      obtain ⟨rfl, rfl⟩ := List.cons.inj same
      exact ⟨rfl, rfl⟩
    | quoted quotes inside =>
      obtain ⟨rfl, _⟩ := List.cons.inj same
      simp [quotes] at unquoted
  | @quoted quote run quotes inside =>
    cases second with
    | plain filled unquoted =>
      obtain ⟨rfl, _⟩ := List.cons.inj same
      simp [quotes] at unquoted
    | @quoted _ enclosed _ within =>
      obtain ⟨rfl, runs⟩ := List.cons.inj same
      have split : run ++ quote :: back = enclosed ++ quote :: rest := by simpa using runs
      obtain ⟨rfl, rfl⟩ := run_inj inside within split
      exact ⟨rfl, rfl⟩

theorem Piece.not_startsBlank (piece : Piece front) (ended : StartsBlank (front ++ back)) : False := by
  obtain ⟨c, more, rfl, filled⟩ := piece.cons
  have white := ended c (by simp)
  simp [filled] at white

theorem Pieces.append_inj (first : Pieces front) (second : Pieces other)
    (ended : StartsBlank back) (finished : StartsBlank rest) (same : front ++ back = other ++ rest) :
    front = other ∧ back = rest := by
  induction first generalizing other with
  | none =>
    cases second with
    | none => exact ⟨rfl, same⟩
    | more piece pieces =>
      rw [List.nil_append, List.append_assoc] at same
      exact (piece.not_startsBlank (same ▸ ended)).elim
  | more piece pieces ih =>
    cases second with
    | none =>
      rw [List.nil_append, List.append_assoc] at same
      exact (piece.not_startsBlank (same.symm ▸ finished)).elim
    | more initial others =>
      rw [List.append_assoc, List.append_assoc] at same
      obtain ⟨rfl, later⟩ := piece.append_inj initial same
      obtain ⟨rfl, rfl⟩ := ih others later
      exact ⟨rfl, rfl⟩

theorem Blanks.append_inj (first : Blanks front) (second : Blanks other)
    (filled : StartsFilled back) (begun : StartsFilled rest) (same : front ++ back = other ++ rest) :
    front = other ∧ back = rest := by
  induction front generalizing other with
  | nil =>
    cases other with
    | nil => exact ⟨rfl, same⟩
    | cons c other =>
      have white := second c List.mem_cons_self
      rw [List.nil_append] at same
      simp [filled c (by simp [same])] at white
  | cons c front ih =>
    have later : Blanks front := fun d member => first d (List.mem_cons_of_mem c member)
    cases other with
    | nil =>
      have white := first c List.mem_cons_self
      rw [List.nil_append] at same
      simp [begun c (by simp [← same])] at white
    | cons d other =>
      obtain ⟨rfl, tails⟩ := List.cons.inj same
      have last : Blanks other := fun d member => second d (List.mem_cons_of_mem c member)
      obtain ⟨rfl, rfl⟩ := ih later last tails
      exact ⟨rfl, rfl⟩

theorem startsFilled_words (words : List SpacedWord) :
    StartsFilled (words.flatMap SpacedWord.text) := by
  cases words with
  | nil => simp [StartsFilled]
  | cons word later =>
    rw [List.flatMap_cons, SpacedWord.text, List.append_assoc]
    exact word.isWord.startsFilled _

theorem startsBlank_gap {word : SpacedWord} {later : List SpacedWord}
    (apart : ∀ other ∈ (word :: later).dropLast, other.gap ≠ []) :
    StartsBlank (word.gap ++ later.flatMap SpacedWord.text) := by
  cases gap : word.gap with
  | nil =>
    obtain rfl := eq_nil_of_gap_eq_nil apart gap
    simp [StartsBlank]
  | cons c more =>
    have white : isBlank c = true := word.blank c (by simp [gap])
    simpa [StartsBlank] using white

theorem words_inj {words others : List SpacedWord}
    (apart : ∀ word ∈ words.dropLast, word.gap ≠ [])
    (spread : ∀ word ∈ others.dropLast, word.gap ≠ [])
    (same : words.flatMap SpacedWord.text = others.flatMap SpacedWord.text) : words = others := by
  induction words generalizing others with
  | nil =>
    cases others with
    | nil => rfl
    | cons word later =>
      have filled := word.isWord.nonempty
      simp [SpacedWord.text, filled] at same
  | cons word later ih =>
    cases others with
    | nil =>
      have filled := word.isWord.nonempty
      simp [SpacedWord.text, filled] at same
    | cons other rest =>
      simp only [List.flatMap_cons, SpacedWord.text, List.append_assoc] at same
      obtain ⟨letters, behind⟩ := word.isWord.pieces.append_inj other.isWord.pieces
        (startsBlank_gap apart) (startsBlank_gap spread) same
      obtain ⟨gap, tails⟩ := word.blank.append_inj other.blank
        (startsFilled_words later) (startsFilled_words rest) behind
      obtain rfl := ih (apart_tail apart) (apart_tail spread) tails
      obtain rfl := SpacedWord.ext letters gap
      rfl

theorem Layout.eq_of_text_eq {first second : Layout} (same : first.text = second.text) :
    first = second := by
  obtain ⟨lead, tails⟩ := first.blank.append_inj second.blank
    (startsFilled_words first.words) (startsFilled_words second.words) same
  exact Layout.ext lead (words_inj first.apart second.apart tails)

/-- The layout of an empty line. -/
def Layout.empty : Layout where
  lead := []
  words := []
  blank := by simp [Blanks]
  apart := by simp

/-- A blank put in front of a layout. -/
def Layout.indent (layout : Layout) (c : Char) (white : isBlank c = true) : Layout where
  lead := c :: layout.lead
  words := layout.words
  blank := by
    intro d member
    rcases List.mem_cons.mp member with rfl | later
    · exact white
    · exact layout.blank d later
  apart := layout.apart

/-- A word put in front of a layout. -/
def Layout.cons (letters : List Char) (isWord : IsWord letters) (behind : Layout)
    (ended : behind.words ≠ [] → behind.lead ≠ []) : Layout where
  lead := []
  words := ⟨letters, behind.lead, isWord, behind.blank⟩ :: behind.words
  blank := by simp [Blanks]
  apart := by
    intro word member
    cases later : behind.words with
    | nil => simp [later] at member
    | cons next rest =>
      rw [later, List.dropLast_cons_cons] at member
      rcases List.mem_cons.mp member with rfl | inner
      · exact ended (by simp [later])
      · exact behind.apart word (by simpa [later] using inner)

namespace Layout

@[simp] theorem text_empty : empty.text = [] := rfl

@[simp] theorem argv_empty : empty.argv = [] := rfl

@[simp] theorem text_indent (layout : Layout) (c : Char) (white : isBlank c = true) :
    (layout.indent c white).text = c :: layout.text := rfl

@[simp] theorem argv_indent (layout : Layout) (c : Char) (white : isBlank c = true) :
    (layout.indent c white).argv = layout.argv := rfl

@[simp] theorem text_cons (letters : List Char) (isWord : IsWord letters) (behind : Layout)
    (ended : behind.words ≠ [] → behind.lead ≠ []) :
    (cons letters isWord behind ended).text = letters ++ behind.text := by
  simp [cons, text, SpacedWord.text]

@[simp] theorem argv_cons (letters : List Char) (isWord : IsWord letters) (behind : Layout)
    (ended : behind.words ≠ [] → behind.lead ≠ []) :
    (cons letters isWord behind ended).argv = String.ofList letters :: behind.argv := rfl

end Layout

/-- The rest of a line goes on with a word of which some letters have been read: with more pieces of
it, and with a layout that does not go on with a word at once. -/
inductive GoesOn (letters : List Char) : List Char → List String → Prop where
  | intro (pieces : Pieces more) (behind : Layout) (ended : behind.words ≠ [] → behind.lead ≠ []) :
      GoesOn letters (more ++ behind.text) (String.ofList (letters ++ more) :: behind.argv)

theorem GoesOn.piece (piece : Piece front) (goesOn : GoesOn (letters ++ front) rest argv) :
    GoesOn letters (front ++ rest) argv := by
  cases goesOn with
  | intro pieces behind ended =>
    have whole : GoesOn letters _ _ := .intro (.more piece pieces) behind ended
    simpa using whole

theorem GoesOn.layout (piece : Piece front) (goesOn : GoesOn front rest argv) :
    ∃ layout : Layout, layout.text = front ++ rest ∧ layout.argv = argv := by
  cases goesOn with
  | @intro more pieces behind ended =>
    have filled : front ++ more ≠ [] := by
      obtain ⟨c, later, rfl, _⟩ := piece.cons
      simp
    exact ⟨.cons _ ⟨filled, .more piece pieces⟩ behind ended, by simp, rfl⟩

/-- What the rest of a line is like that a scan accepts at a place. -/
def Place.Accepts (text : List Char) (argv : List String) : Place → Prop
  | between => ∃ layout : Layout, layout.text = text ∧ layout.argv = argv
  | inWord letters => GoesOn letters.reverse text argv
  | inQuote quote letters => ∃ run rest, text = run ++ quote :: rest ∧ quote ∉ run ∧
      GoesOn (letters.reverse ++ (run ++ [quote])) rest argv

theorem Place.Accepts.piece (accepts : (Place.after letters c).Accepts rest argv)
    (filled : isBlank c = false) :
    ∃ front behind, c :: rest = front ++ behind ∧ Piece front ∧
      GoesOn (letters.reverse ++ front) behind argv := by
  by_cases quotes : isQuote c = true
  · simp only [after, quotes, ↓reduceIte] at accepts
    obtain ⟨run, behind, rfl, inside, goesOn⟩ := accepts
    refine ⟨c :: (run ++ [c]), behind, by simp, .quoted quotes inside, ?_⟩
    simpa using goesOn
  · have unquoted : isQuote c = false := by simpa using quotes
    simp only [after, unquoted, Bool.false_eq_true, ↓reduceIte] at accepts
    refine ⟨[c], rest, rfl, .plain filled unquoted, ?_⟩
    simpa [Accepts] using accepts

theorem accepts_of_scan (accepted : scan place text = .ok argv) : place.Accepts text argv := by
  induction text generalizing place argv with
  | nil =>
    cases place with
    | between =>
      obtain rfl := Except.ok.inj accepted
      exact ⟨.empty, rfl, rfl⟩
    | inWord letters =>
      obtain rfl := Except.ok.inj accepted
      have last : GoesOn letters.reverse _ _ := .intro .none .empty (by simp [Layout.empty])
      simpa [Place.Accepts] using last
    | inQuote quote letters => cases accepted
  | cons c rest ih =>
    cases place with
    | between =>
      by_cases white : isBlank c = true
      · rw [scan, if_pos white] at accepted
        obtain ⟨layout, rfl, rfl⟩ := ih accepted
        exact ⟨layout.indent c white, by simp, by simp⟩
      · have filled : isBlank c = false := by simpa using white
        rw [scan, if_neg white] at accepted
        obtain ⟨front, behind, split, piece, goesOn⟩ := (ih accepted).piece filled
        rw [split]
        exact goesOn.layout piece
    | inWord letters =>
      by_cases white : isBlank c = true
      · rw [scan, if_pos white] at accepted
        cases later : scan .between rest with
        | error quote => simp [later, Except.map] at accepted
        | ok words =>
          rw [later] at accepted
          obtain rfl := Except.ok.inj accepted
          obtain ⟨layout, rfl, rfl⟩ := ih later
          have ended : GoesOn letters.reverse _ _ :=
            .intro .none (layout.indent c white) (by simp [Layout.indent])
          simpa [Place.Accepts] using ended
      · have filled : isBlank c = false := by simpa using white
        rw [scan, if_neg white] at accepted
        obtain ⟨front, behind, split, piece, goesOn⟩ := (ih accepted).piece filled
        rw [Place.Accepts, split]
        exact goesOn.piece piece
    | inQuote quote letters =>
      by_cases closes : c = quote
      · rw [scan, if_pos closes] at accepted
        subst closes
        exact ⟨[], rest, rfl, by simp, by simpa [Place.Accepts] using ih accepted⟩
      · rw [scan, if_neg closes] at accepted
        obtain ⟨run, behind, rfl, inside, goesOn⟩ := ih accepted
        refine ⟨c :: run, behind, rfl, ?_, by simpa using goesOn⟩
        simp [Ne.symm closes, inside]

/-- Text that ends outside any quoted run, and then a quote that nothing closes. -/
inductive LeavesOpen (quote : Char) : List Char → Prop where
  | intro (closed : Closed front) (quotes : isQuote quote = true) (unclosed : quote ∉ back) :
      LeavesOpen quote (front ++ quote :: back)

theorem LeavesOpen.blank (white : isBlank c = true) (leaves : LeavesOpen quote rest) :
    LeavesOpen quote (c :: rest) := by
  cases leaves with
  | intro closed quotes unclosed => exact .intro (.blank white closed) quotes unclosed

theorem LeavesOpen.piece (piece : Piece front) (leaves : LeavesOpen quote rest) :
    LeavesOpen quote (front ++ rest) := by
  cases leaves with
  | intro closed quotes unclosed =>
    rw [← List.append_assoc]
    exact .intro (.piece piece closed) quotes unclosed

/-- What the rest of a line is like in which a scan at a place finds a quote that is never closed. -/
def Place.Rejects (quote : Char) (text : List Char) : Place → Prop
  | between => LeavesOpen quote text
  | inWord _ => LeavesOpen quote text
  | inQuote opened _ => (opened = quote ∧ quote ∉ text) ∨
      ∃ run rest, text = run ++ opened :: rest ∧ opened ∉ run ∧ LeavesOpen quote rest

theorem Place.Rejects.leavesOpen (rejects : (Place.after letters c).Rejects quote rest)
    (filled : isBlank c = false) : LeavesOpen quote (c :: rest) := by
  by_cases quotes : isQuote c = true
  · simp only [after, quotes, ↓reduceIte] at rejects
    rcases rejects with ⟨rfl, unclosed⟩ | ⟨run, behind, rfl, inside, leaves⟩
    · exact .intro .nil quotes unclosed
    · have whole := leaves.piece (.quoted quotes inside)
      simpa using whole
  · have unquoted : isQuote c = false := by simpa using quotes
    simp only [after, unquoted, Bool.false_eq_true, ↓reduceIte] at rejects
    exact LeavesOpen.piece (.plain filled unquoted) rejects

theorem rejects_of_scan (rejected : scan place text = .error quote) : place.Rejects quote text := by
  induction text generalizing place with
  | nil =>
    cases place with
    | between | inWord => cases rejected
    | inQuote opened letters => exact .inl ⟨Except.error.inj rejected, by simp⟩
  | cons c rest ih =>
    cases place with
    | between =>
      by_cases white : isBlank c = true
      · rw [scan, if_pos white] at rejected
        exact LeavesOpen.blank white (ih rejected)
      · rw [scan, if_neg white] at rejected
        exact (ih rejected).leavesOpen (by simpa using white)
    | inWord letters =>
      by_cases white : isBlank c = true
      · rw [scan, if_pos white] at rejected
        cases later : scan .between rest with
        | ok words => simp [later, Except.map] at rejected
        | error opened =>
          rw [later] at rejected
          obtain rfl := Except.error.inj rejected
          exact LeavesOpen.blank white (ih later)
      · rw [scan, if_neg white] at rejected
        exact (ih rejected).leavesOpen (by simpa using white)
    | inQuote opened letters =>
      by_cases closes : c = opened
      · rw [scan, if_pos closes] at rejected
        subst closes
        exact .inr ⟨[], rest, rfl, by simp, ih rejected⟩
      · rw [scan, if_neg closes] at rejected
        rcases ih rejected with ⟨rfl, unclosed⟩ | ⟨run, behind, rfl, inside, leaves⟩
        · exact .inl ⟨rfl, by simp [Ne.symm closes, unclosed]⟩
        · exact .inr ⟨c :: run, behind, rfl, by simp [Ne.symm closes, inside], leaves⟩

/-- The place is inside no quoted run. -/
def Place.IsOutside (place : Place) : Prop :=
  ∀ quote letters, place ≠ .inQuote quote letters

theorem scan_inQuote (unclosed : quote ∉ text) (letters : List Char) :
    scan (.inQuote quote letters) text = .error quote := by
  induction text generalizing letters with
  | nil => rfl
  | cons c rest ih =>
    obtain ⟨differs, later⟩ := List.ne_and_not_mem_of_not_mem_cons unclosed
    simp [scan, Ne.symm differs, ih later]

theorem scan_closed (closed : Closed front) (quotes : isQuote quote = true) (unclosed : quote ∉ back)
    (outside : place.IsOutside) : scan place (front ++ quote :: back) = .error quote := by
  induction closed generalizing place with
  | nil =>
    cases place with
    | between | inWord =>
      simp [scan, isBlank_of_isQuote quotes, Place.after, quotes, scan_inQuote unclosed]
    | inQuote opened letters => exact absurd rfl (outside opened letters)
  | blank white closed ih =>
    have outsideNext : Place.between.IsOutside := by simp [Place.IsOutside]
    have later := ih outsideNext
    cases place with
    | between | inWord => simp [scan, white, later, Except.map]
    | inQuote opened letters => exact absurd rfl (outside opened letters)
  | piece piece closed ih =>
    rw [List.append_assoc]
    cases place with
    | between =>
      obtain ⟨c, more, rfl, filled⟩ := piece.cons
      rw [scan_between_of_startsFilled (by simp) (by simpa [StartsFilled] using filled),
        scan_piece piece]
      exact ih (by simp [Place.IsOutside])
    | inWord letters =>
      rw [scan_piece piece]
      exact ih (by simp [Place.IsOutside])
    | inQuote opened letters => exact absurd rfl (outside opened letters)

theorem split_eq_ok_iff {line : String} {argv : List String} :
    split line = .ok argv ↔ ∃ layout : Layout, layout.text = line.toList ∧ layout.argv = argv := by
  constructor
  · intro accepted
    exact accepts_of_scan accepted
  · rintro ⟨layout, whole, rfl⟩
    rw [split, ← whole]
    exact layout.scan_text

theorem split_eq_error_iff {line : String} {quote : Char} :
    split line = .error quote ↔ LeavesOpen quote line.toList := by
  constructor
  · intro rejected
    exact rejects_of_scan rejected
  · intro leaves
    rw [split]
    generalize line.toList = text at leaves
    cases leaves with
    | intro closed quotes unclosed =>
      exact scan_closed closed quotes unclosed (by simp [Place.IsOutside])

end LineShell.Words.Simple

namespace LineShell.WordRule

open Words.Simple

theorem parse_simple (line : String) :
    simple.parse line = match split line with
      | .ok argv => .ok { raw := line, argv }
      | .error quote =>
        .error (.parse ("no closing quotation (" ++ quote.toString ++ ") in: " ++ line)) := rfl

theorem parse_simple_ok_iff {line : String} {statement : Statement} :
    simple.parse line = .ok statement ↔
      split line = .ok statement.argv ∧ statement.raw = line := by
  rw [parse_simple]
  obtain ⟨raw, argv⟩ := statement
  cases split line with
  | error quote => simp
  | ok words => simp [and_comm, eq_comm]

/-- The simple rule accepts the lines that have a layout, and no line has two. The words of such a
line are those of its layout. Any other line ends with a quote that nothing closes, and that quote
is named beside the line. -/
theorem parse_simple_follows_layout (line : String) :
    ((∃ statement, simple.parse line = .ok statement) ↔
      ∃! layout : Layout, layout.text = line.toList) ∧
    (∀ statement, simple.parse line = .ok statement ↔
      ∃ layout : Layout, layout.text = line.toList ∧ statement = ⟨line, layout.argv⟩) ∧
    (∀ error, simple.parse line = .error error ↔
      ∃ front quote back, line.toList = front ++ quote :: back ∧
        Closed front ∧ isQuote quote = true ∧ quote ∉ back ∧
        error = .parse ("no closing quotation (" ++ quote.toString ++ ") in: " ++ line)) := by
  have accepts : ∀ statement, simple.parse line = .ok statement ↔
      ∃ layout : Layout, layout.text = line.toList ∧ statement = ⟨line, layout.argv⟩ := by
    intro statement
    rw [parse_simple]
    constructor
    · intro parsed
      split at parsed
      · rename_i argv words
        obtain ⟨layout, whole, rfl⟩ := split_eq_ok_iff.mp words
        exact ⟨layout, whole, (Except.ok.inj parsed).symm⟩
      · cases parsed
    · rintro ⟨layout, whole, rfl⟩
      rw [split_eq_ok_iff.mpr ⟨layout, whole, rfl⟩]
  refine ⟨?unique, accepts, ?rejects⟩
  case unique =>
    constructor
    · intro ⟨statement, parsed⟩
      obtain ⟨layout, whole, _⟩ := (accepts statement).mp parsed
      exact ⟨layout, whole, fun other same => Layout.eq_of_text_eq (same.trans whole.symm)⟩
    · intro ⟨layout, whole, _⟩
      exact ⟨_, (accepts _).mpr ⟨layout, whole, rfl⟩⟩
  case rejects =>
    intro error
    rw [parse_simple]
    constructor
    · intro parsed
      split at parsed
      · cases parsed
      · rename_i quote opened
        have leaves := split_eq_error_iff.mp opened
        generalize text : line.toList = letters at leaves
        cases leaves with
        | intro closed quotes unclosed =>
          exact ⟨_, quote, _, rfl, closed, quotes, unclosed, (Except.error.inj parsed).symm⟩
    · rintro ⟨front, quote, back, whole, closed, quotes, unclosed, rfl⟩
      have opened : split line = .error quote := by
        rw [split_eq_error_iff, whole]
        exact .intro closed quotes unclosed
      rw [opened]

example : simple.parse " a\"b c\"'\"'  d" = .ok ⟨" a\"b c\"'\"'  d", ["a\"b c\"'\"'", "d"]⟩ := by
  rfl

end LineShell.WordRule
