import LineShell.Proofs.LineReading
/-!
Steps on a cursor. Whether bytes are read, shown, skipped or taken as a line, one position stands for
what has been done: it never goes back, and the buffer is passed over byte by byte from its start.
-/

namespace LineShell

namespace Lines

/-- A line stands in front of bytes: all up to the first newline and that newline, or all bytes if
there is no newline. -/
inductive Leads : Bytes → Bytes → Prop where
  | newline (unbroken : 10 ∉ front) : Leads (front ++ [10]) (front ++ 10 :: back)
  | unended (unbroken : 10 ∉ bytes) : Leads bytes bytes

theorem Leads.isPrefix (leads : Leads line bytes) : line <+: bytes := by
  cases leads with
  | newline => exact ⟨_, List.append_assoc ..⟩
  | unended => exact List.prefix_rfl

theorem leads_splitFirst (bytes : Bytes) : Leads (splitFirst Bytes.isNewline bytes).1 bytes := by
  induction bytes with
  | nil => exact .unended List.not_mem_nil
  | cons byte later ih =>
    by_cases newline : byte = 10
    · subst newline
      exact .newline List.not_mem_nil
    · have inside : Bytes.isNewline byte = false := by simpa [Bytes.isNewline] using newline
      have first : (splitFirst Bytes.isNewline (byte :: later)).1 =
          byte :: (splitFirst Bytes.isNewline later).1 := by
        rw [splitFirst, if_neg (by simp [inside])]
      rw [first]
      generalize (splitFirst Bytes.isNewline later).1 = line at ih
      cases ih with
      | newline unbroken =>
        have begun := List.not_mem_cons_of_ne_of_not_mem (Ne.symm newline) unbroken
        exact .newline begun
      | unended unbroken =>
        exact .unended (List.not_mem_cons_of_ne_of_not_mem (Ne.symm newline) unbroken)

end Lines

open Lines (Leads)

/-- A step on a cursor. -/
inductive CursorStep where
  | read (count : Nat)
  | look
  | skip (count : Nat)
  | readLine
  | readAll

namespace CursorStep

/-- What a step gives. -/
inductive Reply where
  | bytes (given : Bytes)
  | line (result : Except DeviceError String)
  | nothing
  deriving DecidableEq

/-- There are no more bytes in what a step gives. -/
inductive Reply.Ended : Reply → Prop where
  | bytes : Ended (.bytes [])
  | line : Ended (.line (.ok ""))
  | nothing : Ended .nothing

/-- Take a step. A look is shown what has not been read, and leaves the cursor where it is. -/
def run (cursor : ByteCursor) : CursorStep → Reply × ByteCursor
  | read count => (.bytes (cursor.read count).1, (cursor.read count).2)
  | look => (.bytes cursor.rest, cursor)
  | skip count => (.nothing, cursor.skip count)
  | readLine => (.line cursor.readLine.1, cursor.readLine.2)
  | readAll => (.bytes cursor.readAll.1, cursor.readAll.2)

/-- What a step gives at a position, the bytes it passes over, and the position it leads to. What is
read has been passed over, a look passes over nothing, and a line that is the bytes of no text is passed
over as well. -/
inductive Passes (bytes : Bytes) (first : Nat) : CursorStep → Reply → Bytes → Nat → Prop where
  | read (part : portion = bytes.extract first (first + count)) :
      Passes bytes first (.read count) (.bytes portion) portion (first + portion.length)
  | look : Passes bytes first .look (.bytes (bytes.drop first)) [] first
  | skip : Passes bytes first (.skip count) .nothing (bytes.extract first (first + count))
      (first + count)
  | line (leads : Leads (Bytes.ofText text) (bytes.drop first)) :
      Passes bytes first .readLine (.line (.ok text)) (Bytes.ofText text)
        (first + (Bytes.ofText text).length)
  | invalid (leads : Leads line (bytes.drop first)) (invalid : ∀ text, Bytes.ofText text ≠ line) :
      Passes bytes first .readLine (.line (.error .invalidText)) line (first + line.length)
  | readAll : Passes bytes first .readAll (.bytes (bytes.drop first)) (bytes.drop first)
      (first + (bytes.drop first).length)

/-- Take steps one after the other, also after one that failed. -/
def runAll (cursor : ByteCursor) : List CursorStep → List Reply × ByteCursor
  | [] => ([], cursor)
  | step :: later =>
    let (reply, middle) := step.run cursor
    let (replies, after) := runAll middle later
    (reply :: replies, after)

/-- A position on its way through a buffer: what steps give and pass over, one after the other. It never
goes back, and each step passes over what lies between the position before it and the one after it. -/
inductive Course (bytes : Bytes) :
    Nat → List CursorStep → List Reply → List Bytes → Nat → Prop where
  | done : Course bytes first [] [] [] first
  | next (passes : step.Passes bytes first reply portion middle) (forward : first ≤ middle)
      (slice : portion = bytes.extract first middle)
      (rest : Course bytes middle steps replies portions past) :
      Course bytes first (step :: steps) (reply :: replies) (portion :: portions) past

variable {bytes portion : Bytes} {first past : Nat} {step : CursorStep} {reply : Reply}
  {steps : List CursorStep} {replies : List Reply} {portions : List Bytes}

theorem extract_leading (leading : portion <+: bytes.drop first) :
    bytes.extract first (first + portion.length) = portion := by
  rw [List.extract_eq_take_drop, Nat.add_sub_cancel_left]
  exact (List.prefix_iff_eq_take.mp leading).symm

/-- The position goes on by what is passed over, unless that is skipped beyond the end. -/
theorem Passes.slice (passes : step.Passes bytes first reply portion past) :
    first ≤ past ∧ portion = bytes.extract first past := by
  cases passes with
  | read part =>
    subst part
    refine ⟨Nat.le_add_right .., (extract_leading ?_).symm⟩
    rw [List.extract_eq_take_drop]
    exact List.take_prefix ..
  | look => exact ⟨Nat.le_refl _, by simp [List.extract_eq_take_drop]⟩
  | skip => exact ⟨Nat.le_add_right .., rfl⟩
  | line leads => exact ⟨Nat.le_add_right .., (extract_leading leads.isPrefix).symm⟩
  | invalid leads => exact ⟨Nat.le_add_right .., (extract_leading leads.isPrefix).symm⟩
  | readAll => exact ⟨Nat.le_add_right .., (extract_leading List.prefix_rfl).symm⟩

/-- Every step passes over some bytes of the buffer, and no step changes the buffer. -/
theorem run_passes (step : CursorStep) (cursor : ByteCursor) :
    ∃ portion past, step.Passes cursor.bytes cursor.position (step.run cursor).1 portion past ∧
      (step.run cursor).2 = { cursor with position := past } := by
  cases step with
  | read count =>
    have part : cursor.rest.take count =
        cursor.bytes.extract cursor.position (cursor.position + count) := by
      rw [List.extract_eq_take_drop, Nat.add_sub_cancel_left]
      rfl
    exact ⟨_, _, .read part, rfl⟩
  | look => exact ⟨_, _, .look, rfl⟩
  | skip count => exact ⟨_, _, .skip, rfl⟩
  | readLine =>
    have leads : Leads cursor.firstLine cursor.rest := Lines.leads_splitFirst _
    cases valid : Bytes.toText? cursor.firstLine with
    | some text =>
      have given : cursor.readLine.1 = .ok text := by simp [ByteCursor.readLine, valid]
      have same := Bytes.ofText_of_toText? valid
      refine ⟨cursor.firstLine, _, ?_, rfl⟩
      rw [run, given, ← same]
      exact .line (same ▸ leads)
    | none =>
      have given : cursor.readLine.1 = .error .invalidText := by simp [ByteCursor.readLine, valid]
      refine ⟨cursor.firstLine, _, ?_, rfl⟩
      rw [run, given]
      exact .invalid leads (Bytes.toText?_eq_none_iff.mp valid)
  | readAll => exact ⟨_, _, .readAll, rfl⟩

theorem Passes.ended (passes : step.Passes bytes first reply portion past)
    (beyond : bytes.length ≤ first) : reply.Ended := by
  have none : bytes.drop first = [] := List.drop_eq_nil_of_le beyond
  cases passes with
  | read part =>
    rw [List.extract_eq_take_drop, none, List.take_nil] at part
    exact part ▸ .bytes
  | look | readAll => exact none ▸ .bytes
  | skip => exact .nothing
  | @line text leads =>
    have empty := List.prefix_nil.mp (none ▸ leads.isPrefix)
    have bytes : Bytes.ofText text = Bytes.ofText "" := empty
    obtain rfl := Bytes.ofText_inj bytes
    exact .line
  | @invalid line leads invalid =>
    have empty := List.prefix_nil.mp (none ▸ leads.isPrefix)
    exact absurd empty.symm (invalid "")

theorem course_runAll (steps : List CursorStep) (cursor : ByteCursor) :
    (runAll cursor steps).2.bytes = cursor.bytes ∧
      ∃ portions, Course cursor.bytes cursor.position steps (runAll cursor steps).1 portions
        (runAll cursor steps).2.position := by
  induction steps generalizing cursor with
  | nil => exact ⟨rfl, [], .done⟩
  | cons step later ih =>
    obtain ⟨portion, past, passes, moved⟩ := step.run_passes cursor
    obtain ⟨forward, slice⟩ := passes.slice
    obtain ⟨same, portions, rest⟩ := ih (step.run cursor).2
    rw [moved] at same rest
    simp only [runAll, moved]
    exact ⟨same, _, .next passes forward slice rest⟩

theorem extract_append_extract {middle : Nat} (before : first ≤ middle) (behind : middle ≤ past) :
    bytes.extract first middle ++ bytes.extract middle past = bytes.extract first past := by
  have split : past - first = (middle - first) + (past - middle) := by omega
  have start : first + (middle - first) = middle := by omega
  simp only [List.extract_eq_take_drop]
  rw [split, List.take_add, List.drop_drop, start]

theorem Course.forward (course : Course bytes first steps replies portions past) : first ≤ past := by
  induction course with
  | done => exact Nat.le_refl _
  | next _ forward _ _ ih => exact Nat.le_trans forward ih

/-- The portions make up what lies between the first position and the last. -/
theorem Course.flatten_eq (course : Course bytes first steps replies portions past) :
    portions.flatten = bytes.extract first past := by
  induction course with
  | done => simp [List.extract_eq_take_drop]
  | next _ forward slice rest ih =>
    rw [List.flatten_cons, ih, slice, extract_append_extract forward rest.forward]

/-- Reading all that is left leads to the end of the buffer, or stays beyond it. -/
theorem Course.at_end (course : Course bytes first steps replies portions past)
    (read : .readAll ∈ steps) : bytes.length ≤ past := by
  induction course with
  | done => exact absurd read List.not_mem_nil
  | next passes _ _ rest ih =>
    rcases List.mem_cons.mp read with rfl | later
    · cases passes with
      | readAll =>
        have onward := rest.forward
        rw [List.length_drop] at onward
        omega
    · exact ih later

theorem Course.ended (course : Course bytes first steps replies portions past)
    (beyond : bytes.length ≤ first) : ∀ reply ∈ replies, reply.Ended := by
  induction course with
  | done => exact fun _ member => absurd member List.not_mem_nil
  | next passes forward _ _ ih =>
    exact List.forall_mem_cons.mpr ⟨passes.ended beyond, ih (Nat.le_trans beyond forward)⟩

/-- Steps on a buffer, from its start. One position runs along with them, which never goes back: each
step gives and passes over what lies there, and a look moves nothing. What has been passed over, whether
read, skipped or in lines that are no text, is all of the buffer up to the position; so it is the whole
buffer once all that was left has been read. From the end on, or beyond it, steps give nothing and do not
fail. -/
theorem steps_pass_each_byte_once (bytes : Bytes) (steps : List CursorStep) :
    let replies := (runAll { bytes } steps).1
    let after := (runAll { bytes } steps).2
    after.bytes = bytes ∧
    (∃ portions, Course bytes 0 steps replies portions after.position ∧
      portions.flatten = bytes.take after.position ∧
      (.readAll ∈ steps → portions.flatten = bytes)) ∧
    (bytes.length ≤ after.position →
      ∀ later, ∀ reply ∈ (runAll after later).1, reply.Ended) := by
  intro replies after
  obtain ⟨same, portions, course⟩ : after.bytes = bytes ∧ ∃ portions, Course bytes 0 steps replies
    portions after.position := course_runAll steps { bytes }
  have passed : portions.flatten = bytes.take after.position := by
    rw [course.flatten_eq, List.extract_eq_take_drop]
    rfl
  refine ⟨same, ⟨portions, course, passed, fun read => ?_⟩, fun beyond later => ?_⟩
  · rw [passed, List.take_of_length_le (course.at_end read)]
  · obtain ⟨_, _, onward⟩ := course_runAll later after
    exact onward.ended (same ▸ beyond)

/-- A look, a line that is no text, a skip beyond the end, and reads behind that. -/
theorem steps_pass_each_byte_once_of_overshoot :
    let bytes : Bytes := [97, 98, 10, 255, 10, 99]
    let steps : List CursorStep := [.read 1, .look, .readLine, .readLine, .skip 9, .readAll]
    let replies : List Reply := [.bytes [97], .bytes [98, 10, 255, 10, 99], .line (.ok "b\n"),
      .line (.error .invalidText), .nothing, .bytes []]
    runAll { bytes } steps = (replies, { bytes, position := 14 }) ∧
    (∃ portions, Course bytes 0 steps replies portions 14 ∧ portions.flatten = bytes) ∧
    ∀ reply ∈ (runAll { bytes, position := 14 } [.readLine, .read 2]).1, reply.Ended := by
  intro bytes steps replies
  have ran : runAll { bytes } steps = (replies, { bytes, position := 14 }) := by decide +kernel
  obtain ⟨_, ⟨portions, course, _, whole⟩, ended⟩ := steps_pass_each_byte_once bytes steps
  rw [ran] at course ended
  exact ⟨ran, ⟨portions, course, whole (by simp [steps])⟩, ended (by decide) _⟩

end CursorStep

end LineShell
