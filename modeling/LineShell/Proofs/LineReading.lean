import LineShell.Proofs.BlankLines
import LineShell.Proofs.HistoryHandover
/-!
Lines read from bytes. A buffer is cut behind each newline, and each read gives one of the pieces,
without its newline and a carriage return right before that, or an error if its bytes are no text.
-/

namespace LineShell

variable {σ : Type}

namespace Bytes

theorem toNat_of_ascii {c : Char} {byte : UInt8} (member : byte ∈ String.utf8EncodeChar c)
    (ascii : byte.toNat < 128) : c.val.toNat = byte.toNat := by
  rw [String.utf8EncodeChar] at member
  split at member
  · obtain rfl := List.mem_singleton.mp member
    simp only [UInt8.toNat_ofNat']
    omega
  · exfalso
    split at member
    · simp only [List.mem_cons, List.not_mem_nil, or_false] at member
      rcases member with rfl | rfl <;> simp only [UInt8.toNat_ofNat'] at ascii <;> omega
    · split at member
      · simp only [List.mem_cons, List.not_mem_nil, or_false] at member
        rcases member with rfl | rfl | rfl <;> simp only [UInt8.toNat_ofNat'] at ascii <;> omega
      · simp only [List.mem_cons, List.not_mem_nil, or_false] at member
        rcases member with rfl | rfl | rfl | rfl <;>
          simp only [UInt8.toNat_ofNat'] at ascii <;> omega

theorem utf8EncodeChar_of_ascii {c : Char} {byte : UInt8} (ascii : byte.toNat < 128)
    (same : c.val.toNat = byte.toNat) : String.utf8EncodeChar c = [byte] := by
  rw [String.utf8EncodeChar]
  split
  · simp [same]
  · omega

theorem ofText_eq_concat {text : String} {front : Bytes} {byte : UInt8} (ascii : byte.toNat < 128)
    (ended : ofText text = front ++ [byte]) :
    ∃ start c, text.toList = start ++ [c] ∧ c.val.toNat = byte.toNat ∧
      ofText (String.ofList start) = front := by
  rw [ofText_eq] at ended
  cases last : text.toList.getLast? with
  | none =>
    rw [List.getLast?_eq_none_iff.mp last] at ended
    simp at ended
  | some c =>
    obtain ⟨start, letters⟩ := List.getLast?_eq_some_iff.mp last
    rw [letters, List.flatMap_append, List.flatMap_singleton] at ended
    have member : byte ∈ String.utf8EncodeChar c := by
      have final := congrArg List.getLast? ended
      rw [List.getLast?_append_of_ne_nil _ String.utf8EncodeChar_ne_nil, List.getLast?_concat] at final
      exact List.mem_of_getLast? final
    have same := toNat_of_ascii member ascii
    rw [utf8EncodeChar_of_ascii ascii same] at ended
    refine ⟨start, c, letters, same, ?_⟩
    rw [ofText_eq, String.toList_ofList]
    exact List.append_cancel_right ended

theorem ofText_ne_concat {front : Bytes} {byte : UInt8} (ascii : byte.toNat < 128)
    (invalid : ∀ text, ofText text ≠ front) (text : String) : ofText text ≠ front ++ [byte] := by
  intro same
  obtain ⟨start, _, _, _, valid⟩ := ofText_eq_concat ascii same
  exact invalid _ valid

theorem eq_of_toNat {c d : Char} (same : c.val.toNat = d.val.toNat) : c = d :=
  Char.ext (UInt32.toNat.inj same)

theorem ofText_ofList_append (front back : List Char) :
    ofText (String.ofList (front ++ back)) =
      ofText (String.ofList front) ++ ofText (String.ofList back) := by
  simp [ofText_eq]

theorem ofText_inj {first second : String} (same : ofText first = ofText second) :
    first = second := by
  have texts := congrArg toText? same
  rwa [toText?_ofText, toText?_ofText, Option.some.injEq] at texts

theorem toText?_eq_none_iff {bytes : Bytes} :
    toText? bytes = none ↔ ∀ text, ofText text ≠ bytes := by
  constructor
  · rintro invalid text rfl
    simp at invalid
  · intro other
    cases valid : toText? bytes with
    | none => rfl
    | some text => exact absurd (ofText_of_toText? valid) (other text)

end Bytes

namespace Lines

/-- Bytes cut behind each newline. -/
inductive Cut : Bytes → List Bytes → Prop where
  | nothing : Cut [] []
  | last (filled : bytes ≠ []) (unbroken : 10 ∉ bytes) : Cut bytes [bytes]
  | line (unbroken : 10 ∉ front) (rest : Cut back pieces) :
      Cut (front ++ 10 :: back) ((front ++ [10]) :: pieces)

theorem isNewline_eq_false_of_unbroken {bytes : Bytes} (unbroken : 10 ∉ bytes) :
    ∀ byte ∈ bytes, Bytes.isNewline byte = false := by
  intro byte member
  refine Bool.eq_false_iff.mpr fun newline => ?_
  obtain rfl : byte = 10 := by simpa [Bytes.isNewline] using newline
  exact unbroken member

theorem segments_of_unended {α : Type} {ends : α → Bool} {line : List α}
    (inside : ∀ unit ∈ line, ends unit = false) (filled : line ≠ []) :
    segments ends line = [line] := by
  induction line with
  | nil => exact absurd rfl filled
  | cons first later ih =>
    obtain ⟨goesOn, others⟩ := List.forall_mem_cons.mp inside
    rw [segments, if_neg (by simp [goesOn])]
    cases later with
    | nil => rfl
    | cons next more => rw [ih others (List.cons_ne_nil _ _)]

theorem Cut.segments_eq (cut : Cut bytes pieces) : segments Bytes.isNewline bytes = pieces := by
  induction cut with
  | nothing => rfl
  | last filled unbroken =>
    exact segments_of_unended (isNewline_eq_false_of_unbroken unbroken) filled
  | line unbroken rest ih =>
    rw [segments_append_cons (isNewline_eq_false_of_unbroken unbroken) rfl, ih]

theorem exists_cut (bytes : Bytes) : ∃ pieces, Cut bytes pieces := by
  induction bytes with
  | nil => exact ⟨[], .nothing⟩
  | cons byte later ih =>
    obtain ⟨pieces, cut⟩ := ih
    -- A newline in front is a piece by itself. Any other byte goes to the first piece behind it.
    by_cases newline : byte = 10
    · subst newline
      have alone : (10 : UInt8) ∉ [] := List.not_mem_nil
      exact ⟨_, .line alone cut⟩
    cases cut with
    | nothing => exact ⟨[[byte]], .last (List.cons_ne_nil _ _) (by simpa using Ne.symm newline)⟩
    | last filled unbroken =>
      exact ⟨_, .last (List.cons_ne_nil byte _) (by simp [Ne.symm newline, unbroken])⟩
    | @line front back pieces unbroken rest =>
      have begun : 10 ∉ byte :: front := by simp [Ne.symm newline, unbroken]
      exact ⟨_, .line begun rest⟩

theorem cut_segments (bytes : Bytes) : Cut bytes (segments Bytes.isNewline bytes) := by
  obtain ⟨pieces, cut⟩ := exists_cut bytes
  rwa [cut.segments_eq]

/-- A line without its newline, and without a carriage return right before that. Without a newline it
stays as it is. -/
inductive Strips : Bytes → Bytes → Prop where
  | both (content : Bytes) : Strips (content ++ [13, 10]) content
  | newline (bare : content.getLast? ≠ some 13) : Strips (content ++ [10]) content
  | unended (unended : line.getLast? ≠ some 10) : Strips line line

def stripped (line : Bytes) : Bytes :=
  if line.getLast? = some 10 then
    if line.dropLast.getLast? = some 13 then line.dropLast.dropLast else line.dropLast
  else line

theorem Strips.eq_stripped (strips : Strips line content) : content = stripped line := by
  cases strips with
  | both =>
    have split : content ++ [13, 10] = (content ++ [13]) ++ [10] := by simp
    simp only [stripped, split, List.getLast?_concat, List.dropLast_concat, ↓reduceIte]
  | newline bare => simp [stripped, bare]
  | unended unended => rw [stripped, if_neg unended]

theorem Strips.unique (strips : Strips line content) (alike : Strips line other) :
    content = other :=
  strips.eq_stripped.trans alike.eq_stripped.symm

theorem plain_iff {line : String} :
    Plain line ↔ '\n' ∉ line.toList ∧ line.toList.getLast? ≠ some '\r' := by
  constructor
  · intro plain
    exact ⟨plain.unbroken, plain.bare⟩
  · rintro ⟨unbroken, bare⟩
    exact ⟨unbroken, bare⟩

theorem chomp_cases (line : List Char) :
    (∃ front, line = front ++ ['\r', '\n'] ∧ chomp line = front) ∨
    (∃ front, line = front ++ ['\n'] ∧ front.getLast? ≠ some '\r' ∧ chomp line = front) ∨
    line.getLast? ≠ some '\n' ∧ chomp line = line := by
  cases ended : line.getLast? with
  | none =>
    obtain rfl := List.getLast?_eq_none_iff.mp ended
    exact .inr (.inr ⟨nofun, rfl⟩)
  | some last =>
    obtain ⟨front, rfl⟩ := List.getLast?_eq_some_iff.mp ended
    by_cases newline : last = '\n'
    · subst newline
      by_cases bare : front.getLast? = some '\r'
      · obtain ⟨start, rfl⟩ := List.getLast?_eq_some_iff.mp bare
        exact .inl ⟨start, List.append_assoc .., chomp_append_return start⟩
      · exact .inr (.inl ⟨front, rfl, bare, chomp_append_newline bare⟩)
    · refine .inr (.inr ⟨by simpa using newline, ?_⟩)
      unfold chomp
      rw [List.reverse_concat]
      split
      · rename_i same
        exact absurd (List.cons.inj same).1 newline
      · rename_i same
        exact absurd (List.cons.inj same).1 newline
      · rfl

theorem ofText_getLast?_ne {letters : List Char} {c : Char} (ascii : c.val.toNat < 128)
    (bare : letters.getLast? ≠ some c) :
    (Bytes.ofText (String.ofList letters)).getLast? ≠ some (UInt8.ofNat c.val.toNat) := by
  intro ended
  obtain ⟨front, whole⟩ := List.getLast?_eq_some_iff.mp ended
  have byte : (UInt8.ofNat c.val.toNat).toNat = c.val.toNat := by
    rw [UInt8.toNat_ofNat']
    omega
  obtain ⟨start, last, shape, same, _⟩ := Bytes.ofText_eq_concat (byte.trans_lt ascii) whole
  rw [String.toList_ofList] at shape
  obtain rfl : last = c := Bytes.eq_of_toNat (same.trans byte)
  exact bare (by simp [shape])

theorem strips_chompText (text : String) :
    Strips (Bytes.ofText text) (Bytes.ofText (chompText text)) := by
  rw [chompText, ← String.ofList_toList (s := text)]
  generalize text.toList = letters
  rw [String.toList_ofList]
  rcases chomp_cases letters with
    ⟨front, rfl, same⟩ | ⟨front, rfl, bare, same⟩ | ⟨unended, same⟩
  · rw [same, Bytes.ofText_ofList_append]
    exact .both _
  · rw [same, Bytes.ofText_ofList_append]
    exact .newline (ofText_getLast?_ne (by decide) bare)
  · rw [same]
    exact .unended (ofText_getLast?_ne (by decide) unended)

end Lines

namespace ByteCursor

open Lines (Cut Strips)

/-- A piece gives its text without the end of its line, or an error if it is the bytes of no text. -/
inductive Gives (piece : Bytes) : Except DeviceError String → Prop where
  | line (valid : Bytes.ofText text = piece) (strips : Strips piece (Bytes.ofText line)) :
      Gives piece (.ok line)
  | invalid (invalid : ∀ text, Bytes.ofText text ≠ piece) : Gives piece (.error .invalidText)

theorem gives_iff : Gives piece item ↔ decodeLine piece = item := by
  constructor
  · intro gives
    cases gives with
    | line valid strips =>
      subst valid
      have same := Bytes.ofText_inj ((Lines.strips_chompText _).unique strips)
      simp [decodeLine, same]
    | invalid invalid => simp [decodeLine, Bytes.toText?_eq_none_iff.mpr invalid]
  · rintro rfl
    cases valid : Bytes.toText? piece with
    | none =>
      simp only [decodeLine, valid, Option.elim_none]
      exact .invalid (Bytes.toText?_eq_none_iff.mp valid)
    | some text =>
      simp only [decodeLine, valid, Option.elim_some]
      have bytes := Bytes.ofText_of_toText? valid
      exact .line bytes (bytes ▸ Lines.strips_chompText text)

/-- What has not been read, in pieces. -/
def pieces (cursor : ByteCursor) : List Bytes :=
  Lines.segments Bytes.isNewline cursor.rest

theorem lines_eq (cursor : ByteCursor) : cursor.lines = cursor.pieces.map decodeLine := rfl

theorem skip_skip (cursor : ByteCursor) (first second : Nat) :
    (cursor.skip first).skip second = cursor.skip (first + second) := by
  simp only [skip, Nat.add_assoc]

/-- What reading gives of the next piece, or at the end. -/
inductive Returns : Option Bytes → Except ShellError (Option String) → Prop where
  | line (gives : Gives piece (.ok line)) : Returns (some piece) (.ok (some line))
  | invalid (gives : Gives piece (.error error)) : Returns (some piece) (.error (.device error))
  | ended : Returns none (.ok none)

/-- What reading gives of the next line, or at the end. -/
def answer (next : Option (Except DeviceError String)) : Except ShellError (Option String) :=
  next.elim (.ok none) fun line => (line.map some).mapError .device

theorem returns_iff : Returns piece? result ↔ answer (piece?.map decodeLine) = result := by
  constructor
  · intro returns
    cases returns with
    | line gives | invalid gives =>
      have decoded := gives_iff.mp gives
      simp [answer, decoded, Except.map, Except.mapError]
    | ended => rfl
  · rintro rfl
    cases piece? with
    | none => exact .ended
    | some piece =>
      cases decoded : decodeLine piece with
      | ok line =>
        simp only [answer, decoded, Option.map_some, Option.elim_some]
        exact .line (gives_iff.mpr decoded)
      | error error =>
        simp only [answer, decoded, Option.map_some, Option.elim_some]
        exact .invalid (gives_iff.mpr decoded)

end ByteCursor

namespace Source

/-- A source is read once for each prompt. -/
inductive ReadsInRow (console : ConsoleId) : Source σ → σ → List String → List Exchange →
    List (Except ShellError (Option String)) → Source σ → σ → Prop where
  | done : ReadsInRow console source client [] [] [] source client
  | next {source middle after : Source σ} {client changed last : σ}
      (read : (source.read prompt console client).Runs asked (result, middle, changed))
      (rest : ReadsInRow console middle changed prompts later results after last) :
      ReadsInRow console source client (prompt :: prompts) (asked ++ later) (result :: results)
        after last

/-- Each of the prompts is shown if a person is at the other end. -/
def prompting (interactive : Bool) (console : ConsoleId) (prompts : List String) : List Exchange :=
  if interactive then prompts.map fun prompt => ⟨.write console .out prompt, .ok ()⟩ else []

variable {console : ConsoleId} {cursor : ByteCursor} {client changed : σ} {later : Source σ}
  {interactive : Bool}

/-- A source is read in each of the ways that reading can go. -/
theorem Reads.runs {source : Source σ}
    (reads : Reads prompt console source client asked result later changed) :
    (source.read prompt console client).Runs asked (result, later, changed) := by
  cases reads with
  | empty | piped | editor => exact Program.runs_pure_iff.mpr ⟨rfl, rfl⟩
  | @unshown _ _ error =>
    exact (Program.runs_write_iff.mpr rfl).bind (Program.runs_pure_iff.mpr ⟨rfl, rfl⟩)
  | shown => exact (Program.runs_write_iff.mpr rfl).bind (Program.runs_pure_iff.mpr ⟨rfl, rfl⟩)
  | custom ran =>
    refine Program.runs_bind_iff.mpr ⟨_, _, [], ran, Program.runs_pure_iff.mpr ⟨rfl, rfl⟩, ?_⟩
    exact (List.append_nil _).symm

/-- Reading comes with the prompt that is shown for it, and gives what is next. -/
theorem reads_prompting_iff {rest : List Exchange} :
    (Reads prompt console (buffered interactive cursor) client asked result later changed ∧
        asked ++ rest = prompting interactive console (prompt :: prompts)) ↔
      asked = prompting interactive console [prompt] ∧
        rest = prompting interactive console prompts ∧
        result = (nextLine cursor).1.mapError .device ∧
        later = .buffered interactive (nextLine cursor).2 ∧ changed = client := by
  constructor
  · rintro ⟨reads, all⟩
    cases reads with
    | unshown => simp [prompting] at all
    | shown => exact ⟨rfl, (List.cons.inj all).2, rfl, rfl, rfl⟩
    | piped => exact ⟨rfl, all, rfl, rfl, rfl⟩
  · rintro ⟨rfl, rfl, rfl, rfl, rfl⟩
    cases interactive with
    | true => exact ⟨.shown, rfl⟩
    | false => exact ⟨.piped, rfl⟩

/-- What is next is what the first piece gives, and reading passes over that piece. -/
theorem nextLine_eq (cursor : ByteCursor) :
    (nextLine cursor).1.mapError .device =
        ByteCursor.answer (cursor.pieces.head?.map ByteCursor.decodeLine) ∧
      (nextLine cursor).2 = cursor.skip (cursor.pieces.take 1).flatten.length ∧
      (nextLine cursor).2.pieces = cursor.pieces.tail := by
  have passed : (nextLine cursor).2 = cursor.skip cursor.firstLine.length := rfl
  by_cases empty : cursor.rest = []
  · obtain ⟨given, left⟩ := nextLine_of_rest_eq_nil empty
    have none : cursor.pieces = [] := by rw [ByteCursor.pieces, empty]; rfl
    have first := ByteCursor.firstLine_eq_nil_iff.mpr empty
    refine ⟨by rw [given, none]; rfl, by rw [passed, first, none]; rfl, ?_⟩
    rw [ByteCursor.pieces, left, none]
    rfl
  · have some : cursor.pieces = cursor.firstLine :: (nextLine cursor).2.pieces := by
      rw [ByteCursor.pieces, Lines.segments_cons _ empty, ByteCursor.pieces, nextLine,
        ByteCursor.rest_readLine]
      rfl
    refine ⟨by rw [nextLine_of_rest_ne_nil empty, some]; rfl, ?_, by rw [some]; rfl⟩
    rw [passed, some]
    simp

/-- What `count` reads give of the pieces, and the end when there is none left. -/
def given (pieces : List Bytes) (count : Nat) : List (Except ShellError (Option String)) :=
  (List.range count).map fun i => ByteCursor.answer (pieces[i]?.map ByteCursor.decodeLine)

theorem given_succ (pieces : List Bytes) (count : Nat) :
    given pieces (count + 1) =
      ByteCursor.answer (pieces.head?.map ByteCursor.decodeLine) :: given pieces.tail count := by
  simp only [given, List.range_succ_eq_map, List.map_cons, List.map_map, List.head?_eq_getElem?,
    List.getElem?_tail]
  rfl

theorem eq_given_iff {pieces : List Bytes} {count : Nat} :
    results = given pieces count ↔
      results.length = count ∧
        ∀ (i : Nat) result, results[i]? = some result → ByteCursor.Returns pieces[i]? result := by
  simp only [ByteCursor.returns_iff]
  constructor
  · rintro rfl
    refine ⟨by simp [given], fun i result found => ?_⟩
    simp only [given, List.getElem?_map, Option.map_eq_some_iff] at found
    obtain ⟨place, counted, same⟩ := found
    obtain ⟨_, rfl⟩ := List.getElem?_eq_some_iff.mp counted
    rwa [List.getElem_range] at same
  · rintro ⟨rfl, each⟩
    refine List.ext_getElem (by simp [given]) fun i inside _ => ?_
    simp only [given, List.getElem_map, List.getElem_range]
    exact (each i _ (List.getElem?_eq_getElem inside)).symm

theorem skip_succ (cursor : ByteCursor) (count : Nat) :
    cursor.skip (cursor.pieces.take (count + 1)).flatten.length =
      (nextLine cursor).2.skip ((nextLine cursor).2.pieces.take count).flatten.length := by
  obtain ⟨_, passed, left⟩ := nextLine_eq cursor
  rw [left, passed, ByteCursor.skip_skip]
  cases cursor.pieces <;> simp

theorem readsInRow_nil_iff {source : Source σ} :
    ReadsInRow console source client [] exchanges results later changed ↔
      exchanges = [] ∧ results = [] ∧ later = source ∧ changed = client := by
  constructor
  · rintro ⟨⟩
    exact ⟨rfl, rfl, rfl, rfl⟩
  · rintro ⟨rfl, rfl, rfl, rfl⟩
    exact .done

/-- Where each prompt is shown, reads in a row give what the pieces give one after the other, and then
the end. -/
theorem readsInRow_prompting_iff :
    ReadsInRow console (buffered interactive cursor) client prompts
        (prompting interactive console prompts) results later changed ↔
      results = given cursor.pieces prompts.length ∧
        later = .buffered interactive
          (cursor.skip (cursor.pieces.take prompts.length).flatten.length) ∧
        changed = client := by
  -- Each read leaves a cursor whose pieces are the tail of those before.
  induction prompts generalizing cursor results with
  | nil =>
    have silent : prompting interactive console [] = [] := by cases interactive <;> rfl
    rw [silent, readsInRow_nil_iff]
    simp [given, ByteCursor.skip]
  | cons prompt prompts ih =>
    obtain ⟨first, _, left⟩ := nextLine_eq cursor
    rw [List.length_cons, given_succ, ← first, ← left, skip_succ]
    constructor
    · intro row
      generalize told : prompting interactive console (prompt :: prompts) = exchanges at row
      cases row with
      | next read rest =>
        obtain ⟨rfl, rfl, rfl, rfl, rfl⟩ := reads_prompting_iff.mp ⟨reads_of_runs read, told.symm⟩
        obtain ⟨rfl, rfl, rfl⟩ := ih.mp rest
        exact ⟨rfl, rfl, rfl⟩
    · rintro ⟨rfl, rfl, rfl⟩
      obtain ⟨reads, all⟩ := reads_prompting_iff.mpr
        (⟨rfl, rfl, rfl, rfl, rfl⟩ : _ ∧ _ = prompting interactive console prompts ∧ _)
      rw [← all]
      exact .next reads.runs (ih.mpr ⟨rfl, rfl, rfl⟩)

/-- Reads give some lines and then the end just when the pieces are these lines. -/
theorem given_eq_iff {pieces : List Bytes} {held : List String} :
    given pieces (held.length + 1) = held.map (fun line => .ok (some line)) ++ [.ok none] ↔
      pieces.map ByteCursor.decodeLine = held.map .ok := by
  induction held generalizing pieces with
  | nil =>
    rw [List.length_nil, given_succ]
    cases pieces with
    | nil => simp [given, ByteCursor.answer]
    | cons piece more =>
      cases decoded : ByteCursor.decodeLine piece <;>
        simp [given, ByteCursor.answer, decoded, Except.map, Except.mapError]
  | cons line later ih =>
    rw [List.length_cons, given_succ]
    cases pieces with
    | nil => simp [ByteCursor.answer]
    | cons piece more =>
      cases decoded : ByteCursor.decodeLine piece <;>
        simp [ByteCursor.answer, decoded, Except.map, Except.mapError, ih]

end Source

namespace ByteCursor

open Lines (Cut Strips Plain)

theorem cut_ofLines {written : List String} (unbroken : ∀ line ∈ written, '\n' ∉ line.toList) :
    Cut (ofLines written).bytes (written.map fun line => Bytes.ofText line ++ [10]) := by
  induction written with
  | nil => exact .nothing
  | cons line later ih =>
    obtain ⟨first, others⟩ := List.forall_mem_cons.mp unbroken
    have inside : 10 ∉ Bytes.ofText line := fun newline =>
      absurd (Bytes.isNewline_ofText first 10 newline) (by decide)
    have bytes : (ofLines (line :: later)).bytes =
        Bytes.ofText line ++ 10 :: (ofLines later).bytes := by
      have newline : Bytes.ofText "\n" = [10] := rfl
      simp [ofLines, newline]
    rw [bytes]
    exact .line inside (ih others)

theorem lines_ofLines_iff {written : List String} :
    (ofLines written).lines = written.map .ok ↔ ∀ line ∈ written, Plain line := by
  refine ⟨fun same => ?_, lines_ofLines⟩
  have unbroken : ∀ line ∈ written, '\n' ∉ line.toList := by
    intro line member
    have held : .ok line ∈ (ofLines written).lines := same ▸ List.mem_map_of_mem member
    exact unbroken_of_mem_lines held
  have decoded : ∀ line ∈ written, decodeLine (Bytes.ofText line ++ [10]) = .ok line := by
    have cut : Cut (ofLines written).rest _ := cut_ofLines unbroken
    rw [lines_eq, pieces, cut.segments_eq, List.map_map] at same
    exact List.map_inj_left.mp same
  intro line member
  refine ⟨unbroken line member, fun ended => ?_⟩
  obtain ⟨front, letters⟩ := List.getLast?_eq_some_iff.mp ended
  have bytes : Bytes.ofText line = Bytes.ofText (String.ofList front) ++ [13] := by
    rw [← String.ofList_toList (s := line), letters, Bytes.ofText_ofList_append]
    rfl
  cases gives_iff.mpr (decoded line member) with
  | line _ strips =>
    have both := Strips.both (Bytes.ofText (String.ofList front))
    rw [bytes, List.append_assoc] at strips
    have lengths := congrArg List.length (both.unique strips)
    simp at lengths

end ByteCursor

namespace Lines

/-- Each newline with a carriage return put before it. -/
def crlf (bytes : Bytes) : Bytes :=
  bytes.flatMap fun byte => if byte = 10 then [13, 10] else [byte]

/-- No newline has a carriage return before it. -/
def Bare (bytes : Bytes) : Prop :=
  ∀ front back, bytes ≠ front ++ 13 :: 10 :: back

theorem crlf_of_unbroken {bytes : Bytes} (unbroken : 10 ∉ bytes) : crlf bytes = bytes := by
  induction bytes with
  | nil => rfl
  | cons byte later ih =>
    rw [List.mem_cons, not_or] at unbroken
    rw [crlf, List.flatMap_cons, if_neg (Ne.symm unbroken.1)]
    exact congrArg (byte :: ·) (ih unbroken.2)

theorem crlf_append_newline {front : Bytes} (unbroken : 10 ∉ front) (back : Bytes) :
    crlf (front ++ 10 :: back) = front ++ 13 :: 10 :: crlf back := by
  have inside := crlf_of_unbroken unbroken
  rw [crlf] at inside
  rw [crlf, List.flatMap_append, inside, List.flatMap_cons, if_pos rfl]
  rfl

theorem Cut.crlf (cut : Cut bytes pieces) : Cut (crlf bytes) (pieces.map Lines.crlf) := by
  induction cut with
  | nothing => exact .nothing
  | last filled unbroken =>
    rw [List.map_singleton, crlf_of_unbroken unbroken]
    exact .last filled unbroken
  | @line front back pieces unbroken rest ih =>
    have inside : 10 ∉ front ++ [13] := by simp [unbroken]
    have cut := Cut.line inside ih
    rw [crlf_append_newline unbroken, List.map_cons, crlf_append_newline unbroken]
    rw [List.append_assoc, List.append_assoc] at cut
    exact cut

end Lines

namespace ByteCursor

open Lines (Cut Strips Bare crlf)

/-- A carriage return before its newline changes nothing that a piece gives. -/
theorem decodeLine_return {front : Bytes} (bare : front.getLast? ≠ some 13) :
    decodeLine (front ++ [13, 10]) = decodeLine (front ++ [10]) := by
  cases valid : Bytes.toText? front with
  | some text =>
    obtain rfl := Bytes.ofText_of_toText? valid
    have both : Gives (Bytes.ofText text ++ [13, 10]) (.ok text) :=
      .line (Bytes.ofText_append text "\r\n") (.both _)
    have newline : Gives (Bytes.ofText text ++ [10]) (.ok text) :=
      .line (Bytes.ofText_append text "\n") (.newline bare)
    rw [gives_iff.mp both, gives_iff.mp newline]
  | none =>
    have invalid := Bytes.toText?_eq_none_iff.mp valid
    have newline : Gives (front ++ [10]) (.error .invalidText) :=
      .invalid (Bytes.ofText_ne_concat (by decide) invalid)
    have both : Gives (front ++ [13] ++ [10]) (.error .invalidText) :=
      .invalid (Bytes.ofText_ne_concat (by decide) (Bytes.ofText_ne_concat (by decide) invalid))
    rw [List.append_assoc] at both
    exact (gives_iff.mp both).trans (gives_iff.mp newline).symm

theorem map_decodeLine_crlf {bytes : Bytes} {pieces : List Bytes} (cut : Cut bytes pieces)
    (bare : Bare bytes) : (pieces.map crlf).map decodeLine = pieces.map decodeLine := by
  induction cut with
  | nothing => rfl
  | last _ unbroken => rw [List.map_singleton, Lines.crlf_of_unbroken unbroken]
  | @line front back pieces unbroken rest ih =>
    have single : front.getLast? ≠ some 13 := by
      intro ended
      obtain ⟨start, rfl⟩ := List.getLast?_eq_some_iff.mp ended
      exact bare start back (List.append_assoc ..)
    have later : Bare back := by
      rintro start more rfl
      exact bare (front ++ 10 :: start) more (by simp)
    have piece : crlf (front ++ [10]) = front ++ [13, 10] := Lines.crlf_append_newline unbroken []
    rw [List.map_cons, List.map_cons, piece, decodeLine_return single, List.map_cons, ih later]

end ByteCursor

namespace Source

open Lines (Cut Bare crlf)

variable {console : ConsoleId} {cursor : ByteCursor} {client changed : σ} {later : Source σ}
  {interactive : Bool}

theorem nextLine_alike {other : ByteCursor} (same : cursor.lines = other.lines) :
    (nextLine cursor).1.mapError ShellError.device = (nextLine other).1.mapError .device ∧
      (nextLine cursor).2.lines = (nextLine other).2.lines := by
  obtain ⟨first, _, left⟩ := nextLine_eq cursor
  obtain ⟨alike, _, remaining⟩ := nextLine_eq other
  rw [first, alike, ← List.head?_map, ← List.head?_map, ByteCursor.lines_eq, left, ByteCursor.lines_eq,
    remaining, List.map_tail, List.map_tail]
  rw [ByteCursor.lines_eq, ByteCursor.lines_eq] at same
  rw [same]
  exact ⟨rfl, rfl⟩

/-- Buffers that hold the same lines are read alike, also where a prompt is refused. -/
theorem ReadsInRow.alike {other : ByteCursor}
    (row : ReadsInRow console (buffered interactive cursor) client prompts exchanges results later
      changed)
    (same : cursor.lines = other.lines) :
    ∃ last, ReadsInRow console (buffered interactive other) client prompts exchanges results last
      changed := by
  generalize held : buffered interactive cursor = source at row
  induction row generalizing cursor other with
  | done => exact ⟨_, .done⟩
  | next read rest ih =>
    subst held
    cases reads_of_runs read with
    | unshown =>
      obtain ⟨last, row⟩ := ih same rfl
      exact ⟨last, .next Reads.unshown.runs row⟩
    | shown =>
      obtain ⟨result, left⟩ := nextLine_alike same
      obtain ⟨last, row⟩ := ih left rfl
      rw [result]
      exact ⟨last, .next Reads.shown.runs row⟩
    | piped =>
      obtain ⟨result, left⟩ := nextLine_alike same
      obtain ⟨last, row⟩ := ih left rfl
      rw [result]
      exact ⟨last, .next Reads.piped.runs row⟩

/-- Bytes are read piece by piece, cut behind each newline: each read gives the text of the next piece
without its newline and one carriage return right before that, or an error if the piece is the bytes of
no text, and passes over that piece; behind the last piece each read finds the end. So lines that are
written with a newline behind each are read back just when none holds a newline or ends in a carriage
return, and bytes without a carriage return before a newline are read alike with one before each. -/
theorem buffer_gives_pieces (bytes : Bytes) (interactive : Bool) (console : ConsoleId) (client : σ) :
    (∃! pieces, Cut bytes pieces) ∧
    (∀ pieces, Cut bytes pieces → ∀ prompts results later changed,
      ReadsInRow console (.buffered interactive { bytes }) client prompts
          (prompting interactive console prompts) results later changed ↔
        results.length = prompts.length ∧
        (∀ (i : Nat) result, results[i]? = some result → ByteCursor.Returns pieces[i]? result) ∧
        later = .buffered interactive
          { bytes, position := (pieces.take prompts.length).flatten.length } ∧
        changed = client) ∧
    (∀ lines : List String,
      (∃ prompts later changed,
        ReadsInRow console (.buffered interactive (.ofLines lines)) client prompts
          (prompting interactive console prompts)
          (lines.map (fun line => .ok (some line)) ++ [.ok none]) later changed) ↔
        ∀ line ∈ lines, '\n' ∉ line.toList ∧ line.toList.getLast? ≠ some '\r') ∧
    (Bare bytes → ∀ prompts exchanges results changed,
      (∃ later, ReadsInRow console (.buffered interactive { bytes }) client prompts exchanges results
        later changed) ↔
      ∃ later, ReadsInRow console (.buffered interactive { bytes := crlf bytes }) client prompts
        exchanges results later changed) := by
  refine ⟨?cut, ?pieces, ?written, ?returns⟩
  case cut =>
    exact ⟨_, Lines.cut_segments bytes, fun other cut => cut.segments_eq.symm⟩
  case pieces =>
    intro pieces cut prompts results later changed
    have same : ByteCursor.pieces { bytes } = pieces := cut.segments_eq
    rw [readsInRow_prompting_iff, same, eq_given_iff, ByteCursor.skip, Nat.zero_add, and_assoc]
  case written =>
    intro lines
    simp only [readsInRow_prompting_iff, ← Lines.plain_iff]
    rw [← ByteCursor.lines_ofLines_iff, ByteCursor.lines_eq, ← given_eq_iff]
    constructor
    · rintro ⟨prompts, _, _, same, _⟩
      have count := (eq_given_iff.mp same).1
      rwa [← count, List.length_append, List.length_map, List.length_singleton, eq_comm] at same
    · intro same
      refine ⟨List.replicate (lines.length + 1) "", _, _, ?_, rfl, rfl⟩
      rw [List.length_replicate, same]
  case returns =>
    intro bare prompts exchanges results changed
    have cut : Cut bytes (ByteCursor.pieces { bytes }) := Lines.cut_segments bytes
    have same : ByteCursor.lines { bytes } = ByteCursor.lines { bytes := crlf bytes } := by
      have returned : ByteCursor.pieces { bytes := crlf bytes } = _ := cut.crlf.segments_eq
      rw [ByteCursor.lines_eq, ByteCursor.lines_eq, returned]
      exact (ByteCursor.map_decodeLine_crlf cut bare).symm
    constructor
    · rintro ⟨_, row⟩
      exact row.alike same
    · rintro ⟨_, row⟩
      exact row.alike same.symm

/-- A carriage return before a newline and two of them, bytes that are no text, an empty line, and a
carriage return at the end; lines that are read back and one that is not; and a newline that a carriage
return is put before. -/
theorem buffer_gives_pieces_of_awkward :
    let bytes : Bytes := [97, 13, 10, 255, 10, 13, 13, 10, 10, 122, 13]
    let results := [.ok (some "a"), .error (.device .invalidText), .ok (some "\r"), .ok (some ""),
      .ok (some "z\r"), .ok none, .ok none]
    ReadsInRow 0 (.buffered false { bytes }) () (results.map fun _ => "") [] results
        (.buffered false { bytes, position := 11 }) () ∧
      (∃ prompts later changed,
        ReadsInRow 0 (.buffered false (.ofLines ["é", ""])) () prompts
          (prompting false 0 prompts) [.ok (some "é"), .ok (some ""), .ok none] later changed) ∧
      ¬(∃ prompts later changed,
        ReadsInRow 0 (.buffered false (.ofLines ["x\r"])) () prompts
          (prompting false 0 prompts) [.ok (some "x\r"), .ok none] later changed) ∧
      ((∃ later, ReadsInRow 0 (.buffered false { bytes := [97, 10] }) () [""] [] [.ok (some "a")]
          later ()) ↔
        ∃ later, ReadsInRow 0 (.buffered false { bytes := [97, 13, 10] }) () [""] []
          [.ok (some "a")] later ()) := by
  intro bytes results
  obtain ⟨_, reads, written, _⟩ := buffer_gives_pieces bytes false 0 ()
  obtain ⟨_, _, _, returns⟩ := buffer_gives_pieces [97, 10] false 0 ()
  refine ⟨?_, (written ["é", ""]).mpr (by decide), ?_, returns ?_ [""] [] _ ()⟩
  · let pieces : List Bytes := [[97, 13, 10], [255, 10], [13, 13, 10], [10], [122, 13]]
    have cut : Cut bytes pieces := Lines.cut_segments bytes
    have decoded : pieces.map ByteCursor.decodeLine =
        [.ok "a", .error .invalidText, .ok "\r", .ok "", .ok "z\r"] := by decide +kernel
    have same : results = given pieces 7 := by
      simp only [given, ← List.getElem?_map, decoded]
      rfl
    obtain ⟨_, each⟩ := eq_given_iff.mp same
    exact (reads pieces cut _ _ _ _).mpr ⟨rfl, each, rfl, rfl⟩
  · intro back
    exact ((written ["x\r"]).mp back _ List.mem_cons_self).2 rfl
  · intro front back same
    have member : (13 : UInt8) ∈ [97, 10] := same ▸ by simp
    exact absurd member (by decide)

end Source

end LineShell
