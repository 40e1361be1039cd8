import Mathlib
import LineShell.Host
import LineShell.Proofs.FileTree
import LineShell.Proofs.HistoryRefinement
import LineShell.Proofs.PlainLines
/-!
What a history is after it has been saved to its file and read back. Entries come back as they were
just when each of them is a clean line.
-/

namespace LineShell

variable {σ τ : Type}

namespace Lines

theorem inside_of_mem_segments {α : Type} {ends : α → Bool} {units line : List α}
    (member : line ∈ segments ends units) :
    ∃ inside, (∀ unit ∈ inside, ends unit = false) ∧
      (line = inside ∨ ∃ last, ends last = true ∧ line = inside ++ [last]) := by
  induction units generalizing line with
  | nil => cases member
  | cons unit rest ih =>
    by_cases closes : ends unit = true
    · rw [segments, if_pos closes] at member
      rcases List.mem_cons.mp member with rfl | later
      · exact ⟨[], by simp, .inr ⟨unit, closes, rfl⟩⟩
      · exact ih later
    · have goesOn : ends unit = false := by simpa using closes
      rw [segments, if_neg closes] at member
      cases cut : segments ends rest with
      | nil =>
        rw [cut] at member
        obtain rfl := List.mem_singleton.mp member
        exact ⟨[unit], by simpa using goesOn, .inl rfl⟩
      | cons first more =>
        rw [cut] at member ih
        rcases List.mem_cons.mp member with rfl | later
        · obtain ⟨inside, unbroken, shape⟩ := ih List.mem_cons_self
          have still : ∀ other ∈ unit :: inside, ends other = false :=
            List.forall_mem_cons.mpr ⟨goesOn, unbroken⟩
          refine ⟨unit :: inside, still, ?_⟩
          rcases shape with rfl | ⟨last, closes, rfl⟩
          · exact .inl rfl
          · exact .inr ⟨last, closes, rfl⟩
        · exact ih (List.mem_cons_of_mem first later)

theorem chomp_append_return (line : List Char) : chomp (line ++ ['\r'] ++ ['\n']) = line := by
  simp [chomp]

theorem chomp_append_newline_start (line : List Char) : chomp (line ++ ['\n']) <+: line := by
  by_cases bare : line.getLast? = some '\r'
  · obtain ⟨front, rfl⟩ := List.getLast?_eq_some_iff.mp bare
    rw [chomp_append_return]
    exact List.prefix_append front _
  · simp [chomp_append_newline bare]

theorem chomp_of_unbroken {line : List Char} (unbroken : '\n' ∉ line) : chomp line = line := by
  unfold chomp
  split
  · rename_i letters
    have last : '\n' ∈ line.reverse := letters ▸ List.mem_cons_self
    exact absurd (List.mem_reverse.mp last) unbroken
  · rename_i letters
    have last : '\n' ∈ line.reverse := letters ▸ List.mem_cons_self
    exact absurd (List.mem_reverse.mp last) unbroken
  · rfl

private theorem isNewline_of_unbroken {line : List Char} (unbroken : '\n' ∉ line) :
    ∀ c ∈ line, isNewline c = false := by
  intro c member
  have other : c ≠ '\n' := by
    rintro rfl
    exact unbroken member
  exact beq_eq_false_iff_ne.mpr other

theorem unbroken_of_mem_ofText {text line : String} (member : line ∈ ofText text) :
    '\n' ∉ line.toList := by
  obtain ⟨segment, cut, rfl⟩ := List.mem_map.mp member
  obtain ⟨inside, unended, shape⟩ := inside_of_mem_segments cut
  have unbroken : '\n' ∉ inside := by
    intro newline
    have ended := unended '\n' newline
    cases ended
  rw [String.toList_ofList]
  rcases shape with rfl | ⟨last, closes, rfl⟩
  · rwa [chomp_of_unbroken unbroken]
  · obtain rfl : last = '\n' := beq_iff_eq.mp closes
    intro newline
    exact unbroken ((chomp_append_newline_start inside).subset newline)

/-- A text of unbroken lines has these lines, less a carriage return at their ends. -/
theorem ofText_linesText_of_unbroken {lines : List String}
    (unbroken : ∀ line ∈ lines, '\n' ∉ line.toList) :
    ofText (History.linesText lines) = lines.map fun line => chompText (line ++ "\n") := by
  induction lines with
  | nil => rfl
  | cons line later ih =>
    have inside := isNewline_of_unbroken (unbroken line List.mem_cons_self)
    have rest := ih fun other member => unbroken other (List.mem_cons_of_mem line member)
    have letters : (History.linesText (line :: later)).toList =
        line.toList ++ '\n' :: (History.linesText later).toList := by
      simp [History.linesText, String.join_cons]
    have first : (line ++ "\n").toList = line.toList ++ ['\n'] := by simp
    rw [ofText, letters, segments_append_cons inside rfl, List.map_cons, List.map_cons, chompText,
      first]
    exact congrArg _ rest

/-- The lines of a text are those that it was made of. -/
theorem ofText_linesText {lines : List String} (plain : ∀ line ∈ lines, Plain line) :
    ofText (History.linesText lines) = lines := by
  have same : ∀ line ∈ lines, chompText (line ++ "\n") = id line :=
    fun line member => chompText_append_newline (plain line member)
  rw [ofText_linesText_of_unbroken fun line member => (plain line member).unbroken,
    List.map_congr_left same, List.map_id]

theorem plain_of_chompText {line : String} (unbroken : '\n' ∉ line.toList)
    (same : chompText (line ++ "\n") = line) : Plain line where
  unbroken := unbroken
  bare := by
    intro last
    obtain ⟨front, letters⟩ := List.getLast?_eq_some_iff.mp last
    have whole : (line ++ "\n").toList = front ++ ['\r'] ++ ['\n'] := by simp [letters]
    have shorter := congrArg String.toList same
    rw [chompText, whole, chomp_append_return, String.toList_ofList, letters] at shorter
    simp at shorter

end Lines

namespace History

/-- An entry that a file can hold: a plain line that is not blank. -/
structure Clean (entry : String) : Prop extends Lines.Plain entry where
  filled : Text.isBlankLine entry = false

theorem of_mem_entriesOfText {text entry : String} (member : entry ∈ entriesOfText text) :
    '\n' ∉ entry.toList ∧ Text.isBlankLine entry = false := by
  obtain ⟨line, kept⟩ := List.mem_filter.mp member
  exact ⟨Lines.unbroken_of_mem_ofText line, by simpa using kept⟩

theorem fileOf_of_filled {entries : List String}
    (filled : ∀ entry ∈ entries, Text.isBlankLine entry = false) :
    fileOf entries = linesText entries := by
  -- An empty entry alone would be lost in the file, but entries are not blank.
  have several : entries ≠ [""] := by
    rintro rfl
    have blank := filled "" List.mem_cons_self
    rw [Text.isBlankLine_empty] at blank
    cases blank
  rw [fileOf, if_neg several]

theorem entriesOfText_fileOf {entries : List String} (clean : ∀ entry ∈ entries, Clean entry) :
    entriesOfText (fileOf entries) = entries := by
  have lines := Lines.ofText_linesText fun entry member => (clean entry member).toPlain
  rw [fileOf_of_filled fun entry member => (clean entry member).filled, entriesOfText, lines]
  exact List.filter_eq_self.mpr fun entry member => by simp [(clean entry member).filled]

/-- A file gives back the entries that it was made of just when all of them are clean. -/
theorem entriesOfText_fileOf_iff {entries : List String} :
    entriesOfText (fileOf entries) = entries ↔ ∀ entry ∈ entries, Clean entry := by
  refine ⟨?_, entriesOfText_fileOf⟩
  intro same
  have read : ∀ entry ∈ entries, '\n' ∉ entry.toList ∧ Text.isBlankLine entry = false := by
    intro entry member
    rw [← same] at member
    exact of_mem_entriesOfText member
  rw [fileOf_of_filled fun entry member => (read entry member).2, entriesOfText,
    Lines.ofText_linesText_of_unbroken fun entry member => (read entry member).1] at same
  -- As many entries come back as there are lines, so no line was left out for being blank.
  have whole : (entries.map fun entry => Lines.chompText (entry ++ "\n")) = entries := by
    have long := congrArg List.length same
    rw [List.filter_eq_self.mpr] at same
    · exact same
    · apply List.length_filter_eq_length_iff.mp
      rw [long, List.length_map]
  intro entry member
  have kept : Lines.chompText (entry ++ "\n") = entry := by
    have fixed := whole.trans (List.map_id entries).symm
    exact List.map_inj_left.mp fixed entry member
  exact ⟨Lines.plain_of_chompText (read entry member).1 kept, (read entry member).2⟩

variable {path : String} {host : Host}

theorem runOn_saveTo {there : Location} (writable : host.files.locateFile path = .ok there)
    (saved : Memory σ) :
    ∃ kept, ((saveTo path).runFrom saved).runOn host = ((.ok (), saved), kept) ∧
      kept.files.read path = .ok (Bytes.ofText (fileOf saved.history.entries)) := by
  have free := (Files.locateFile_eq_ok_iff.mp writable).2.2
  have wrote : host.files.save path (Bytes.ofText saved.history.fileText) = .ok (host.files.put
      there (.file (Bytes.ofText saved.history.fileText))) := Files.save_of_locateFile writable
  have reads : ∀ content, (host.files.put there (.file content)).read path = .ok content := by
    intro content
    rw [Files.read_of_locateFile (Files.locateFile_put free writable), Files.node?_put_self free]
  refine ⟨{ host with files := host.files.put there (.file (Bytes.ofText saved.history.fileText)) },
    ?_, ?_⟩
  · have asks : (saveTo path).runFrom saved =
        .ask (.save path (Bytes.ofText saved.history.fileText)) fun answer =>
          .done (answer.mapError fun error =>
            .context ("hist: can't write " ++ path) (.device error), saved) := rfl
    simp only [asks, Program.runOn, Program.run, Host.answer, wrote]
    rfl
  · rw [reads, fileText_eq, fileOf]

theorem runOn_restoreFrom {text : String} (readable : host.files.read path = .ok (Bytes.ofText text))
    {fresh : Memory σ} (first : fresh.history.restored = false) :
    (((restoreFrom path).runFrom fresh).runOn host).1 =
      (.ok (), { fresh with history := fresh.history.restore (entriesOfText text) }) := by
  rw [restoreFrom, Program.runOn, Action.runFrom_bind, Action.runFrom_get, pure_bind]
  simp only [first, Bool.false_eq_true, ↓reduceIte, Action.runFrom_bind, Action.ofProgram,
    Action.runFrom_ofFun, Program.run_bind, Program.run_pure]
  have loaded : (Program.load path).run Host.answer host = (.ok (Bytes.ofText text), host) := by
    rw [← readable]
    rfl
  simp only [loaded, Bytes.toText?_ofText]
  rfl

/-- A fresh history that reads what another has saved holds the same entries just when these were all
clean, if it has no limit. With a limit it holds the last of them. -/
theorem restoring_returns_saved (path : String) (saved : Memory σ) (client : τ) (host : Host)
    (there : Location) (writable : host.files.locateFile path = .ok there) :
    ∃ kept, ((saveTo path).runFrom saved).runOn host = ((.ok (), saved), kept) ∧
      ∀ limit, ∃ found,
        (((restoreFrom path).runFrom ⟨.ofLimit limit, client⟩).runOn kept).1 =
          (.ok (), ⟨found, client⟩) ∧
        (limit = 0 → (found.entries = saved.history.entries ↔
          ∀ entry ∈ saved.history.entries, Clean entry)) ∧
        ((∀ entry ∈ saved.history.entries, Clean entry) → 0 < limit →
          found.entries = saved.history.entries.rtake limit) := by
  obtain ⟨kept, wrote, readable⟩ := runOn_saveTo writable saved
  refine ⟨kept, wrote, fun limit => ⟨_, runOn_restoreFrom readable rfl, ?unlimited, ?limited⟩⟩
  case unlimited =>
    rintro rfl
    have whole : ((ofLimit 0).restore (entriesOfText (fileOf saved.history.entries))).entries =
        entriesOfText (fileOf saved.history.entries) := by
      simp [ofLimit, restore, trim]
    rw [whole]
    exact entriesOfText_fileOf_iff
  case limited =>
    intro clean positive
    have same := entriesOfText_fileOf clean
    have bounded : limit ≠ 0 := by omega
    simp only [restore, ofLimit, same, List.append_nil, trim_eq_lastOf, lastOf, if_neg bounded]

/-- Two commands, read back into a history of one entry. -/
theorem restoring_returns_saved_of_two :
    let saved : Memory Unit := { history := { entries := ["ls", "pwd"] }, client := () }
    ({} : Host).files.locateFile "log" = .ok ⟨.above 0, ["log"]⟩ ∧
    (∀ entry ∈ saved.history.entries, Clean entry) ∧
    ∃ kept, ((saveTo "log").runFrom saved).runOn {} = ((.ok (), saved), kept) ∧
      ∃ found, (((restoreFrom "log").runFrom ⟨.ofLimit 1, ()⟩).runOn kept).1 =
        (.ok (), ⟨found, ()⟩) ∧ found.entries = ["pwd"] := by
  intro saved
  have writable : ({} : Host).files.locateFile "log" = .ok ⟨.above 0, ["log"]⟩ := by
    have names : "log".splitOn "/" = ["log"] := by cbv
    have bare : "log".endsWith "/" = false := by decide +kernel
    have relative : "log".startsWith "/" = false := by decide +kernel
    have located : ({} : Files).locate "log" = .ok ⟨.above 0, ["log"]⟩ := by
      simp [Files.locate, BaseDirectory.ofPath, relative, names, Files.walk, Files.node?,
        Location.child]
    exact Files.locateFile_eq_ok_iff.mpr ⟨bare, located, by simp [Files.node?]⟩
  have clean : ∀ entry ∈ saved.history.entries, Clean entry := by
    intro entry member
    simp only [saved, List.mem_cons, List.not_mem_nil, or_false] at member
    rcases member with rfl | rfl
    · exact ⟨⟨by decide, by decide⟩, by decide⟩
    · exact ⟨⟨by decide, by decide⟩, by decide⟩
  obtain ⟨kept, wrote, reads⟩ := restoring_returns_saved "log" saved () {} _ writable
  obtain ⟨found, restored, _, last⟩ := reads 1
  exact ⟨writable, clean, kept, wrote, found, restored, last clean Nat.one_pos⟩

end History

end LineShell
