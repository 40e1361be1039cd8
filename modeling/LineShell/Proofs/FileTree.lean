import LineShell.Files
/-!
What writing a file changes in a tree of files: what the place holds, and nothing else. Paths lead
where they led before.
-/

namespace LineShell.Files

variable {files : Files} {location other start last : Location} {path : String} {content : Bytes}

private theorem lookup_others {α β : Type} [DecidableEq α] (key wanted : α) (entries : List (α × β)) :
    (entries.filter fun entry => entry.1 ≠ key).lookup wanted =
      if wanted = key then none else entries.lookup wanted := by
  induction entries with
  | nil => simp
  | cons first later ih =>
    obtain ⟨name, value⟩ := first
    by_cases dropped : name = key
    · subst dropped
      have gone : ((name, value) :: later).filter (fun entry => entry.1 ≠ name) =
          later.filter fun entry => entry.1 ≠ name := List.filter_cons_of_neg (by simp)
      rw [gone, ih]
      by_cases same : wanted = name
      · rw [if_pos same, if_pos same]
      · have test : (wanted == name) = false := beq_eq_false_iff_ne.mpr same
        rw [if_neg same, if_neg same, List.lookup_cons, test]
    · have kept : ((name, value) :: later).filter (fun entry => entry.1 ≠ key) =
          (name, value) :: later.filter fun entry => entry.1 ≠ key :=
        List.filter_cons_of_pos (by simpa using dropped)
      rw [kept, List.lookup_cons, List.lookup_cons, ih]
      by_cases same : wanted = name
      · have test : (wanted == name) = true := beq_iff_eq.mpr same
        have remains : wanted ≠ key := same ▸ dropped
        simp only [test, if_neg remains]
      · have test : (wanted == name) = false := beq_eq_false_iff_ne.mpr same
        rw [test]

theorem names_ne_nil (free : files.node? location ≠ some .directory) : location.names ≠ [] := by
  intro base
  exact free (if_pos base)

theorem node?_put_self (free : files.node? location ≠ some .directory) (node : FileNode) :
    (files.put location node).node? location = some node := by
  rw [node?, if_neg (names_ne_nil free), put, List.lookup_append, lookup_others, if_pos rfl]
  simp

theorem node?_put_of_ne (different : other ≠ location) (node : FileNode) :
    (files.put location node).node? other = files.node? other := by
  have test : (other == location) = false := beq_eq_false_iff_ne.mpr different
  simp only [node?, put, List.lookup_append, lookup_others, if_neg different, List.lookup_cons, test,
    List.lookup_nil, Option.or_none]

/-- The ways that could be followed still can when a file has been put where no directory is. -/
theorem walk_put (free : files.node? location ≠ some .directory)
    (led : files.walk start names = .ok last) :
    (files.put location (.file content)).walk start names = .ok last := by
  induction names generalizing start with
  | nil => exact led
  | cons name names ih =>
    rw [walk] at led ⊢
    cases held : files.node? start with
    | none => simp [held] at led
    | some node =>
      cases node with
      | file before => simp [held] at led
      | directory =>
        have different : start ≠ location := by
          rintro rfl
          exact free held
        rw [node?_put_of_ne different, held]
        rw [held] at led
        simp only at led ⊢
        split at led
        · rename_i stays
          rw [if_pos stays]
          exact ih led
        · rename_i moves
          rw [if_neg moves]
          split at led
          · rename_i up
            rw [if_pos up]
            exact ih led
          · rename_i down
            rw [if_neg down]
            exact ih led

theorem locateFile_eq_ok_iff :
    files.locateFile path = .ok location ↔ path.endsWith "/" = false ∧
      files.locate path = .ok location ∧ files.node? location ≠ some .directory := by
  unfold locateFile
  by_cases slash : path.endsWith "/" = true
  · simp only [slash, ↓reduceIte, Bool.true_eq_false, false_and, iff_false]
    cases files.locateBare path <;> nofun
  · simp only [slash, Bool.false_eq_true, ↓reduceIte, true_and]
    cases located : files.locate path with
    | error error =>
      constructor
      · nofun
      · rintro ⟨impossible, _⟩
        cases impossible
    | ok place =>
      simp only [bind, Except.bind]
      by_cases directory : files.node? place = some .directory
      · rw [if_pos directory]
        constructor
        · nofun
        · rintro ⟨same, free⟩
          cases same
          exact absurd directory free
      · rw [if_neg directory]
        constructor
        · intro same
          cases same
          exact ⟨rfl, directory⟩
        · rintro ⟨same, _⟩
          exact same

/-- Wherever a path leads, it leads there still when a file has been written. -/
theorem locateFile_put (free : files.node? location ≠ some .directory)
    (leads : files.locateFile path = .ok last) :
    (files.put location (.file content)).locateFile path = .ok last := by
  obtain ⟨bare, located, open_⟩ := locateFile_eq_ok_iff.mp leads
  refine locateFile_eq_ok_iff.mpr ⟨bare, ?_, ?_⟩
  · unfold locate at located ⊢
    split at located
    · cases located
    · rename_i named
      rw [if_neg named]
      exact walk_put free located
  · by_cases same : last = location
    · rw [same, node?_put_self free]
      nofun
    · rwa [node?_put_of_ne same]

theorem read_of_locateFile (leads : files.locateFile path = .ok location) :
    files.read path = match files.node? location with
      | some (.file held) => .ok held
      | _ => .error .notFound := by
  obtain ⟨_, located, free⟩ := locateFile_eq_ok_iff.mp leads
  unfold read
  rw [located]
  cases held : files.node? location with
  | none => simp [bind, Except.bind, held]
  | some node =>
    cases node with
    | file before => simp [bind, Except.bind, held]
    | directory => exact absurd held free

theorem save_of_locateFile (leads : files.locateFile path = .ok location) :
    files.save path content = .ok (files.put location (.file content)) := by
  rw [save, leads]
  rfl

/-- Writing at the end of a file that is there only changes what it holds. -/
theorem append_of_locateFile (leads : files.locateFile path = .ok location)
    (held : files.node? location = some (.file before)) :
    files.append path content = .ok (files.put location (.file (before ++ content))) := by
  rw [append, leads]
  simp only [bind, Except.bind, held]
  rfl

end LineShell.Files
