import LineShell.Proofs.Attaching
import LineShell.Proofs.Frame
/-!
Loads within loads. A module's load may load further modules, so that between the test whether a
module is attached and the note that it is, any other loads may take place. A module is attached if
and only if a load of it has succeeded; that was one load only, unless a module is loaded while it
is being loaded itself.
-/

namespace LineShell

variable {σ : Type}

open LineShell.Action

/-- What a load does: work of its own that attaches no modules, and loads of further modules. What
comes after work may depend on the session, and what comes after a load on how that ended. -/
inductive LoadTree (σ : Type) where
  | done
  | fail (failure : Failure)
  | work (own : Action Failure (Session σ) Unit)
      (apart : own.Leaves fun session => session.shell.modules) (next : Session σ → LoadTree σ)
  | load (name : String) (body : LoadTree σ) (next : Except ShellError Unit → LoadTree σ)

namespace LoadTree

def run : LoadTree σ → Action Failure (Session σ) Unit
  | done => pure ()
  | fail failure => throw failure
  | work own _ next => do
    own
    (next (← get)).run
  | load name body next => do
    let ended ← (Session.loadModule ⟨name, body.run⟩).result
    (next ended).run

/-- The load may come to load a module of the name. -/
inductive Mentions (name : String) : LoadTree σ → Prop where
  | here : Mentions name (load name body next)
  | inside (within : Mentions name body) : Mentions name (load other body next)
  | afterLoad {next : Except ShellError Unit → LoadTree σ} (within : Mentions name (next ended)) :
      Mentions name (load other body next)
  | afterWork {next : Session σ → LoadTree σ} (within : Mentions name (next session)) :
      Mentions name (work own apart next)

/-- No load of a module comes to load a module of the same name. -/
inductive Acyclic : LoadTree σ → Prop where
  | done : Acyclic done
  | fail {failure : Failure} : Acyclic (fail failure)
  | work (rest : ∀ session, Acyclic (next session)) : Acyclic (work own apart next)
  | load (once : ¬Mentions name body) (within : Acyclic body)
      (rest : ∀ ended, Acyclic (next ended)) : Acyclic (load name body next)

/-- A load as it was carried out, with the names of the loads that succeeded, in the order in which
they ended. -/
inductive Told : LoadTree σ → Session σ → List String → Except Failure Unit → Session σ → Prop where
  | done : Told done session [] (.ok ()) session
  | fail {failure : Failure} : Told (fail failure) session [] (.error failure) session
  | broke {failure : Failure} (apart : own.Leaves fun session => session.shell.modules)
      (ran : own.Runs before asked (.error failure) after) :
      Told (work own apart next) before [] (.error failure) after
  | worked (apart : own.Leaves fun session => session.shell.modules)
      (ran : own.Runs before asked (.ok ()) middle)
      (rest : Told (next middle) middle names ended after) :
      Told (work own apart next) before names ended after
  | already (attached : before.hasModule name = true)
      (rest : Told (next (.ok ())) before names ended after) :
      Told (load name body next) before names ended after
  | failed {failure : Failure} (new : before.hasModule name = false)
      (inside : Told body before names (.error failure) middle)
      (rest : Told (next (.error (.moduleLoad name failure))) middle more ended after) :
      Told (load name body next) before (names ++ more) ended after
  | attached (new : before.hasModule name = false)
      (inside : Told body before names (.ok ()) middle)
      (rest : Told (next (.ok ())) (middle.counting name) more ended after) :
      Told (load name body next) before (names ++ name :: more) ended after

variable {tree : LoadTree σ} {before after : Session σ} {names : List String}

theorem told_of_runs (ran : tree.run.Runs before asked ended after) :
    ∃ names, tree.Told before names ended after := by
  induction tree generalizing before asked ended after with
  | done =>
    obtain ⟨_, rfl, rfl⟩ := runs_pure_iff.mp ran
    exact ⟨[], .done⟩
  | fail failure =>
    obtain ⟨_, rfl, rfl⟩ := runs_throw_iff.mp ran
    exact ⟨[], .fail⟩
  | work own apart next ih =>
    rcases runs_bind_iff.mp ran with
      ⟨failure, broke, rfl⟩ | ⟨_, _, middle, _, worked, onward, _⟩
    · exact ⟨[], .broke apart broke⟩
    · obtain ⟨names, told⟩ := ih middle (runs_get_bind_iff.mp onward)
      exact ⟨names, .worked apart worked told⟩
  | load name body next ihBody ihNext =>
    obtain ⟨_, _, middle, _, loaded, onward, _⟩ := runs_result_bind_iff.mp ran
    obtain ⟨more, rest⟩ := ihNext _ onward
    cases Session.loads_of_runs loaded with
    | already attached => exact ⟨more, .already attached rest⟩
    | failed new broke =>
      obtain ⟨names, inside⟩ := ihBody broke
      exact ⟨names ++ more, .failed new inside rest⟩
    | attached new worked =>
      obtain ⟨names, inside⟩ := ihBody worked
      exact ⟨names ++ name :: more, .attached new inside rest⟩

theorem hasModule_of_apart {own : Action Failure (Session σ) Unit}
    (apart : own.Leaves fun session => session.shell.modules)
    (ran : own.Runs before asked ended after) : after.hasModule = before.hasModule :=
  funext fun name => congrArg (·.contains name) (apart _ _ _ _ ran)

/-- A module is attached if and only if it was before or a load of it has succeeded. -/
theorem Told.hasModule_iff (told : tree.Told before names ended after) (wanted : String) :
    after.hasModule wanted = true ↔ before.hasModule wanted = true ∨ wanted ∈ names := by
  induction told with
  | done => simp
  | fail => simp
  | broke apart ran => simp [hasModule_of_apart apart ran]
  | worked apart ran rest ih => rw [ih, hasModule_of_apart apart ran]
  | already attached rest ih => exact ih
  | failed new inside rest ihInside ihRest => rw [ihRest, ihInside, List.mem_append, or_assoc]
  | attached new inside rest ihInside ihRest =>
    rw [ihRest, Session.hasModule_counting, Bool.or_eq_true, decide_eq_true_eq, ihInside,
      List.mem_append, List.mem_cons]
    simp only [or_assoc, or_left_comm]

theorem Told.unattached (told : tree.Told before names ended after)
    (free : after.hasModule wanted = false) :
    before.hasModule wanted = false ∧ wanted ∉ names := by
  have never := (told.hasModule_iff wanted).not.mp (by simp [free])
  exact ⟨Bool.eq_false_iff.mpr fun attached => never (.inl attached), fun member => never (.inr member)⟩

/-- Only loads that may come about succeed. -/
theorem Told.mentions (told : tree.Told before names ended after) (member : wanted ∈ names) :
    tree.Mentions wanted := by
  induction told with
  | done => cases member
  | fail => cases member
  | broke => cases member
  | worked apart ran rest ih => exact .afterWork (ih member)
  | already attached rest ih => exact .afterLoad (ih member)
  | failed new inside rest ihInside ihRest =>
    rcases List.mem_append.mp member with early | late
    · exact .inside (ihInside early)
    · exact .afterLoad (ihRest late)
  | attached new inside rest ihInside ihRest =>
    rcases List.mem_append.mp member with early | late
    · exact .inside (ihInside early)
    · rcases List.mem_cons.mp late with rfl | later
      · exact .here
      · exact .afterLoad (ihRest later)

theorem unnoted {session : Session σ} (free : (session.counting name).hasModule wanted = false) :
    wanted ≠ name ∧ session.hasModule wanted = false := by
  rwa [Session.hasModule_counting, Bool.or_eq_false_iff, decide_eq_false_iff_not] at free

/-- If no module is loaded while it is being loaded itself, each load that succeeds is the only one
of its module, and the module was not attached before. -/
theorem Told.once (told : tree.Told before names ended after) (acyclic : tree.Acyclic) :
    names.Nodup ∧ ∀ name ∈ names, before.hasModule name = false := by
  induction told with
  | done => simp
  | fail => simp
  | broke => simp
  | worked apart ran rest ih =>
    cases acyclic with
    | work within =>
      rw [← hasModule_of_apart apart ran]
      exact ih (within _)
  | already attached rest ih =>
    cases acyclic with
    | load once within later => exact ih (later _)
  | failed new inside rest ihInside ihRest =>
    cases acyclic with
    | load once within later =>
      obtain ⟨single, fresh⟩ := ihInside within
      obtain ⟨singleAfter, freshAfter⟩ := ihRest (later _)
      refine ⟨List.nodup_append.mpr ⟨single, singleAfter, ?_⟩, ?_⟩
      · rintro wanted early _ late rfl
        exact (inside.unattached (freshAfter wanted late)).2 early
      · intro wanted member
        rcases List.mem_append.mp member with early | late
        · exact fresh wanted early
        · exact (inside.unattached (freshAfter wanted late)).1
  | attached new inside rest ihInside ihRest =>
    cases acyclic with
    | load once within later =>
      -- The module is noted after what is loaded inside and before what is loaded afterwards.
      obtain ⟨single, fresh⟩ := ihInside within
      obtain ⟨singleAfter, freshAfter⟩ := ihRest (later _)
      refine ⟨List.nodup_append.mpr ⟨single, List.nodup_cons.mpr ⟨?_, singleAfter⟩, ?_⟩, ?_⟩
      · exact fun late => (unnoted (freshAfter _ late)).1 rfl
      · rintro wanted early _ late rfl
        rcases List.mem_cons.mp late with rfl | late
        · exact once (inside.mentions early)
        · exact (inside.unattached (unnoted (freshAfter wanted late)).2).2 early
      · intro wanted member
        rcases List.mem_append.mp member with early | late
        · exact fresh wanted early
        · rcases List.mem_cons.mp late with rfl | late
          · exact new
          · exact (inside.unattached (unnoted (freshAfter wanted late)).2).1

/-- However the loads went, of each module at most one succeeds, if no module is loaded while it is being
loaded itself. In any case, those are listed that were before or of which a load has succeeded. -/
theorem loaded_at_most_once (ran : tree.run.Runs before asked ended after) :
    (∃ names, tree.Told before names ended after) ∧
    ∀ names, tree.Told before names ended after →
      (tree.Acyclic → ∀ name, names.count name ≤ if before.hasModule name then 0 else 1) ∧
      ∀ name, name ∈ after.shell.modules.names ↔
        name ∈ before.shell.modules.names ∨ name ∈ names := by
  refine ⟨told_of_runs ran, fun names told => ⟨fun acyclic name => ?_, fun name => ?_⟩⟩
  · obtain ⟨single, fresh⟩ := told.once acyclic
    split
    · exact (List.count_eq_zero.mpr fun member => by simp_all).le
    · exact List.nodup_iff_count_le_one.mp single name
  · simp only [NameTable.mem_names_iff]
    exact told.hasModule_iff name

/-- A module that loads another one and does nothing else. -/
def nested (outer inner : String) : LoadTree σ :=
  load outer (load inner done fun _ => done) fun _ => done

theorem acyclic_nested_iff {outer inner : String} :
    (nested outer inner : LoadTree σ).Acyclic ↔ outer ≠ inner := by
  constructor
  · rintro acyclic rfl
    cases acyclic with
    | load once => exact once .here
  · intro different
    refine .load ?_ (.load (fun within => nomatch within) .done fun _ => .done) fun _ => .done
    generalize reached : (load inner done fun _ => done : LoadTree σ) = tree
    intro within
    cases within with
    | here =>
      cases reached
      exact different rfl
    | inside within | afterLoad within =>
      cases reached
      cases within
    | afterWork => cases reached

/-- A module that loads another is loaded once, and so is the other. -/
theorem loaded_at_most_once_of_nested :
    let bare : Session Unit := { memory := { client := () } }
    ∃ asked after, (nested "a" "b").run.Runs bare asked (.ok ()) after ∧
      after.shell.modules.names = ["a", "b"] ∧
      (∃ names, (nested "a" "b").Told bare names (.ok ()) after) ∧
      ∀ names, (nested "a" "b").Told bare names (.ok ()) after →
        (∀ name, names.count name ≤ 1) ∧ ∀ name, name ∈ after.shell.modules.names ↔ name ∈ names := by
  intro bare
  have ran : (nested "a" "b").run.Runs bare
      [recorded .info Shell.logTarget "loaded module b", recorded .info Shell.logTarget "loaded module a"]
      (.ok ()) ((bare.counting "b").counting "a") := by
    apply Program.Runs.ask
    apply Program.Runs.ask
    exact .done _
  have acyclic : (nested "a" "b" : LoadTree Unit).Acyclic := acyclic_nested_iff.mpr (by decide)
  obtain ⟨telling, every⟩ := loaded_at_most_once ran
  refine ⟨_, _, ran, by decide +kernel, telling, fun names told => ?_⟩
  obtain ⟨once, listed⟩ := every names told
  exact ⟨once acyclic, fun name => (listed name).trans (or_iff_right List.not_mem_nil)⟩

/-- A module that loads another of its own name is loaded twice: the first is not attached yet when
the second is loaded. -/
theorem loaded_twice_within_itself :
    let bare : Session Unit := { memory := { client := () } }
    (∃ asked after, (nested "a" "a").run.Runs bare asked (.ok ()) after ∧
      after.shell.modules.names = ["a"]) ∧
      ∀ names ended after, (nested "a" "a").Told bare names ended after → names.count "a" = 2 := by
  intro bare
  constructor
  · have ran : (nested "a" "a").run.Runs bare
        [recorded .info Shell.logTarget "loaded module a",
          recorded .info Shell.logTarget "loaded module a"]
        (.ok ()) ((bare.counting "a").counting "a") := by
      apply Program.Runs.ask
      apply Program.Runs.ask
      exact .done _
    exact ⟨_, _, ran, by decide +kernel⟩
  · intro names ended after told
    rw [nested] at told
    cases told with
    | already attached => cases attached
    | failed _ inside =>
      cases inside with
      | already attached => cases attached
      | failed _ within => cases within
      | attached _ _ rest => cases rest
    | attached _ inside rest =>
      cases rest
      cases inside with
      | already attached => cases attached
      | failed _ within => cases within
      | attached _ within later =>
        cases within
        cases later
        rfl

end LoadTree

end LineShell
