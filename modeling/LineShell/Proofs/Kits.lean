import LineShell.Proofs.Attaching
/-!
Kits: modules that only load other modules in turn, the shell's own ones in the end. What loading a
kit completes is known beforehand, and a load that breaks off has completed the front of it, so that
what is left to complete is the rest.
-/

namespace LineShell

variable {σ : Type}

open LineShell.Action

/-- One of the shell's own modules, or a bundle of modules with a name of its own. -/
inductive Kit where
  | stock (which : Stock)
  | bundle (name : String) (parts : List Kit)

namespace Kit

def name : Kit → String
  | stock which => which.name
  | bundle name _ => name

mutual

/-- The module: a bundle loads its parts in turn, up to the first that fails. -/
def module : Kit → Module σ
  | stock which => which.module
  | bundle name parts => { name, load := loadAll parts }

def loadAll : List Kit → Action Failure (Session σ) Unit
  | [] => return
  | part :: later => do
    (Session.loadModule part.module).mapError .shell
    loadAll later

end

@[simp] theorem name_module (kit : Kit) : (kit.module : Module σ).name = kit.name := by
  cases kit with
  | stock which => exact which.name_module
  | bundle name parts => rfl

mutual

/-- The names of the kit and of all that it is made of. -/
def names : Kit → List String
  | stock which => [which.name]
  | bundle name parts => name :: namesAll parts

def namesAll : List Kit → List String
  | [] => []
  | part :: later => part.names ++ namesAll later

end

mutual

/-- No bundle is made of others among which is one of its own name. -/
def Proper : Kit → Prop
  | stock _ => True
  | bundle name parts => name ∉ namesAll parts ∧ ProperAll parts

def ProperAll : List Kit → Prop
  | [] => True
  | part :: later => part.Proper ∧ ProperAll later

end

/-- The names of what is loaded, once some kits more are. -/
def afterwards (loaded : String → Bool) (done : List Kit) (name : String) : Bool :=
  loaded name || done.any (·.name = name)

mutual

/-- What loading the kit completes, in order, when some modules are loaded already: its parts, as far
as they are not, and then the kit. -/
def plan (loaded : String → Bool) : Kit → List Kit
  | stock which => if loaded which.name then [] else [stock which]
  | bundle name parts => if loaded name then [] else planAll loaded parts ++ [bundle name parts]

def planAll (loaded : String → Bool) : List Kit → List Kit
  | [] => []
  | part :: later =>
    part.plan loaded ++ planAll (afterwards loaded (part.plan loaded)) later

end

section Plan

variable {loaded : String → Bool} {kit inner : Kit} {parts : List Kit} {front back : List Kit}

@[simp] theorem afterwards_nil : afterwards loaded [] = loaded := by
  funext name
  simp [afterwards]

theorem afterwards_append :
    afterwards loaded (front ++ back) = afterwards (afterwards loaded front) back := by
  funext name
  simp [afterwards, Bool.or_assoc]

theorem afterwards_eq_false_iff {name : String} :
    afterwards loaded front name = false ↔ loaded name = false ∧ ∀ done ∈ front, done.name ≠ name := by
  simp [afterwards]

theorem afterwards_of_loaded {name : String} (already : loaded name = true) :
    afterwards loaded front name = true := by
  simp [afterwards, already]

theorem afterwards_eq_true_of_mem (member : inner ∈ front) :
    afterwards loaded front inner.name = true := by
  simp only [afterwards, Bool.or_eq_true, List.any_eq_true, decide_eq_true_eq]
  exact .inr ⟨inner, member, rfl⟩

theorem plan_of_loaded (already : loaded kit.name = true) : kit.plan loaded = [] := by
  cases kit with
  | stock which =>
    have known : loaded which.name = true := already
    simp [plan, known]
  | bundle name parts =>
    have known : loaded name = true := already
    simp [plan, known]

theorem plan_stock {which : Stock} (new : loaded which.name = false) :
    (stock which).plan loaded = [stock which] := by
  simp [plan, new]

theorem plan_bundle {name : String} (new : loaded name = false) :
    (bundle name parts).plan loaded = planAll loaded parts ++ [bundle name parts] := by
  simp [plan, new]

theorem loaded_of_plan (kit : Kit) : afterwards loaded (kit.plan loaded) kit.name = true := by
  cases already : loaded kit.name with
  | true => simp [afterwards, already]
  | false =>
    apply afterwards_eq_true_of_mem
    cases kit with
    | stock which =>
      have new : loaded which.name = false := already
      simp [plan, new]
    | bundle name parts =>
      have new : loaded name = false := already
      simp [plan, new]

mutual

theorem mem_plan {loaded : String → Bool} {inner : Kit} : (kit : Kit) → inner ∈ kit.plan loaded →
    inner.name ∈ kit.names ∧ loaded inner.name = false
  | stock which, planned => by
    cases new : loaded which.name with
    | true => simp [plan, new] at planned
    | false =>
      obtain rfl : inner = stock which := by simpa [plan, new] using planned
      exact ⟨List.mem_singleton_self _, new⟩
  | bundle name parts, planned => by
    cases new : loaded name with
    | true => simp [plan, new] at planned
    | false =>
      simp only [plan, new, Bool.false_eq_true, ↓reduceIte, List.mem_append,
        List.mem_singleton] at planned
      rcases planned with within | rfl
      · obtain ⟨part, unloaded⟩ := mem_planAll parts within
        exact ⟨List.mem_cons_of_mem _ part, unloaded⟩
      · exact ⟨List.mem_cons_self, new⟩

theorem mem_planAll {loaded : String → Bool} {inner : Kit} : (parts : List Kit) →
    inner ∈ planAll loaded parts → inner.name ∈ namesAll parts ∧ loaded inner.name = false
  | [], planned => by simp [planAll] at planned
  | part :: later, planned => by
    rcases List.mem_append.mp planned with here | there
    · obtain ⟨within, unloaded⟩ := mem_plan part here
      exact ⟨List.mem_append_left _ within, unloaded⟩
    · obtain ⟨within, unloaded⟩ := mem_planAll later there
      exact ⟨List.mem_append_right _ within, (afterwards_eq_false_iff.mp unloaded).1⟩

end

mutual

theorem nodup_plan {loaded : String → Bool} : (kit : Kit) → kit.Proper →
    ((kit.plan loaded).map name).Nodup
  | stock which, _ => by
    cases new : loaded which.name <;> simp [plan, new]
  | bundle name parts, proper => by
    cases new : loaded name with
    | true => simp [plan, new]
    | false =>
      simp only [plan, new, Bool.false_eq_true, ↓reduceIte, List.map_append, List.map_cons,
        List.map_nil]
      refine List.nodup_append.mpr ⟨nodup_planAll parts proper.2, List.nodup_singleton _, ?_⟩
      rintro _ within _ last rfl
      obtain ⟨inner, planned, same⟩ := List.mem_map.mp within
      obtain rfl := List.mem_singleton.mp last
      exact proper.1 (same ▸ (mem_planAll parts planned).1)

theorem nodup_planAll {loaded : String → Bool} : (parts : List Kit) → ProperAll parts →
    ((planAll loaded parts).map name).Nodup
  | [], _ => List.nodup_nil
  | part :: later, proper => by
    rw [planAll, List.map_append]
    refine List.nodup_append.mpr ⟨nodup_plan part proper.1, nodup_planAll later proper.2, ?_⟩
    rintro _ first _ second rfl
    obtain ⟨inner, early, rfl⟩ := List.mem_map.mp first
    obtain ⟨other, late, same⟩ := List.mem_map.mp second
    have fresh := (afterwards_eq_false_iff.mp (mem_planAll later late).2).2
    exact fresh inner early same.symm

end

mutual

/-- Once the front of a plan is carried out, the rest of it is the plan. -/
theorem plan_resume {loaded : String → Bool} {front back : List Kit} : (kit : Kit) → kit.Proper →
    kit.plan loaded = front ++ back → kit.plan (afterwards loaded front) = back
  | stock which, _, planned => by
    cases new : loaded which.name with
    | true =>
      obtain ⟨rfl, rfl⟩ : front = [] ∧ back = [] := by simpa [plan, new] using planned
      simp [plan, new]
    | false =>
      have single : front ++ back = [stock which] := by simpa [plan, new] using planned.symm
      rcases List.append_eq_singleton_iff.mp single with ⟨rfl, rfl⟩ | ⟨rfl, rfl⟩
      · simp [plan, new]
      · simp [plan, afterwards, name]
  | bundle name parts, proper, planned => by
    rcases List.eq_nil_or_concat' back with rfl | ⟨more, last, rfl⟩
    · rw [List.append_nil] at planned
      exact plan_of_loaded (planned ▸ loaded_of_plan (bundle name parts))
    · cases new : loaded name with
      | true => simp [plan, new] at planned
      | false =>
        simp only [plan, new, Bool.false_eq_true, ↓reduceIte, ← List.append_assoc] at planned
        obtain ⟨early, alike⟩ := List.append_inj' planned rfl
        have waiting : afterwards loaded front name = false := by
          refine afterwards_eq_false_iff.mpr ⟨new, fun inner member same => ?_⟩
          have within : inner ∈ planAll loaded parts := early ▸ List.mem_append_left _ member
          exact proper.1 (same ▸ (mem_planAll parts within).1)
        simp only [plan, waiting, Bool.false_eq_true, ↓reduceIte]
        rw [planAll_resume parts proper.2 early, alike]

theorem planAll_resume {loaded : String → Bool} {front back : List Kit} : (parts : List Kit) →
    ProperAll parts → planAll loaded parts = front ++ back →
    planAll (afterwards loaded front) parts = back
  | [], _, planned => by
    obtain ⟨rfl, rfl⟩ := List.append_eq_nil_iff.mp planned.symm
    rfl
  | part :: later, proper, planned => by
    rw [planAll] at planned
    rcases List.append_eq_append_iff.mp planned with ⟨more, rfl, rest⟩ | ⟨more, early, rfl⟩
    · have done : part.plan (afterwards loaded (part.plan loaded ++ more)) = [] := by
        rw [afterwards_append]
        exact plan_of_loaded (afterwards_of_loaded (loaded_of_plan part))
      rw [planAll, done, List.nil_append, afterwards_nil, afterwards_append]
      exact planAll_resume later proper.2 rest
    · rw [planAll, plan_resume part proper.1 early, ← afterwards_append, ← early]

end

end Plan

/-- The session once a kit has been loaded whose parts are. -/
def complete (session : Session σ) : Kit → Session σ
  | stock which => (which.attach session).counting which.name
  | bundle name _ => session.counting name

def completeAll (done : List Kit) (session : Session σ) : Session σ :=
  done.foldl complete session

/-- The name that the kit itself binds a command to. -/
def command? : Kit → Option String
  | stock which => which.command?
  | bundle _ _ => none

/-- That name, if it is taken. -/
def clash? (kit : Kit) (session : Session σ) : Option String :=
  kit.command?.filter session.shell.commands.contains

/-- No name is taken when the kits are completed in turn. -/
def Unhindered : List Kit → Session σ → Prop
  | [], _ => True
  | kit :: later, session => kit.clash? session = none ∧ Unhindered later (kit.complete session)

section Complete

variable {session middle after : Session σ} {kit other : Kit} {parts front back done : List Kit}

@[simp] theorem completeAll_append (front back : List Kit) (session : Session σ) :
    completeAll (front ++ back) session = completeAll back (completeAll front session) :=
  List.foldl_append

theorem completeAll_concat (done : List Kit) (kit : Kit) (session : Session σ) :
    completeAll (done ++ [kit]) session = kit.complete (completeAll done session) :=
  completeAll_append done [kit] session

@[simp] theorem hasModule_complete (kit : Kit) (session : Session σ) :
    (kit.complete session).hasModule = afterwards session.hasModule [kit] := by
  funext asked
  cases kit <;> simp [complete, afterwards, name, Session.hasModule, Session.counting, Bool.or_comm,
    eq_comm]

@[simp] theorem hasModule_completeAll (done : List Kit) (session : Session σ) :
    (completeAll done session).hasModule = afterwards session.hasModule done := by
  induction done generalizing session with
  | nil => simp [completeAll]
  | cons kit done ih =>
    refine (ih (kit.complete session)).trans ?_
    rw [hasModule_complete, ← afterwards_append, List.singleton_append]

theorem contains_complete (kit : Kit) (session : Session σ) (name : String) :
    (complete session kit).shell.commands.contains name =
      (session.shell.commands.contains name || decide (kit.command? = some name)) := by
  cases kit with
  | stock which =>
    rw [complete, Session.commands_counting, Stock.contains_attach]
    rfl
  | bundle name parts => simp [complete, command?]

theorem contains_completeAll (done : List Kit) (session : Session σ) (name : String) :
    (completeAll done session).shell.commands.contains name =
      (session.shell.commands.contains name || done.any (·.command? = some name)) := by
  induction done generalizing session with
  | nil => simp [completeAll]
  | cons kit done ih =>
    refine (ih (kit.complete session)).trans ?_
    rw [contains_complete, List.any_cons, Bool.or_assoc]

theorem clash?_eq_some_iff : kit.clash? session = some command ↔
    kit.command? = some command ∧ session.shell.commands.contains command = true :=
  Option.filter_eq_some_iff

theorem name_eq_of_command (binds : kit.command? = some command)
    (same : other.command? = some command) : kit.name = other.name := by
  cases kit with
  | bundle => cases binds
  | stock which =>
    cases other with
    | bundle => cases same
    | stock => exact Stock.name_eq_of_command binds same

/-- What is in the way of one kit stays there when kits of other types are completed. -/
theorem clash?_completeAll (apart : ∀ kit ∈ done, kit.name ≠ other.name) :
    other.clash? (completeAll done session) = other.clash? session := by
  cases binds : other.command? with
  | none => simp [clash?, binds]
  | some command =>
    have unbound : done.any (·.command? = some command) = false := by
      simp only [List.any_eq_false, decide_eq_true_eq]
      exact fun kit member same => apart kit member (name_eq_of_command same binds)
    simp [clash?, binds, Option.filter, contains_completeAll, unbound]

theorem unhindered_append_iff : Unhindered (front ++ back) session ↔
    Unhindered front session ∧ Unhindered back (completeAll front session) := by
  induction front generalizing session with
  | nil => simp [Unhindered, completeAll]
  | cons kit front ih =>
    simp only [List.cons_append, Unhindered, ih, and_assoc]
    rfl

/-- Commands that the kits do not bind may be unbound before them as well as after. -/
theorem completeAll_without {names : List String} (session : Session σ)
    (apart : ∀ kit ∈ done, ∀ command, kit.command? = some command → command ∉ names) :
    (completeAll done session).without names = completeAll done (session.without names) := by
  induction done generalizing session with
  | nil => rfl
  | cons kit done ih =>
    have first : (complete session kit).without names = complete (session.without names) kit := by
      cases kit with
      | stock which =>
        rw [complete, Session.counting_without,
          Stock.attach_without session (apart _ List.mem_cons_self)]
        rfl
      | bundle name parts => exact Session.counting_without session name names
    refine (ih _ fun kit member => apart kit (List.mem_cons_of_mem _ member)).trans ?_
    exact congrArg (completeAll done) first

end Complete

/-- The names of the bundles on the way from a kit down to one of the shell's own modules in it. -/
inductive Leads : Kit → List String → Stock → Prop where
  | here : Leads (stock which) [] which
  | into {name : String} (member : part ∈ parts) (rest : Leads part path which) :
      Leads (bundle name parts) (name :: path) which

/-- A way into one of the parts. -/
def LeadsAll (parts : List Kit) (path : List String) (which : Stock) : Prop :=
  ∃ part ∈ parts, part.Leads path which

/-- The error of a load that breaks off, below some bundles, at a module whose command's name is
taken. -/
def blame (path : List String) (which : Stock) (command : String) : ShellError :=
  path.foldr (fun name error => .moduleLoad name (.shell error))
    (.moduleLoad which.name (.shell (.alreadyBound command)))

/-- An attempt to complete what is planned: all of it is completed, or all of it up to one of the
shell's own modules whose command's name is taken. The bundles on the way to that do not count as
loaded then. -/
inductive Attempt (planned : List Kit) (leads : List String → Stock → Prop) (session : Session σ) :
    Except ShellError Unit → Session σ → Prop where
  | completed (free : Unhindered planned session) :
      Attempt planned leads session (.ok ()) (completeAll planned session)
  | brokenOff (split : planned = front ++ stock which :: back) (way : leads path which)
      (free : Unhindered front session)
      (clash : which.clash? (completeAll front session) = some command)
      (under : ∀ bundle ∈ path, (completeAll front session).hasModule bundle = false) :
      Attempt planned leads session (.error (blame path which command)) (completeAll front session)

section Attempts

variable {leads more : List String → Stock → Prop} {session middle after : Session σ}
  {planned rest : List Kit}

theorem Attempt.wider (attempt : Attempt planned leads session ended after)
    (wider : ∀ path which, leads path which → more path which) :
    Attempt planned more session ended after := by
  cases attempt with
  | completed free => exact .completed free
  | brokenOff split way free clash under =>
    exact .brokenOff split (wider _ _ way) free clash under

/-- What is planned for later makes no difference to an attempt that breaks off. -/
theorem Attempt.extend (attempt : Attempt planned leads session (.error error) after)
    (rest : List Kit) : Attempt (planned ++ rest) leads session (.error error) after := by
  cases attempt with
  | brokenOff split way free clash under =>
    exact .brokenOff (by rw [split, List.append_assoc, List.cons_append]) way free clash under

/-- An attempt that completes all is followed by one from where it ended. -/
theorem Attempt.follow (free : Unhindered planned session)
    (attempt : Attempt rest leads (completeAll planned session) ended after) :
    Attempt (planned ++ rest) leads session ended after := by
  cases attempt with
  | completed onward =>
    exact completeAll_append planned rest session ▸
      .completed (unhindered_append_iff.mpr ⟨free, onward⟩)
  | @brokenOff front _ _ _ _ split way onward clash under =>
    have both := unhindered_append_iff.mpr ⟨free, onward⟩
    rw [← completeAll_append] at clash under ⊢
    exact .brokenOff (by rw [split, List.append_assoc]) way both clash under

mutual

/-- Loading a kit is an attempt to complete what is planned for it. -/
theorem attempt_of_runs {session after : Session σ} : (kit : Kit) → kit.Proper →
    (Session.loadModule kit.module).Runs session asked ended after →
    Attempt (kit.plan session.hasModule) kit.Leads session ended after
  | stock which, _, ran => by
    cases Session.loads_of_runs ran with
    | already counted =>
      rw [name_module] at counted
      rw [plan_of_loaded counted]
      exact .completed trivial
    | failed uncounted broke =>
      rcases which.load_cases broke with ⟨_, impossible, _⟩ | ⟨command, clash, same, rfl⟩
      · cases impossible
      · cases same
        rw [name_module] at uncounted
        rw [plan_stock uncounted, name_module]
        exact .brokenOff (List.nil_append _).symm Leads.here trivial clash fun _ member =>
          absurd member List.not_mem_nil
    | attached uncounted worked =>
      rcases which.load_cases worked with ⟨free, _, rfl⟩ | ⟨_, _, impossible, _⟩
      · rw [name_module] at uncounted
        rw [plan_stock uncounted, name_module]
        exact .completed ⟨free, trivial⟩
      · cases impossible
  | bundle name parts, proper, ran => by
    cases Session.loads_of_runs ran with
    | already counted =>
      rw [name_module] at counted
      rw [plan_of_loaded counted]
      exact .completed trivial
    | failed uncounted broke =>
      have new : session.hasModule name = false := uncounted
      rw [plan_bundle new, name_module]
      obtain ⟨result, attempt, failed⟩ := attemptAll_of_runs parts proper.2 broke
      cases attempt with
      | completed => cases failed
      | @brokenOff front _ _ path _ split way free clash under =>
        cases failed
        obtain ⟨part, member, way⟩ := way
        have around : (bundle name parts).Leads (name :: path) _ := .into member way
        refine .brokenOff (by rw [split, List.append_assoc, List.cons_append]) around free clash
          fun bundle on => ?_
        rcases List.mem_cons.mp on with rfl | below
        · rw [hasModule_completeAll]
          refine afterwards_eq_false_iff.mpr ⟨new, fun inner done same => ?_⟩
          have planned : inner ∈ planAll session.hasModule parts :=
            split ▸ List.mem_append_left _ done
          exact proper.1 (same ▸ (mem_planAll parts planned).1)
        · exact under bundle below
    | attached uncounted worked =>
      have new : session.hasModule name = false := uncounted
      rw [plan_bundle new, name_module]
      obtain ⟨result, attempt, same⟩ := attemptAll_of_runs parts proper.2 worked
      cases attempt with
      | completed free =>
        have whole : Attempt (planAll session.hasModule parts ++ [bundle name parts])
            (bundle name parts).Leads session (.ok ()) _ :=
          .completed (unhindered_append_iff.mpr ⟨free, rfl, trivial⟩)
        rw [completeAll_concat] at whole
        exact whole
      | brokenOff => cases same

theorem attemptAll_of_runs {session after : Session σ} {ended : Except Failure Unit} :
    (parts : List Kit) → ProperAll parts → (loadAll parts).Runs session asked ended after →
    ∃ result, Attempt (planAll session.hasModule parts) (LeadsAll parts) session result after ∧
      ended = result.mapError .shell
  | [], _, ran => by
    obtain ⟨_, rfl, rfl⟩ := runs_pure_iff.mp ran
    exact ⟨.ok (), .completed trivial, rfl⟩
  | part :: later, proper, ran => by
    rcases runs_bind_iff.mp ran with
      ⟨failure, failed, rfl⟩ | ⟨_, _, middle, _, loaded, onward, _⟩
    · obtain ⟨error, broke, rfl⟩ := runs_mapError_error_iff.mp failed
      have attempt := attempt_of_runs part proper.1 broke
      refine ⟨.error error, ?_, rfl⟩
      exact (attempt.extend _).wider fun path which way => ⟨part, List.mem_cons_self, way⟩
    · have attempt := attempt_of_runs part proper.1 (runs_mapError_ok_iff.mp loaded)
      cases attempt with
      | completed free =>
        obtain ⟨result, attempt, rfl⟩ := attemptAll_of_runs later proper.2 onward
        refine ⟨result, ?_, rfl⟩
        rw [hasModule_completeAll] at attempt
        refine (attempt.wider fun path which way => ?_).follow free
        obtain ⟨part, member, way⟩ := way
        exact ⟨part, List.mem_cons_of_mem _ member, way⟩

end

end Attempts

end Kit

end LineShell
