import LineShell.Proofs.Kits
/-!
Loading a kit again after it has failed. A load that breaks off leaves what it has completed, and
once the command in its way is unbound, the next one goes on from there. In the end the session is
that of one load with nothing in its way.
-/

namespace LineShell.Kit

variable {σ : Type}

/-- The taken ones among the names that loading the kit binds commands to, in order. -/
def conflicts (kit : Kit) (session : Session σ) : List String :=
  (kit.plan session.hasModule).filterMap (·.clash? session)

section Conflicts

variable {session : Session σ} {kit other : Kit} {planned front back done : List Kit}
  {names : List String}

theorem unhindered_iff (distinct : (planned.map name).Nodup) :
    Unhindered planned session ↔ planned.filterMap (·.clash? session) = [] := by
  induction planned generalizing session with
  | nil => simp [Unhindered]
  | cons kit later ih =>
    obtain ⟨fresh, distinct⟩ := List.nodup_cons.mp distinct
    have same : later.filterMap (·.clash? (kit.complete session)) =
        later.filterMap (·.clash? session) := by
      refine List.filterMap_congr fun other member => ?_
      have apart : ∀ inner ∈ [kit], inner.name ≠ other.name := by
        rintro inner only alike
        obtain rfl := List.mem_singleton.mp only
        exact fresh (alike ▸ List.mem_map_of_mem member)
      exact clash?_completeAll apart
    rw [Unhindered, ih distinct, same]
    cases clash : kit.clash? session <;> simp [clash]

theorem conflicts_without : kit.conflicts (session.without names) =
    (kit.conflicts session).filter (· ∉ names) := by
  simp only [conflicts, Session.hasModule_without, List.filter_filterMap]
  refine List.filterMap_congr fun inner _ => ?_
  simp only [clash?, Option.filter_filter]
  refine congrArg (Option.filter · inner.command?) (funext fun name => ?_)
  simp [Session.contains_without, Bool.and_comm]

theorem apart_of_plan {inner : Kit} (proper : kit.Proper)
    (split : kit.plan session.hasModule = front ++ back) (early : inner ∈ front)
    (late : other ∈ back) : inner.name ≠ other.name := by
  have distinct : ((kit.plan session.hasModule).map name).Nodup := nodup_plan kit proper
  rw [split, List.map_append] at distinct
  exact (List.nodup_append.mp distinct).2.2 _ (List.mem_map_of_mem early) _
    (List.mem_map_of_mem late)

/-- Completing the front of a plan leaves in the way what is in the way of the rest. -/
theorem conflicts_completeAll (proper : kit.Proper)
    (split : kit.plan session.hasModule = front ++ back) :
    kit.conflicts (completeAll front session) = back.filterMap (·.clash? session) := by
  simp only [conflicts, hasModule_completeAll, plan_resume kit proper split]
  refine List.filterMap_congr fun other late => clash?_completeAll fun inner early => ?_
  exact apart_of_plan proper split early late

theorem unhindered_front_iff (proper : kit.Proper)
    (split : kit.plan session.hasModule = front ++ back) :
    Unhindered front session ↔
      kit.conflicts session = kit.conflicts (completeAll front session) := by
  have distinct : ((kit.plan session.hasModule).map name).Nodup := nodup_plan kit proper
  rw [split, List.map_append] at distinct
  rw [conflicts_completeAll proper split, conflicts, split, List.filterMap_append,
    unhindered_iff (List.nodup_append.mp distinct).1, List.append_left_eq_self]

/-- What is in the way of the rest of a plan may be unbound before the front of it is completed. -/
theorem completeAll_without_conflicts (proper : kit.Proper)
    (split : kit.plan session.hasModule = front ++ back)
    (within : ∀ name ∈ names, name ∈ back.filterMap (·.clash? session)) :
    (completeAll front session).without names = completeAll front (session.without names) := by
  refine completeAll_without session fun inner early command binds member => ?_
  obtain ⟨other, late, clash⟩ := List.mem_filterMap.mp (within command member)
  exact apart_of_plan proper split early late
    (name_eq_of_command binds (clash?_eq_some_iff.mp clash).1)

end Conflicts

/-- A load that breaks off at one of the shell's own modules, the first planned one whose command's
name is taken. What is planned before it is completed, in order. It does not count as loaded, nor do
the bundles around it. -/
structure BreaksOff (kit : Kit) (session : Session σ) (path : List String) (which : Stock)
    (command : String) (after : Session σ) : Prop where
  leads : kit.Leads path which
  taken : which.clash? session = some command
  first : (kit.conflicts session).head? = some command
  completed : ∃ front back, kit.plan session.hasModule = front ++ stock which :: back ∧
    after = completeAll front session
  uncounted : ∀ name ∈ path ++ [which.name], after.hasModule name = false

/-- Loads of a kit that break off, each followed by unbinding commands that are in its way: the one
at which it broke off, and maybe others. -/
inductive Retried (kit : Kit) : Session σ → List (List String) → Session σ → Prop where
  | none : Retried kit session [] session
  | again {unbound : List String}
      (failed : (Session.loadModule kit.module).Runs session asked
        (.error (blame path which command)) middle)
      (blamed : command ∈ unbound) (hindering : ∀ name ∈ unbound, name ∈ kit.conflicts session)
      (rest : Retried kit (middle.without unbound) removals reached) :
      Retried kit session (unbound :: removals) reached

/-- Where loading a kit has got to: the front of its plan is completed, with some of what was in its
way unbound. -/
structure Resumes (kit : Kit) (session : Session σ) (removals : List (List String))
    (reached : Session σ) : Prop where
  completed : ∃ done, kit.plan session.hasModule = done ++ kit.plan reached.hasModule ∧
    reached = completeAll done (session.without removals.flatten)
  hindering : ∀ name ∈ removals.flatten, name ∈ kit.conflicts session
  remaining : kit.conflicts reached = (kit.conflicts session).filter (· ∉ removals.flatten)
  fewer : removals.length + (kit.conflicts reached).length ≤ (kit.conflicts session).length

variable {kit : Kit} {session middle reached after : Session σ}

/-- A load goes through if nothing is in its way, and breaks off if something is. -/
theorem load_cases (proper : kit.Proper)
    (ran : (Session.loadModule kit.module).Runs session asked ended after) :
    (kit.conflicts session = [] ∧ ended = .ok () ∧
      after = completeAll (kit.plan session.hasModule) session) ∨
    ∃ path which command, ended = .error (blame path which command) ∧
      kit.BreaksOff session path which command after := by
  cases attempt_of_runs kit proper ran with
  | completed free => exact .inl ⟨(unhindered_iff (nodup_plan kit proper)).mp free, rfl, rfl⟩
  | @brokenOff front which back path command split way free clash under =>
    have apart : ∀ inner ∈ front, inner.name ≠ (stock which).name := fun inner early =>
      apart_of_plan proper split early List.mem_cons_self
    have taken : (stock which).clash? session = some command := by
      rw [← clash?_completeAll apart]
      exact clash
    have fresh := (mem_plan kit (split ▸ List.mem_append_right front List.mem_cons_self)).2
    refine .inr ⟨path, which, command, rfl, way, taken, ?first, ⟨front, back, split, rfl⟩, ?counted⟩
    case first =>
      rw [(unhindered_front_iff proper split).mp free, conflicts_completeAll proper split,
        List.filterMap_cons, taken]
      rfl
    case counted =>
      intro name on
      rcases List.mem_append.mp on with above | here
      · exact under name above
      · obtain rfl := List.mem_singleton.mp here
        rw [hasModule_completeAll]
        exact afterwards_eq_false_iff.mpr ⟨fresh, apart⟩

/-- After a load that breaks off, and once something in its way is unbound, the rest of the plan is
left. -/
theorem resumes_of_failed {error : ShellError} {unbound : List String} (proper : kit.Proper)
    (failed : (Session.loadModule kit.module).Runs session asked (.error error) middle)
    (some : command ∈ unbound) (hindering : ∀ name ∈ unbound, name ∈ kit.conflicts session) :
    kit.Resumes session [unbound] (middle.without unbound) := by
  cases attempt_of_runs kit proper failed with
  | @brokenOff front which back _ _ split way free clash under =>
    have same := (unhindered_front_iff proper split).mp free
    have flat : [unbound].flatten = unbound := List.append_nil unbound
    have left : kit.conflicts ((completeAll front session).without unbound) =
        (kit.conflicts session).filter (· ∉ unbound) := by rw [conflicts_without, same]
    refine ⟨⟨front, ?_, ?_⟩, by rwa [flat], by rw [left, flat], ?_⟩
    · rw [Session.hasModule_without, hasModule_completeAll, plan_resume kit proper split, split]
    · rw [flat]
      refine completeAll_without_conflicts proper split fun name member => ?_
      rw [← conflicts_completeAll proper split, ← same]
      exact hindering name member
    · have shorter : ((kit.conflicts session).filter (· ∉ unbound)).length <
          (kit.conflicts session).length :=
        List.length_filter_lt_length_iff_exists.mpr
          ⟨command, hindering command some, by simpa using some⟩
      rw [left, List.length_singleton, Nat.add_comm]
      exact shorter

theorem Resumes.trans {first later : List (List String)} (proper : kit.Proper)
    (resumes : kit.Resumes session first middle) (onward : kit.Resumes middle later reached) :
    kit.Resumes session (first ++ later) reached := by
  obtain ⟨early, split, reach⟩ := resumes.completed
  obtain ⟨late, rest, reachOn⟩ := onward.completed
  have cleared : kit.plan (session.without first.flatten).hasModule =
      early ++ kit.plan middle.hasModule := by rwa [Session.hasModule_without]
  have hindering : ∀ name ∈ later.flatten, name ∈ (kit.plan middle.hasModule).filterMap
      (·.clash? (session.without first.flatten)) := by
    rw [← conflicts_completeAll proper cleared, ← reach]
    exact onward.hindering
  refine ⟨⟨early ++ late, ?_, ?_⟩, ?_, ?_, ?_⟩
  · rw [split, rest, List.append_assoc]
  · rw [reachOn, List.flatten_append, Session.without_append, completeAll_append,
      ← completeAll_without_conflicts proper cleared hindering, ← reach]
  · intro name member
    rw [List.flatten_append] at member
    rcases List.mem_append.mp member with here | there
    · exact resumes.hindering name here
    · have still := onward.hindering name there
      rw [resumes.remaining] at still
      exact List.mem_of_mem_filter still
  · rw [onward.remaining, resumes.remaining, List.filter_filter, List.flatten_append]
    refine List.filter_congr fun name _ => ?_
    simp [Bool.and_comm]
  · have first := resumes.fewer
    have second := onward.fewer
    rw [List.length_append]
    omega

theorem Retried.resumes (proper : kit.Proper) (retried : kit.Retried session removals reached) :
    kit.Resumes session removals reached := by
  induction retried with
  | none => exact ⟨⟨[], rfl, rfl⟩, by simp, by simp, by simp⟩
  | again failed blamed hindering rest ih =>
    exact (resumes_of_failed proper failed blamed hindering).trans proper ih

/-- A load that succeeds in the end leaves what one load leaves with nothing in its way. -/
theorem Resumes.settles (resumes : kit.Resumes session removals reached)
    (clear : kit.conflicts reached = []) :
    completeAll (kit.plan reached.hasModule) reached =
      completeAll (kit.plan session.hasModule) (session.without (kit.conflicts session)) := by
  obtain ⟨done, split, reach⟩ := resumes.completed
  have all : ∀ name, name ∈ removals.flatten ↔ name ∈ kit.conflicts session := by
    refine fun name => ⟨resumes.hindering name, fun member => ?_⟩
    have none := resumes.remaining.symm.trans clear
    simpa using List.filter_eq_nil_iff.mp none name member
  rw [split, completeAll_append, ← Session.without_eq_of_mem_iff session all, ← reach]

/-- Loading a kit whose load has failed. A load breaks off at the first module whose command's name
is taken; what it was to complete before that is completed then, in order, and neither that module
nor a bundle around it counts as loaded. Once commands in the way have been unbound, the next load
completes what is left, so after as many loads as names were taken at most, the session is that of one
load with nothing in its way. Nothing is completed twice. -/
theorem failed_load_can_be_retried (kit : Kit) (proper : kit.Proper) (session : Session σ) :
    (∀ asked ended after, (Session.loadModule kit.module).Runs session asked ended after →
      (kit.conflicts session = [] ∧ ended = .ok () ∧
        after = completeAll (kit.plan session.hasModule) session) ∨
      ∃ path which command, ended = .error (blame path which command) ∧
        kit.BreaksOff session path which command after) ∧
    ((kit.plan session.hasModule).map name).Nodup ∧
    (∀ inner ∈ kit.plan session.hasModule, session.hasModule inner.name = false) ∧
    ∀ removals reached, kit.Retried session removals reached →
      removals.length + (kit.conflicts reached).length ≤ (kit.conflicts session).length ∧
      kit.conflicts reached = (kit.conflicts session).filter (· ∉ removals.flatten) ∧
      (∃ done, kit.plan session.hasModule = done ++ kit.plan reached.hasModule ∧
        reached = completeAll done (session.without removals.flatten)) ∧
      ∀ asked ended after, (Session.loadModule kit.module).Runs reached asked ended after →
        (ended = .ok () ↔ kit.conflicts reached = []) ∧
        ∀ others settled calm, ended = .ok () → (Session.loadModule kit.module).Runs
            (session.without (kit.conflicts session)) others settled calm →
          settled = .ok () ∧ after = calm := by
  refine ⟨fun _ _ _ ran => load_cases proper ran, nodup_plan kit proper,
    fun inner planned => (mem_plan kit planned).2, fun removals reached retried => ?_⟩
  have resumes := retried.resumes proper
  refine ⟨resumes.fewer, resumes.remaining, resumes.completed, fun asked ended after ran => ?_⟩
  rcases load_cases proper ran with ⟨clear, rfl, rfl⟩ | ⟨path, which, command, rfl, broke⟩
  · refine ⟨by simp [clear], fun others settled calm _ once => ?_⟩
    have none : kit.conflicts (session.without (kit.conflicts session)) = [] := by
      rw [conflicts_without]
      simp
    rcases load_cases proper once with ⟨_, rfl, rfl⟩ | ⟨_, _, _, _, broke⟩
    · refine ⟨rfl, ?_⟩
      rw [resumes.settles clear, Session.hasModule_without]
    · have first := broke.first
      simp [none] at first
  · have hindered : kit.conflicts reached ≠ [] := by
      intro none
      have first := broke.first
      simp [none] at first
    exact ⟨by simp [hindered], fun _ _ _ impossible => nomatch impossible⟩

/-- A bundle in a bundle, loaded into a session in which the names of two of its modules are taken:
the third load goes through. -/
theorem failed_load_can_be_retried_of_taken :
    let kit : Kit := .bundle "kit" [
      .bundle "inner" [.stock .echo, .stock .exit], .stock (.history 5 (some "file")), .stock .echo]
    let custom : Command Unit := .custom fun _ => pure none
    let session : Session Unit := {
      shell := { commands := (NameTable.insert ∅ "exit" custom).insert "hist" custom }
      memory := { client := () } }
    kit.Proper ∧ kit.conflicts session = ["exit", "hist"] ∧
    ∃ reached, kit.Retried session [["exit"], ["hist"]] reached ∧
      ∃ asked after, (Session.loadModule kit.module).Runs reached asked (.ok ()) after ∧
        after.shell.commands.names = ["echo", "exit", "hist"] ∧
        after.shell.hooks.size .postparse = 1 ∧ after.hasModule "kit" = true := by
  intro kit custom session
  have proper : kit.Proper :=
    ⟨by decide, ⟨by decide, trivial, trivial, trivial⟩, trivial, trivial, trivial⟩
  have taken : kit.conflicts session = ["exit", "hist"] := by decide +kernel
  have breaks : ∀ {start : Session Unit} {command rest}, kit.conflicts start = command :: rest →
      ∃ asked path which after, (Session.loadModule kit.module).Runs start asked
        (.error (blame path which command)) after := by
    intro start command rest hindered
    obtain ⟨asked, ⟨ended, after⟩, ran⟩ :=
      Program.exists_runs ((Session.loadModule kit.module).runFrom start)
    obtain ⟨loads, _⟩ := failed_load_can_be_retried kit proper start
    rcases loads asked ended after ran with ⟨clear, _⟩ | ⟨path, which, found, rfl, broke⟩
    · simp [hindered] at clear
    · have first := broke.first
      rw [hindered] at first
      obtain rfl : command = found := Option.some.inj first
      exact ⟨asked, path, which, after, ran⟩
  obtain ⟨_, _, _, retries⟩ := failed_load_can_be_retried kit proper session
  obtain ⟨_, _, _, middle, failed⟩ := breaks taken
  have once : kit.Retried session [["exit"]] (middle.without ["exit"]) :=
    .again failed (by simp) (by simp [taken]) .none
  have left : kit.conflicts (middle.without ["exit"]) = ["hist"] := by
    rw [(retries _ _ once).2.1, taken]
    decide
  obtain ⟨_, _, _, later, failedAgain⟩ := breaks left
  have twice : kit.Retried session [["exit"], ["hist"]] (later.without ["hist"]) :=
    .again failed (by simp) (by simp [taken]) (.again failedAgain (by simp) (by simp [left]) .none)
  have clear : kit.conflicts (later.without ["hist"]) = [] := by
    rw [(retries _ _ twice).2.1, taken]
    decide
  obtain ⟨asked, ⟨ended, after⟩, ran⟩ :=
    Program.exists_runs ((Session.loadModule kit.module).runFrom (later.without ["hist"]))
  obtain ⟨settled, same⟩ := (retries _ _ twice).2.2.2 asked ended after ran
  obtain rfl := settled.mpr clear
  -- The session at the end is the one that a single load leaves, which can be computed.
  let answer := fun (asked : Request) (_ : Unit) => (asked.anyAnswer, ())
  have calm := Program.runs_run_pair answer
    ((Session.loadModule kit.module).runFrom (session.without (kit.conflicts session))) ()
  obtain ⟨_, rfl⟩ := same _ _ _ rfl calm
  refine ⟨proper, taken, _, twice, asked, _, ran, ?_, ?_, ?_⟩ <;> decide +kernel

end LineShell.Kit
