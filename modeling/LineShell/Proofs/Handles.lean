import LineShell.Proofs.Printing
/-!
Handles on a console. However many copies are made of one handle, they all name the same console:
what is written through any of them comes to the sinks of now, and what one of them replaces is
replaced for all. So each sink holds what it accepted while it was in use, in order.
-/

namespace LineShell

namespace Sink

/-- How many bytes of an offer the sink accepts, unless it refuses the offer. -/
def offer (sink : Sink) (data : Bytes) : Except DeviceError Nat :=
  match sink.fault with
  | none | some .stalls => .ok data.length
  | some .refuses => .error (.other "sink closed")
  | some (.holds capacity) => .ok (min (capacity - sink.accepted.length) data.length)

/-- Whether the sink passes on what it has accepted. -/
def pass (sink : Sink) : Except DeviceError Unit :=
  match sink.fault with
  | some .stalls => .error (.other "flush failed")
  | _ => .ok ()

/-- The sink with some bytes more accepted. -/
def grown (sink : Sink) (bytes : Bytes) : Sink :=
  { sink with accepted := sink.accepted ++ bytes }

/-- Bytes are offered until all of them are accepted. The first offer that is refused, or of which
nothing is accepted, is the last. -/
inductive Pours : Sink → Bytes → Bytes → Except DeviceError Unit → Prop where
  | done {sink : Sink} : Pours sink [] [] (.ok ())
  | refused {sink : Sink} {data : Bytes} (filled : data ≠ [])
      (offered : sink.offer data = .error error) : Pours sink data [] (.error error)
  | full {sink : Sink} {data : Bytes} (filled : data ≠ []) (offered : sink.offer data = .ok 0) :
      Pours sink data [] (.error .shortWrite)
  | more {sink : Sink} {data : Bytes} (filled : data ≠ [])
      (offered : sink.offer data = .ok (count + 1))
      (rest : Pours (sink.grown (data.take (count + 1))) (data.drop (count + 1)) taken result) :
      Pours sink data (data.take (count + 1) ++ taken) result

/-- What the sink accepts of bytes, by what is wrong with it. -/
def takes (sink : Sink) (data : Bytes) : Bytes :=
  match sink.fault with
  | none | some .stalls => data
  | some .refuses => []
  | some (.holds capacity) => data.take (capacity - sink.accepted.length)

variable {sink : Sink} {data : Bytes}

@[simp] theorem takes_nil (sink : Sink) : sink.takes [] = [] := by
  unfold takes
  split <;> simp

@[simp] theorem grown_nil (sink : Sink) : sink.grown [] = sink := by
  simp [grown]

theorem grown_append (sink : Sink) (first second : Bytes) :
    sink.grown (first ++ second) = (sink.grown first).grown second := by
  simp [grown]

theorem takes_prefix (sink : Sink) (data : Bytes) : sink.takes data <+: data := by
  unfold takes
  split
  · exact List.prefix_rfl
  · exact List.prefix_rfl
  · exact List.nil_prefix
  · exact List.take_prefix _ _

theorem takes_append (sink : Sink) (first second : Bytes) :
    sink.takes (first ++ second) =
      sink.takes first ++ (sink.grown (sink.takes first)).takes second := by
  obtain ⟨accepted, fault⟩ := sink
  rcases fault with _ | _ | _ | capacity
  · rfl
  · rfl
  · rfl
  · simp only [takes, grown, List.take_append, List.length_append, List.length_take]
    congr 2
    omega

theorem write_snd (sink : Sink) (data : Bytes) :
    (sink.write data).2 = sink.grown (sink.takes data) := by
  obtain ⟨accepted, fault⟩ := sink
  rcases fault with _ | _ | _ | capacity
  · rfl
  · exact (grown_nil _).symm
  · rfl
  · rfl

/-! A write is one offer, and another write if bytes are left over. -/

theorem write_nil_eq (sink : Sink) : sink.write [] = (sink.pass, sink) := by
  obtain ⟨accepted, fault⟩ := sink
  rcases fault with _ | _ | _ | capacity <;> simp [write, pass]

theorem write_of_refused (filled : data ≠ []) (offered : sink.offer data = .error error) :
    sink.write data = (.error error, sink) := by
  obtain ⟨accepted, fault⟩ := sink
  rcases fault with _ | _ | _ | capacity
  · cases offered
  · cases offered
    simp [write, filled]
  · cases offered
  · cases offered

theorem write_of_full (filled : data ≠ []) (offered : sink.offer data = .ok 0) :
    sink.write data = (.error .shortWrite, sink) := by
  have positive : 0 < data.length := List.length_pos_iff.mpr filled
  obtain ⟨accepted, fault⟩ := sink
  rcases fault with _ | _ | _ | capacity
  · exact absurd (Except.ok.inj offered) positive.ne'
  · cases offered
  · exact absurd (Except.ok.inj offered) positive.ne'
  · have none : min (capacity - accepted.length) data.length = 0 := Except.ok.inj offered
    have room : capacity - accepted.length = 0 := by omega
    simp [write, room, filled]

theorem write_of_more (offered : sink.offer data = .ok count) :
    sink.write data = (sink.grown (data.take count)).write (data.drop count) := by
  obtain ⟨accepted, fault⟩ := sink
  rcases fault with _ | _ | _ | capacity
  · obtain rfl := Except.ok.inj offered
    simp [write, grown]
  · cases offered
  · obtain rfl := Except.ok.inj offered
    simp [write, grown]
  · have part : min (capacity - accepted.length) data.length = count := Except.ok.inj offered
    have left : capacity - (accepted.length + min count data.length) =
        capacity - accepted.length - count := by omega
    have split : capacity - accepted.length = count + (capacity - accepted.length - count) := by omega
    have fits : data.length - count ≤ capacity - accepted.length - count ↔
        data.length ≤ capacity - accepted.length := by omega
    have taken : data.take (capacity - accepted.length) =
        data.take count ++ (data.drop count).take (capacity - accepted.length - count) := by
      rw [← List.take_add, ← split]
    simp only [write, grown, List.length_append, List.length_take, List.length_drop, left, fits,
      taken, List.append_assoc]

/-- Writing is to offer bytes and, if all have been accepted, to pass them on. -/
theorem Pours.write_eq (poured : sink.Pours data taken result) :
    sink.write data = (result.bind fun _ => sink.pass, sink.grown taken) := by
  induction poured with
  | done => rw [grown_nil, write_nil_eq]; rfl
  | refused filled offered => rw [grown_nil, write_of_refused filled offered]; rfl
  | full filled offered => rw [grown_nil, write_of_full filled offered]; rfl
  | more filled offered rest ih => rw [write_of_more offered, ih, grown_append]; rfl

theorem exists_pours (sink : Sink) (data : Bytes) :
    ∃ taken result, sink.Pours data taken result := by
  generalize size : data.length = length
  induction length using Nat.strongRecOn generalizing sink data with
  | ind length ih =>
    by_cases empty : data = []
    · subst empty
      exact ⟨_, _, .done⟩
    cases offered : sink.offer data with
    | error error => exact ⟨_, _, .refused empty offered⟩
    | ok count =>
      cases count with
      | zero => exact ⟨_, _, .full empty offered⟩
      | succ count =>
        have positive : 0 < data.length := List.length_pos_iff.mpr empty
        have shorter : (data.drop (count + 1)).length < length := by
          rw [List.length_drop]
          omega
        obtain ⟨taken, result, rest⟩ := ih _ shorter (sink.grown (data.take (count + 1))) _ rfl
        exact ⟨_, _, .more empty offered rest⟩

theorem Pours.taken_eq (poured : sink.Pours data taken result) : taken = sink.takes data := by
  have same := congrArg (fun found => found.2.accepted) poured.write_eq
  rw [write_snd] at same
  exact (List.append_cancel_left same).symm

theorem Pours.taken_prefix (poured : sink.Pours data taken result) : taken <+: data := by
  rw [poured.taken_eq]
  exact sink.takes_prefix data

/-- What the sink accepts of each of several writes in turn. -/
def portions (sink : Sink) : List Bytes → List Bytes
  | [] => []
  | data :: later => sink.takes data :: (sink.grown (sink.takes data)).portions later

/-- The sink after several writes in turn. -/
def after (sink : Sink) (writes : List Bytes) : Sink :=
  sink.grown (sink.portions writes).flatten

/-- The portions make up what the sink accepts of all the writes at once. -/
theorem flatten_portions (sink : Sink) (writes : List Bytes) :
    (sink.portions writes).flatten = sink.takes writes.flatten := by
  induction writes generalizing sink with
  | nil => simp [portions]
  | cons data later ih => rw [portions, List.flatten_cons, List.flatten_cons, ih, takes_append]

@[simp] theorem after_nil (sink : Sink) : sink.after [] = sink :=
  sink.grown_nil

theorem after_append_singleton (sink : Sink) (writes : List Bytes) (data : Bytes) :
    sink.after (writes ++ [data]) = (sink.after writes).grown ((sink.after writes).takes data) := by
  simp only [after, flatten_portions, List.flatten_append, List.flatten_singleton, takes_append,
    grown_append]

end Sink

namespace SinkPair

def on (sinks : SinkPair) : Channel → Sink
  | .out => sinks.out
  | .err => sinks.err

/-- The sinks, when that of a channel has accepted some bytes more. -/
def grown (sinks : SinkPair) : Channel → Bytes → SinkPair
  | .out, bytes => { sinks with out := sinks.out.grown bytes }
  | .err, bytes => { sinks with err := sinks.err.grown bytes }

end SinkPair

/-- A write to a console grows the sink of its channel by what that accepts, and changes nothing
else. -/
theorem Console.write_eq (console : Console) (channel : Channel) (text : String)
    (poured : (console.current.on channel).Pours (Bytes.ofText text) taken result) :
    console.write channel text =
      (result.bind fun _ => (console.current.on channel).pass,
        { console with current := console.current.grown channel taken }) := by
  cases channel with
  | out =>
    have wrote : console.current.out.write (Bytes.ofText text) = _ := poured.write_eq
    simp only [Console.write, wrote]
    rfl
  | err =>
    have wrote : console.current.err.write (Bytes.ofText text) = _ := poured.write_eq
    simp only [Console.write, wrote]
    rfl

/-- The time for which a pair of sinks is in use: the pair as it came into use, and what has been
written since then. -/
structure Period where
  opened : SinkPair
  written : List (Channel × String) := []

/-- A step through a handle, which is told by its number. -/
inductive HandleStep where
  | write (handle : Nat) (channel : Channel) (text : String)
  | clone (handle : Nat)
  | redirect (handle : Nat) (sinks : SinkPair)

namespace HandleStep

def handle : HandleStep → Nat
  | write handle .. | clone handle | redirect handle _ => handle

/-- How many handles are held after the step, when a number of them were before. -/
def count (held : Nat) : HandleStep → Nat
  | clone _ => held + 1
  | write .. | redirect .. => held

/-- Every step is through a handle that is held by then. -/
def Usable (held : Nat) : List HandleStep → Prop
  | [] => True
  | step :: later => step.handle < held ∧ Usable (step.count held) later

/-- What a step does to the console that its handle names. Which handle that is makes no difference. -/
inductive Affects (console : Console) : HandleStep → Except DeviceError Unit → Console → Prop where
  | write (poured : (console.current.on channel).Pours (Bytes.ofText text) taken result)
      (part : taken <+: Bytes.ofText text) :
      Affects console (.write number channel text)
        (result.bind fun _ => (console.current.on channel).pass)
        ⟨console.current.grown channel taken, console.replaced⟩
  | clone : Affects console (.clone number) (.ok ()) console
  | redirect : Affects console (.redirect number sinks) (.ok ())
      ⟨sinks, console.replaced ++ [console.current]⟩

end HandleStep

namespace Period

/-- What was written to a channel, write by write. -/
def writes (period : Period) (channel : Channel) : List Bytes :=
  (period.written.filter (·.1 = channel)).map (Bytes.ofText ·.2)

/-- The sinks when all has been written. -/
def sinks (period : Period) : SinkPair where
  out := period.opened.out.after (period.writes .out)
  err := period.opened.err.after (period.writes .err)

/-- The period with one write more. -/
def wrote (period : Period) (channel : Channel) (text : String) : Period :=
  { period with written := period.written ++ [(channel, text)] }

/-- The periods that steps pass through: each redirection ends one and begins another. -/
def through (period : Period) : List HandleStep → List Period
  | [] => [period]
  | .write _ channel text :: later => (period.wrote channel text).through later
  | .clone _ :: later => period.through later
  | .redirect _ sinks :: later => period :: through ⟨sinks, []⟩ later

theorem sinks_wrote (period : Period) (channel : Channel) (text : String) :
    (period.wrote channel text).sinks =
      period.sinks.grown channel ((period.sinks.on channel).takes (Bytes.ofText text)) := by
  cases channel <;>
    simp [sinks, wrote, writes, SinkPair.grown, SinkPair.on, Sink.after_append_singleton]

@[simp] theorem sinks_opened (sinks : SinkPair) : (⟨sinks, []⟩ : Period).sinks = sinks := by
  simp [Period.sinks, writes]

end Period

/-- A step leaves the console in the period that it goes on with. -/
theorem HandleStep.Affects.through {step : HandleStep} {console left : Console} {period : Period}
    (affects : step.Affects console result left) (current : console.current = period.sinks) :
    ∃ next : Period, left.current = next.sinks ∧ ∀ later,
      console.replaced ++ (period.through (step :: later)).map Period.sinks =
        left.replaced ++ (next.through later).map Period.sinks := by
  cases affects with
  | @write channel text _ _ _ poured =>
    refine ⟨period.wrote channel text, ?_, fun later => rfl⟩
    rw [Period.sinks_wrote, ← current, poured.taken_eq]
  | clone => exact ⟨period, current, fun later => rfl⟩
  | @redirect _ sinks =>
    refine ⟨⟨sinks, []⟩, (Period.sinks_opened sinks).symm, fun later => ?_⟩
    rw [Period.through, List.map_cons, ← current, List.append_assoc]
    rfl

namespace Host

/-- The host with another console in the place of one. -/
def holding (host : Host) (place : ConsoleId) (console : Console) : Host :=
  { host with consoles := host.consoles.set place console }

variable {host : Host} {place : ConsoleId} {found : Console}

theorem opened_holding (opened : host.consoles[place]? = some found) (console : Console) :
    (host.holding place console).consoles[place]? = some console :=
  List.getElem?_set_self (List.getElem?_eq_some_iff.mp opened).1

@[simp] theorem holding_holding (host : Host) (place : ConsoleId) (first second : Console) :
    (host.holding place first).holding place second = host.holding place second := by
  simp [holding]

theorem holding_of_opened (opened : host.consoles[place]? = some found) :
    host.holding place found = host := by
  obtain ⟨bound, here⟩ := List.getElem?_eq_some_iff.mp opened
  simp [holding, ← here]

theorem write_of_opened (opened : host.consoles[place]? = some found) (channel : Channel)
    (text : String) : host.write place channel text =
      ((found.write channel text).1, host.holding place (found.write channel text).2) := by
  rw [write, opened]
  rfl

theorem redirect_of_opened (opened : host.consoles[place]? = some found) (sinks : SinkPair) :
    host.redirect place sinks = host.holding place (found.redirect sinks) := by
  rw [redirect, holding, List.modify_eq_set_getElem?, opened]
  rfl

end Host

/-- A host with the handles that are held on its consoles, in the order they were made. -/
structure Handles where
  host : Host
  held : List ConsoleId

namespace Handles

/-- A step through a handle is done to the console that the handle names. A copy of the handle names
the same. -/
inductive Step (before : Handles) : HandleStep → Except DeviceError Unit → Handles → Prop where
  | write (named : before.held[handle]? = some console) :
      Step before (.write handle channel text) (before.host.write console channel text).1
        { before with host := (before.host.write console channel text).2 }
  | clone (named : before.held[handle]? = some console) :
      Step before (.clone handle) (.ok ()) { before with held := before.held ++ [console] }
  | redirect (named : before.held[handle]? = some console) :
      Step before (.redirect handle sinks) (.ok ())
        { before with host := before.host.redirect console sinks }

/-- Steps in a row, with their results. A step that fails is followed by the next all the same. -/
inductive Steps : Handles → List HandleStep → List (Except DeviceError Unit) → Handles → Prop where
  | done : Steps state [] [] state
  | next (first : Step before step result middle) (rest : Steps middle steps results after) :
      Steps before (step :: steps) (result :: results) after

/-- All handles name one console, which is open. -/
structure Share (state : Handles) (console : ConsoleId) (found : Console) : Prop where
  named : ∀ handle ∈ state.held, handle = console
  opened : state.host.consoles[console]? = some found

variable {before after : Handles} {console : ConsoleId} {found : Console}

theorem Share.named_at {handle : Nat} (share : before.Share console found)
    (named : before.held[handle]? = some other) : other = console :=
  share.named other (List.mem_of_getElem? named)

/-- Whatever is done through one handle is done to the one console, and all handles go on naming it. -/
theorem Share.stepped (share : before.Share console found) (taken : before.Step step result after) :
    ∃ left, step.Affects found result left ∧ after.Share console left ∧
      after.host = before.host.holding console left := by
  cases taken with
  | @write handle place channel text named =>
    obtain rfl := share.named_at named
    obtain ⟨bytes, result, poured⟩ := (found.current.on channel).exists_pours (Bytes.ofText text)
    rw [Host.write_of_opened share.opened, found.write_eq channel text poured]
    exact ⟨_, .write poured poured.taken_prefix,
      ⟨share.named, Host.opened_holding share.opened _⟩, rfl⟩
  | clone named =>
    obtain rfl := share.named_at named
    refine ⟨found, .clone, ⟨fun handle member => ?_, share.opened⟩,
      (Host.holding_of_opened share.opened).symm⟩
    rcases List.mem_append.mp member with early | late
    · exact share.named handle early
    · exact List.mem_singleton.mp late
  | redirect named =>
    obtain rfl := share.named_at named
    rw [Host.redirect_of_opened share.opened]
    exact ⟨_, .redirect, ⟨share.named, Host.opened_holding share.opened _⟩, rfl⟩

/-- After any steps, each pair of sinks holds what it accepted while it was in use. -/
theorem Share.history {period : Period} (share : before.Share console found)
    (current : found.current = period.sinks) (ran : before.Steps steps results after) :
    ∃ last, after.Share console last ∧ after.host = before.host.holding console last ∧
      last.history = found.replaced ++ (period.through steps).map Period.sinks := by
  induction ran generalizing found period with
  | done =>
    refine ⟨found, share, (Host.holding_of_opened share.opened).symm, ?_⟩
    rw [Console.history, current]
    rfl
  | next first rest ih =>
    obtain ⟨left, affects, shared, host⟩ := share.stepped first
    obtain ⟨next, follows, through⟩ := affects.through current
    obtain ⟨last, holds, reached, history⟩ := ih shared follows
    refine ⟨last, holds, ?_, ?_⟩
    · rw [reached, host, Host.holding_holding]
    · rw [history, through]

theorem Step.length_held (taken : before.Step step result after) :
    after.held.length = step.count before.held.length := by
  cases taken with
  | write | redirect => rfl
  | clone => exact List.length_append

/-- A step can be taken through any handle that is held, whatever has failed before. -/
theorem exists_step_iff {step : HandleStep} :
    (∃ result after, before.Step step result after) ↔ step.handle < before.held.length := by
  constructor
  · rintro ⟨result, after, taken⟩
    cases taken with
    | write named | clone named | redirect named => exact (List.getElem?_eq_some_iff.mp named).1
  · intro bound
    have named := List.getElem?_eq_getElem bound
    cases step with
    | write handle channel text => exact ⟨_, _, .write named⟩
    | clone handle => exact ⟨_, _, .clone named⟩
    | redirect handle sinks => exact ⟨_, _, .redirect named⟩

theorem exists_steps_iff {steps : List HandleStep} :
    (∃ results after, before.Steps steps results after) ↔
      HandleStep.Usable before.held.length steps := by
  induction steps generalizing before with
  | nil => exact ⟨fun _ => trivial, fun _ => ⟨_, _, .done⟩⟩
  | cons step later ih =>
    constructor
    · rintro ⟨_, after, taken⟩
      cases taken with
      | next first rest =>
        refine ⟨exists_step_iff.mp ⟨_, _, first⟩, ?_⟩
        rw [← first.length_held]
        exact ih.mp ⟨_, _, rest⟩
    · rintro ⟨bound, usable⟩
      obtain ⟨result, middle, first⟩ := exists_step_iff.mpr bound
      rw [← first.length_held] at usable
      obtain ⟨results, after, rest⟩ := ih.mpr usable
      exact ⟨_, after, .next first rest⟩

theorem Steps.split (ran : before.Steps (front ++ step :: back) results after) :
    ∃ earlier reached result next later, results = earlier ++ result :: later ∧
      before.Steps front earlier reached ∧ reached.Step step result next ∧
      next.Steps back later after := by
  induction front generalizing before results with
  | nil =>
    cases ran with
    | next first rest => exact ⟨[], before, _, _, _, rfl, .done, first, rest⟩
  | cons head front ih =>
    cases ran with
    | next first rest =>
      obtain ⟨earlier, reached, result, next, later, rfl, before, single, after⟩ := ih rest
      exact ⟨_ :: earlier, reached, result, next, later, rfl, .next first before, single, after⟩

/-- Steps through handles that all stem from one. They can be taken through whichever handles are held
by then, and change nothing but the one console. A write lets the sink of its channel grow by what that
accepts, also if it fails; a redirection puts new sinks in the place of both and leaves those as they
are. In the end each sink holds the portions that it accepted, in order, of what was written to its
channel while it was in use. -/
theorem handles_share_console {host : Host} (opened : host.consoles[console]? = some found)
    (steps : List HandleStep) :
    ((∃ results after, (Handles.mk host [console]).Steps steps results after) ↔
      HandleStep.Usable 1 steps) ∧
    ∀ results after, (Handles.mk host [console]).Steps steps results after →
      (∃ last, after.Share console last ∧ after.host = host.holding console last ∧
        last.history = found.replaced ++ (Period.through ⟨found.current, []⟩ steps).map Period.sinks) ∧
      ∀ front step back, steps = front ++ step :: back →
        ∃ earlier reached current result next left later, results = earlier ++ result :: later ∧
          (Handles.mk host [console]).Steps front earlier reached ∧
          reached.Share console current ∧ reached.Step step result next ∧
          step.Affects current result left ∧ next.Share console left ∧
          next.host = reached.host.holding console left ∧ next.Steps back later after := by
  have share : (Handles.mk host [console]).Share console found :=
    ⟨fun handle member => List.mem_singleton.mp member, opened⟩
  have current : found.current = (Period.mk found.current []).sinks :=
    (Period.sinks_opened found.current).symm
  refine ⟨exists_steps_iff, fun results after ran => ⟨share.history current ran, ?_⟩⟩
  rintro front step back rfl
  obtain ⟨earlier, reached, result, next, later, rfl, before, taken, rest⟩ := ran.split
  obtain ⟨there, shared, _⟩ := share.history current before
  obtain ⟨left, affects, kept, host⟩ := shared.stepped taken
  exact ⟨earlier, reached, there, result, next, left, later, rfl, before, shared, taken, affects, kept,
    host, rest⟩

/-- Three handles in use across two redirections: writes that are cut short, refused or not passed on
keep what was accepted, and the handles go on working. -/
theorem handles_share_console_of_faults :
    let host : Host := {}
    let tight : SinkPair := ⟨{ fault := some (.holds 3) }, { fault := some .refuses }⟩
    let stuck : SinkPair := ⟨{ fault := some .stalls }, {}⟩
    let steps : List HandleStep := [.clone 0, .write 1 .out "ab", .redirect 0 tight,
      .write 1 .out "cdef", .write 0 .err "x", .clone 1, .redirect 2 stuck, .write 0 .out "g",
      .write 2 .err "h"]
    let console : Console := {}
    host.consoles[0]? = some console ∧
    ∃ results after last, (Handles.mk host [0]).Steps steps results after ∧
      after.Share 0 last ∧ last.history = [
        ⟨{ accepted := Bytes.ofText "ab" }, {}⟩,
        ⟨{ accepted := Bytes.ofText "cde", fault := some (.holds 3) }, { fault := some .refuses }⟩,
        ⟨{ accepted := Bytes.ofText "g", fault := some .stalls },
          { accepted := Bytes.ofText "h" }⟩] := by
  intro host tight stuck steps console
  have opened : host.consoles[0]? = some console := rfl
  obtain ⟨taken, settled⟩ := handles_share_console opened steps
  have usable : HandleStep.Usable 1 steps := by simp [steps, HandleStep.Usable, HandleStep.handle,
    HandleStep.count]
  obtain ⟨results, after, ran⟩ := taken.mpr usable
  obtain ⟨⟨last, share, _, history⟩, _⟩ := settled results after ran
  exact ⟨opened, results, after, last, ran, share, history.trans (by decide +kernel)⟩

end Handles

end LineShell
