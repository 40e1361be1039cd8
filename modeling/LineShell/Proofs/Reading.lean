import LineShell.Proofs.Runs
import LineShell.Source
/-!
What a source holds, and what reading takes from it: its lines one by one, in order.
-/

namespace LineShell

variable {σ : Type}

/-- A line that waits to be read, or the error that reading it gives. -/
abbrev HeldLine := Except ShellError String

namespace ByteCursor

/-- A line of a buffer as it is read: without its end, unless its bytes encode no text. -/
def decodeLine (line : Bytes) : Except DeviceError String :=
  (Bytes.toText? line).elim (.error .invalidText) fun text => .ok (Lines.chompText text)

/-- The lines that have not been read. -/
def lines (cursor : ByteCursor) : List (Except DeviceError String) :=
  (Lines.segments Bytes.isNewline cursor.rest).map decodeLine

theorem lines_of_rest_eq_nil {cursor : ByteCursor} (empty : cursor.rest = []) :
    cursor.lines = [] := by
  rw [lines, empty]
  rfl

theorem lines_of_rest_ne_nil {cursor : ByteCursor} (nonempty : cursor.rest ≠ []) :
    cursor.lines = decodeLine cursor.firstLine :: cursor.readLine.2.lines := by
  rw [lines, Lines.segments_cons _ nonempty, List.map_cons, firstLine, lines, rest_readLine]

theorem firstLine_eq_nil_iff {cursor : ByteCursor} : cursor.firstLine = [] ↔ cursor.rest = [] :=
  Lines.splitFirst_fst_eq_nil _

end ByteCursor

theorem Bytes.toText?_eq_empty {bytes : Bytes} (blank : toText? bytes = some "") : bytes = [] := by
  rw [← ofText_of_toText? blank]
  rfl

namespace Source

theorem nextLine_of_rest_eq_nil {cursor : ByteCursor} (empty : cursor.rest = []) :
    (nextLine cursor).1 = .ok none ∧ (nextLine cursor).2.rest = [] := by
  have first := ByteCursor.firstLine_eq_nil_iff.mpr empty
  constructor
  · have decoded : Bytes.toText? [] = some "" := Bytes.toText?_ofText ""
    simp [nextLine, ByteCursor.readLine, first, decoded, Except.map]
  · rw [nextLine, ByteCursor.rest_readLine, empty]
    rfl

theorem nextLine_of_rest_ne_nil {cursor : ByteCursor} (nonempty : cursor.rest ≠ []) :
    (nextLine cursor).1 = (ByteCursor.decodeLine cursor.firstLine).map some := by
  have first : cursor.firstLine ≠ [] := mt ByteCursor.firstLine_eq_nil_iff.mp nonempty
  cases decoded : Bytes.toText? cursor.firstLine with
  | none => simp [nextLine, ByteCursor.readLine, ByteCursor.decodeLine, decoded, Except.map]
  | some text =>
    have filled : text ≠ "" := by
      intro blank
      exact first (Bytes.toText?_eq_empty (blank ▸ decoded))
    simp [nextLine, ByteCursor.readLine, ByteCursor.decodeLine, decoded, filled, Except.map]

end Source

/-- A request that was answered with an error. -/
def Exchange.Refused : Exchange → Prop
  | ⟨.write .., .error _⟩ => True
  | ⟨.load _, .error _⟩ => True
  | ⟨.save .., .error _⟩ => True
  | ⟨.startLog .., .error _⟩ => True
  | _ => False

/-- Reading takes the first of the lines that are held: it gives the line or the error in its
place, finds that none is left, or is refused something before it has come to a line. -/
inductive Takes (exchanges : List Exchange) :
    List HeldLine → Except ShellError (Option String) → List HeldLine → Prop where
  | line : Takes exchanges (.ok line :: held) (.ok (some line)) held
  | unreadable : Takes exchanges (.error error :: held) (.error error) held
  | exhausted : Takes exchanges [] (.ok none) []
  | refused (refusal : ∃ exchange ∈ exchanges, exchange.Refused) :
      Takes exchanges held (.error error) held

/-- Reading from a buffer takes the first of its lines, whatever is made of them. -/
theorem Takes.nextLine (exchanges : List Exchange) (cursor : ByteCursor)
    (change : Except DeviceError String → HeldLine)
    (result : Except DeviceError (Option String) → Except ShellError (Option String))
    (same : ∀ line, result (line.map some) = (change line).map some)
    (ended : result (.ok none) = .ok none) :
    Takes exchanges (cursor.lines.map change) (result (Source.nextLine cursor).1)
      ((Source.nextLine cursor).2.lines.map change) := by
  by_cases empty : cursor.rest = []
  · obtain ⟨given, left⟩ := Source.nextLine_of_rest_eq_nil empty
    rw [given, ended, ByteCursor.lines_of_rest_eq_nil empty, ByteCursor.lines_of_rest_eq_nil left]
    exact .exhausted
  · rw [ByteCursor.lines_of_rest_ne_nil empty, Source.nextLine_of_rest_ne_nil empty, same]
    rw [List.map_cons]
    cases change (ByteCursor.decodeLine cursor.firstLine) with
    | error error => exact .unreadable
    | ok line => exact .line

theorem Takes.buffered (exchanges : List Exchange) (cursor : ByteCursor) :
    Takes exchanges (cursor.lines.map fun line => line.mapError .device)
      ((Source.nextLine cursor).1.mapError .device)
      ((Source.nextLine cursor).2.lines.map fun line => line.mapError .device) := by
  apply nextLine exchanges cursor (fun line => line.mapError .device)
    fun line => line.mapError .device
  · intro line
    cases line <;> rfl
  · rfl

theorem Takes.editor (exchanges : List Exchange) (cursor : ByteCursor) :
    Takes exchanges
      (cursor.lines.map fun line => (line.map Text.applyBackspaces).mapError .editor)
      (((Source.nextLine cursor).1.map fun line => line.map Text.applyBackspaces).mapError .editor)
      ((Source.nextLine cursor).2.lines.map fun line =>
        (line.map Text.applyBackspaces).mapError .editor) := by
  apply nextLine exchanges cursor
    (fun line => (line.map Text.applyBackspaces).mapError .editor)
    fun line => (line.map fun text => text.map Text.applyBackspaces).mapError .editor
  · intro line
    cases line <;> rfl
  · rfl

namespace Source

/-- The lines that a source holds. Those of the client's source are in its own part of the state,
which the view shows. -/
def held (view : σ → List HeldLine) : Source σ → σ → List HeldLine
  | empty, _ => []
  | buffered _ cursor, _ => cursor.lines.map fun line => line.mapError .device
  | editor cursor, _ =>
    cursor.lines.map fun line => (line.map Text.applyBackspaces).mapError .editor
  | custom _ _, client => view client

/-- What the client reads with takes the lines that the view shows. -/
def Serves (view : σ → List HeldLine)
    (next : String → ConsoleId → Action ShellError σ (Option String)) : Prop :=
  ∀ prompt console before exchanges ended after,
    (next prompt console).Runs before exchanges ended after →
      Takes exchanges (view before) ended (view after)

/-- What reading from a source comes to. A prompt is shown first when a person types into a
buffer, and nothing is read if it cannot be shown. -/
inductive Reads (prompt : String) (console : ConsoleId) : Source σ → σ → List Exchange →
    Except ShellError (Option String) → Source σ → σ → Prop where
  | empty : Reads prompt console empty client [] (.ok none) empty client
  | unshown {error : DeviceError} :
      Reads prompt console (buffered true cursor) client [⟨.write console .out prompt, .error error⟩]
        (.error (.device error)) (buffered true cursor) client
  | shown :
      Reads prompt console (buffered true cursor) client [⟨.write console .out prompt, .ok ()⟩]
        ((nextLine cursor).1.mapError .device) (buffered true (nextLine cursor).2) client
  | piped : Reads prompt console (buffered false cursor) client []
      ((nextLine cursor).1.mapError .device) (buffered false (nextLine cursor).2) client
  | editor : Reads prompt console (editor cursor) client []
      (((nextLine cursor).1.map fun line => line.map Text.applyBackspaces).mapError .editor)
      (editor (nextLine cursor).2) client
  | custom {next : String → ConsoleId → Action ShellError σ (Option String)}
      (ran : (next prompt console).Runs client asked ended changed) :
      Reads prompt console (custom interactive next) client asked ended (custom interactive next)
        changed

theorem reads_of_runs {source later : Source σ} {client changed : σ}
    (ran : (source.read prompt console client).Runs exchanges (ended, later, changed)) :
    Reads prompt console source client exchanges ended later changed := by
  unfold read at ran
  cases source with
  | empty =>
    obtain ⟨rfl, same⟩ := Program.runs_pure_iff.mp ran
    cases same
    exact .empty
  | buffered interactive cursor =>
    cases interactive with
    | true =>
      obtain ⟨asked, shown, rest, prompted, onward, rfl⟩ := Program.runs_bind_iff.mp ran
      obtain rfl := Program.runs_write_iff.mp prompted
      cases shown with
      | error error =>
        obtain ⟨rfl, same⟩ := Program.runs_pure_iff.mp onward
        cases same
        exact .unshown
      | ok _ =>
        obtain ⟨rfl, same⟩ := Program.runs_pure_iff.mp onward
        cases same
        exact .shown
    | false =>
      obtain ⟨rfl, same⟩ := Program.runs_pure_iff.mp ran
      cases same
      exact .piped
  | editor cursor =>
    obtain ⟨rfl, same⟩ := Program.runs_pure_iff.mp ran
    cases same
    exact .editor
  | custom interactive next =>
    obtain ⟨asked, ⟨line, after⟩, rest, worked, onward, rfl⟩ := Program.runs_bind_iff.mp ran
    obtain ⟨rfl, same⟩ := Program.runs_pure_iff.mp onward
    cases same
    rw [List.append_nil]
    exact .custom worked

/-- Reading takes what the source holds; for the client's source, that is the client's part. -/
theorem Reads.takes {view : σ → List HeldLine} {source later : Source σ} {client changed : σ}
    (reads : Reads prompt console source client exchanges ended later changed)
    (serves : ∀ interactive next, source = .custom interactive next → Serves view next) :
    Takes exchanges (source.held view client) ended (later.held view changed) := by
  cases reads with
  | empty => exact .exhausted
  | unshown => exact .refused ⟨_, List.mem_cons_self, trivial⟩
  | shown | piped => exact Takes.buffered _ _
  | editor => exact Takes.editor _ _
  | custom ran => exact serves _ _ rfl _ _ _ _ _ _ ran

/-- Reading from the client's source leaves that as it is, and no other becomes the client's. -/
theorem Reads.custom_of_later {source later : Source σ} {client changed : σ}
    {interactive : StateT σ Program Bool}
    {next : String → ConsoleId → Action ShellError σ (Option String)}
    (reads : Reads prompt console source client exchanges ended later changed)
    (own : later = .custom interactive next) : source = .custom interactive next := by
  cases reads with
  | empty | unshown | shown | piped | editor => cases own
  | custom ran => exact own

/-- Reading changes nothing about how a source is asked whether a person is there. -/
theorem Reads.isInteractive {source later : Source σ} {client changed : σ}
    (reads : Reads prompt console source client exchanges ended later changed) :
    later.isInteractive = source.isInteractive := by
  cases reads <;> rfl

/-- Whenever it is asked, the source says that no person is at the other end. -/
def Unattended (source : Source σ) : Prop :=
  ∀ client asked interactive changed,
    (source.isInteractive client).Runs asked (interactive, changed) → interactive = false

theorem Reads.unattended {source later : Source σ} {client changed : σ}
    (reads : Reads prompt console source client exchanges ended later changed)
    (unattended : source.Unattended) : later.Unattended := by
  rw [Unattended, reads.isInteractive]
  exact unattended

theorem unattended_of_pure {source : Source σ} (same : source.isInteractive = pure false) :
    source.Unattended := by
  intro client asked interactive changed said
  rw [same] at said
  exact (Program.runs_pure_pair_iff.mp said).2.1

end Source

end LineShell
