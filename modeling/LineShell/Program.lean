import LineShell.Console
import LineShell.Log
/-!
Programs: computations that ask their surroundings for effects. A program can write to a console,
read and write files, and keep a log; it never sees what a console or the log holds.
-/

namespace LineShell

/-- The name of a console. -/
abbrev ConsoleId := Nat

/-- An effect that a program asks for. -/
inductive Request where
  | write (console : ConsoleId) (channel : Channel) (text : String)
  | load (path : String)
  | save (path : String) (content : Bytes)
  | record (entry : Log.Record)
  /-- Keep records from now on, in a file or else on the first console's error channel. -/
  | startLog (threshold : Log.Threshold) (path : Option String)
  deriving DecidableEq, Repr

/-- What a request is answered with. -/
@[reducible] def Request.Answer : Request → Type
  | .write .. => Except DeviceError Unit
  | .load _ => Except DeviceError Bytes
  | .save .. => Except DeviceError Unit
  | .record _ => Unit
  | .startLog .. => Except DeviceError Unit

/-- A computation that is done, or that goes on when its request has been answered. -/
inductive Program (α : Type) : Type where
  | done (value : α)
  | ask (request : Request) (next : request.Answer → Program α)

namespace Program

variable {α β γ : Type}

def bind : Program α → (α → Program β) → Program β
  | done value, next => next value
  | ask request rest, next => ask request fun answer => (rest answer).bind next

instance : Monad Program where
  pure := done
  bind := bind

@[simp] theorem done_bind (value : α) (next : α → Program β) :
    (done value >>= next) = next value := rfl

@[simp] theorem ask_bind (request : Request) (rest : request.Answer → Program α)
    (next : α → Program β) :
    (ask request rest >>= next) = ask request fun answer => rest answer >>= next := rfl

private theorem bind_done (program : Program α) : program.bind done = program := by
  induction program with
  | done value => rfl
  | ask request rest ih => simp [bind, ih]

private theorem bind_bind (program : Program α) (next : α → Program β) (last : β → Program γ) :
    (program.bind next).bind last = program.bind fun value => (next value).bind last := by
  induction program with
  | done value => rfl
  | ask request rest ih => simp [bind, ih]

instance : LawfulMonad Program :=
  LawfulMonad.mk' Program bind_done (fun _ _ => rfl) bind_bind

def request (asked : Request) : Program asked.Answer :=
  ask asked done

def write (console : ConsoleId) (channel : Channel) (text : String) :
    Program (Except DeviceError Unit) :=
  request (.write console channel text)

def load (path : String) : Program (Except DeviceError Bytes) :=
  request (.load path)

def save (path : String) (content : Bytes) : Program (Except DeviceError Unit) :=
  request (.save path content)

def record (level : Log.Level) (target text : String) : Program Unit :=
  request (.record { level, target, text })

def startLog (threshold : Log.Threshold) (path : Option String) : Program (Except DeviceError Unit) :=
  request (.startLog threshold path)

variable {σ : Type}

/-- Run a program on surroundings that answer its requests and change as they do. -/
def run (answer : (asked : Request) → σ → asked.Answer × σ) : Program α → σ → α × σ
  | done value, state => (value, state)
  | ask asked next, state =>
    let (reply, after) := answer asked state
    (next reply).run answer after

variable (answer : (asked : Request) → σ → asked.Answer × σ)

@[simp] theorem run_pure (value : α) (state : σ) :
    (pure value : Program α).run answer state = (value, state) := rfl

/-- Running one program and then another is running both in turn. -/
@[simp] theorem run_bind (program : Program α) (next : α → Program β) (state : σ) :
    (program >>= next).run answer state =
      (next (program.run answer state).1).run answer (program.run answer state).2 := by
  induction program generalizing state with
  | done value => rfl
  | ask asked rest ih => exact ih _ _

end Program

end LineShell
