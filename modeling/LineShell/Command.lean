import LineShell.Arguments
import LineShell.History
import LineShell.Text.Integer
/-!
Commands: what a statement is handed to. A shell can bring along `exit`, `echo` and `hist`; others are the
client's.
-/

namespace LineShell

/-- The commands that a shell can bring along. -/
inductive Builtin where
  | exit
  | echo
  | hist
  deriving DecidableEq, Repr

namespace Builtin

def name : Builtin → String
  | exit => "exit"
  | echo => "echo"
  | hist => "hist"

def help : Builtin → String
  | exit =>
    "Usage: exit [--] [<code>]\n\n" ++
    "Exit the shell.\n\n" ++
    "Positional Arguments:\n" ++
    "  code              exit status handed back to the caller, 0 when omitted.\n\n" ++
    "Options:\n" ++
    "  --help, help      display usage information\n"
  | echo =>
    "Usage: echo [-n] [args...]\n\n" ++
    "Write the arguments to standard output, separated by spaces. " ++
    "By default, a trailing newline is printed.\n\n" ++
    "Options:\n" ++
    "  -n, --no-newline  do not output the trailing newline.\n" ++
    "  --help, help      display usage information\n"
  | hist =>
    "Usage: hist [-c] [--] [<count>]\n\n" ++
    "Show the command history.\n\n" ++
    "Positional Arguments:\n" ++
    "  count             only show this many of the most recent entries.\n\n" ++
    "Options:\n" ++
    "  -c, --clear       clear the history.\n" ++
    "  --help, help      display usage information\n"

def minExitCode : Int := -2147483648

def maxExitCode : Int := 2147483647

def maxCount : Int := 18446744073709551615

def isNegativeNumber (word : String) : Bool :=
  match word.toList with
  | '-' :: digits => !digits.isEmpty && digits.all Char.isDigit
  | _ => false

/-- Put `--` before the first negative number, so that it is read as a value, unless the words
hold a `--` already. -/
def guardNegative (words : List String) : List String :=
  if "--" ∈ words then words
  else
    match words.dropWhile fun word => !isNegativeNumber word with
    | [] => words
    | values => (words.takeWhile fun word => !isNegativeNumber word) ++ "--" :: values

/-- The rules of `exit`: at most one exit code. -/
def exitRules : ArgumentRules (Option Int) where
  flag? _ := none
  value word code :=
    if code.isSome then .error (Arguments.unrecognized word)
    else
      match Text.integer minExitCode maxExitCode word with
      | .ok value => .ok (some value)
      | .error reason => .error (Arguments.badValue "code" word reason.message)

/-- The exit code that the arguments of `exit` ask for, zero when they name none. -/
def exitCode (words : List String) : Except Refusal Int32 :=
  (Arguments.read exitRules none (guardNegative words)).map fun code =>
    Int32.ofInt (code.getD 0)

/-- What `echo` is to write: the values, and whether the line is left open. -/
structure EchoArguments where
  noNewline : Bool := false
  values : List String := []
  deriving DecidableEq, Repr

/-- The rules of `echo`: a switch, and values that are taken as they are from the first one on. -/
def echoRules : ArgumentRules EchoArguments where
  flag? word :=
    if word = "-n" ∨ word = "--no-newline" then some (.switch fun echo => { echo with noNewline := true })
    else none
  value word echo := .ok { echo with values := echo.values ++ [word] }
  greedy := true

/-- The text that the arguments of `echo` ask for. -/
def echoText (words : List String) : Except Refusal String :=
  (Arguments.read echoRules {} words).map fun echo =>
    " ".intercalate echo.values ++ if echo.noNewline then "" else "\n"

/-- What `hist` is to do: forget the history, or list its last entries. -/
structure HistArguments where
  clear : Bool := false
  count : Option Nat := none
  deriving DecidableEq, Repr

/-- The rules of `hist`: a switch, and at most one number of entries. -/
def histRules : ArgumentRules HistArguments where
  flag? word :=
    if word = "-c" ∨ word = "--clear" then some (.switch fun hist => { hist with clear := true })
    else none
  value word hist :=
    if hist.count.isSome then .error (Arguments.unrecognized word)
    else
      match Text.integer 0 maxCount word with
      | .ok count => .ok { hist with count := some count.toNat }
      | .error reason => .error (Arguments.badValue "count" word reason.message)

/-- What the arguments of `hist` ask for. -/
def histArguments (words : List String) : Except Refusal HistArguments :=
  Arguments.read histRules {} words

/-- The exit code of a command that was given arguments it does not take. -/
def misuseCode : Int32 := 2

def endLine (text : String) : String :=
  if text.toList.getLast? = some '\n' then text else text ++ "\n"

variable {σ : Type}

def say (console : ConsoleId) (channel : Channel) (text : String) : Action Failure σ Unit :=
  .attempt .device (Program.write console channel text)

/-- Answer arguments that are not carried out: help on the normal channel is a success, a
complaint on the error channel is not. -/
def refuse (builtin : Builtin) (console : ConsoleId) : Refusal → Action Failure σ Outcome
  | .help => do
    say console .out (endLine builtin.help)
    return .success
  | .misuse text => do
    say console .err (endLine text)
    return .exit misuseCode

def run (console : ConsoleId) (words : List String) : Builtin → Action Failure (Memory σ) Outcome
  | .exit =>
    match exitCode words with
    | .error refusal => refuse .exit console refusal
    | .ok code => return .stopWith code
  | .echo =>
    match echoText words with
    | .error refusal => refuse .echo console refusal
    | .ok text => do
      say console .out text
      return .success
  | .hist =>
    match histArguments words with
    | .error refusal => refuse .hist console refusal
    | .ok { clear := true, .. } => do
      modify fun memory => { memory with history := memory.history.clear }
      return .success
    | .ok { clear := false, count } => do
      say console .out ((← get).history.listing count)
      return .success

end Builtin

/-- A command: one of the shell's own, writing to a console, or one of the client. A command may
leave no outcome. -/
inductive Command (σ : Type) where
  | builtin (which : Builtin) (console : ConsoleId)
  | custom (action : Statement → Action Failure σ (Option Outcome))

namespace Command

variable {σ : Type}

def run (command : Command σ) (statement : Statement) :
    Action Failure (Memory σ) (Option Outcome) :=
  match command with
  | .builtin which console => some <$> which.run console statement.arguments
  | .custom action => (action statement).ofClient

end Command

end LineShell
