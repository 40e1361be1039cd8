import LineShell.Failure
import LineShell.Text.Bytes
import LineShell.Text.Lines
/-!
A position in a buffer of bytes. Reading moves the position on; it may be moved past the end, and
then nothing is left.
-/

namespace LineShell

/-- A buffer and how far it has been read. -/
structure ByteCursor where
  bytes : Bytes
  position : Nat := 0
  deriving DecidableEq, Repr

namespace ByteCursor

/-- What has not been read. -/
def rest (cursor : ByteCursor) : Bytes :=
  cursor.bytes.drop cursor.position

/-- The buffer that holds each text as a line of its own. -/
def ofLines (lines : List String) : ByteCursor :=
  { bytes := lines.flatMap fun line => Bytes.ofText line ++ Bytes.ofText "\n" }

/-- Move on by a number of bytes, which may go past the end. -/
def skip (cursor : ByteCursor) (count : Nat) : ByteCursor :=
  { cursor with position := cursor.position + count }

def read (cursor : ByteCursor) (count : Nat) : Bytes × ByteCursor :=
  let taken := cursor.rest.take count
  (taken, cursor.skip taken.length)

def readAll (cursor : ByteCursor) : Bytes × ByteCursor :=
  (cursor.rest, cursor.skip cursor.rest.length)

/-- The first line of what is left, with the byte that ends it. -/
def firstLine (cursor : ByteCursor) : Bytes :=
  (Lines.splitFirst Bytes.isNewline cursor.rest).1

/-- Read a line as text, with the newline that ends it; at the end this is the empty text. A line
that is not valid UTF-8 is an error, and is passed over. -/
def readLine (cursor : ByteCursor) : Except DeviceError String × ByteCursor :=
  let line := cursor.firstLine
  ((Bytes.toText? line).elim (.error .invalidText) .ok, cursor.skip line.length)

theorem rest_skip (cursor : ByteCursor) (count : Nat) :
    (cursor.skip count).rest = cursor.rest.drop count := by
  simp [rest, skip]

/-- Reading a line leaves what follows the line. -/
theorem rest_readLine (cursor : ByteCursor) :
    cursor.readLine.2.rest = (Lines.splitFirst Bytes.isNewline cursor.rest).2 := by
  have whole := Lines.splitFirst_append Bytes.isNewline cursor.rest
  rw [readLine, rest_skip, firstLine]
  exact (congrArg (List.drop _) whole.symm).trans List.drop_left

end ByteCursor

end LineShell
