import LineShell.Text.Cluster
/-!
Typed text: characters in the order of typing, where a backspace takes back the cluster before it.
-/

namespace LineShell.Text

def backspace : Char := '\x08'

/-- The number above the sizes of clusters that typing can keep: a size has one byte. -/
def clusterSizeLimit : Nat := 256

/-- The characters kept so far and the sizes of their clusters, each with the last first. -/
structure Typed where
  letters : List Char := []
  sizes : List Nat := []
  deriving DecidableEq, Repr

/-- How many bytes characters have in UTF-8. -/
def byteSize (letters : List Char) : Nat :=
  letters.foldl (fun size c => size + c.utf8Size) 0

/-- Leave out characters from the front, as many as have a number of bytes. -/
def dropBytes : List Char → Nat → List Char
  | [], _ => []
  | c :: rest, size => if size = 0 then c :: rest else dropBytes rest (size - c.utf8Size)

namespace Typed

/-- Type one more cluster. Only the last byte of its size is kept. -/
def add (typed : Typed) (cluster : List Char) : Typed where
  letters := cluster.reverse ++ typed.letters
  sizes := byteSize cluster % clusterSizeLimit :: typed.sizes

/-- Take back the last cluster, by the size that was kept of it. -/
def takeBack (typed : Typed) : Typed :=
  match typed.sizes with
  | [] => typed
  | size :: sizes => { letters := dropBytes typed.letters size, sizes }

/-- Type a cluster, or take one back if it is a backspace. -/
def key (typed : Typed) (cluster : List Char) : Typed :=
  if cluster = [backspace] then typed.takeBack else typed.add cluster

end Typed

/-- A line as it was meant: a backspace takes back the cluster before it. -/
def applyBackspaces (line : String) : String :=
  String.ofList ((clusters line.toList).foldl Typed.key {}).letters.reverse

end LineShell.Text
