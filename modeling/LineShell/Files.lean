import LineShell.Failure
import LineShell.Text.Bytes
/-!
A tree of files and directories around a working directory, and the files that paths name in it.
-/

namespace LineShell

inductive FileNode where
  | file (content : Bytes)
  | directory
  deriving DecidableEq, Repr

/-- A directory that is always there: the working directory or one that holds it, counted upward, or
the top of the tree. -/
inductive BaseDirectory where
  | above (count : Nat)
  | top
  deriving DecidableEq, Repr

namespace BaseDirectory

/-- The directory one step up. The top holds itself. -/
def parent : BaseDirectory → BaseDirectory
  | .above count => .above (count + 1)
  | .top => .top

/-- The base directory in which a path starts. -/
def ofPath (path : String) : BaseDirectory :=
  if path.startsWith "/" then .top else .above 0

end BaseDirectory

/-- A place in the tree: the directory where the way starts, and the names on the way down. -/
structure Location where
  base : BaseDirectory
  names : List String := []
  deriving DecidableEq, Repr

namespace Location

def parent (location : Location) : Location :=
  if location.names = [] then { location with base := location.base.parent }
  else { location with names := location.names.dropLast }

def child (location : Location) (name : String) : Location :=
  { location with names := location.names ++ [name] }

def isWithin (inner outer : Location) : Bool :=
  inner.base = outer.base && outer.names.isPrefixOf inner.names

@[simp] theorem parent_child (location : Location) (name : String) :
    (location.child name).parent = location := by
  simp [child, parent]

end Location

/-- Files and directories, each with its place. The base directories are there without an entry. -/
structure Files where
  nodes : List (Location × FileNode) := []
  deriving DecidableEq, Repr

namespace Files

def node? (files : Files) (location : Location) : Option FileNode :=
  if location.names = [] then some .directory else files.nodes.lookup location

def put (files : Files) (location : Location) (node : FileNode) : Files :=
  { nodes := (files.nodes.filter fun entry => entry.1 ≠ location) ++ [(location, node)] }

def erase (files : Files) (location : Location) : Files :=
  { nodes := files.nodes.filter fun entry => entry.1 ≠ location }

/-- Follow names down from a place. Each step starts in a directory that is there. -/
def walk (files : Files) : Location → List String → Except DeviceError Location
  | location, [] => .ok location
  | location, name :: names =>
    match files.node? location with
    | none => .error .notFound
    | some (.file _) => .error .notDirectory
    | some .directory =>
      if name = "" ∨ name = "." then walk files location names
      else if name = ".." then walk files location.parent names
      else walk files (location.child name) names

/-- The place that a path names, whether or not something is there. -/
def locate (files : Files) (path : String) : Except DeviceError Location :=
  if path = "" then .error .notFound
  else files.walk { base := .ofPath path } (path.splitOn "/")

/-- The names on a path, without the empty ones between slashes. -/
def pathNames (path : String) : List String :=
  (path.splitOn "/").filter (· ≠ "")

/-- The place that a path names when slashes at its end ask for nothing. -/
def locateBare (files : Files) (path : String) : Except DeviceError Location :=
  files.walk { base := .ofPath path } (pathNames path)

/-- The content of the file that a path names. -/
def read (files : Files) (path : String) : Except DeviceError Bytes := do
  match files.node? (← files.locate path) with
  | none => .error .notFound
  | some .directory => .error .isDirectory
  | some (.file content) => .ok content

/-- The place for a file that is to be written: the path must not name a directory. -/
def locateFile (files : Files) (path : String) : Except DeviceError Location := do
  if path.endsWith "/" then
    discard <| files.locateBare path
    .error .isDirectory
  else
    let location ← files.locate path
    if files.node? location = some .directory then .error .isDirectory else .ok location

/-- Write a file, which is made if it is not there. -/
def save (files : Files) (path : String) (content : Bytes) : Except DeviceError Files := do
  return files.put (← files.locateFile path) (.file content)

/-- Write at the end of a file, which is made if it is not there. -/
def append (files : Files) (path : String) (content : Bytes) : Except DeviceError Files := do
  let location ← files.locateFile path
  match files.node? location with
  | some (.file before) => return files.put location (.file (before ++ content))
  | _ => return files.put location (.file content)

/-- Make a directory where nothing is yet. -/
def makeDirectory (files : Files) (path : String) : Option Files :=
  match files.locateBare path with
  | .error _ => none
  | .ok location =>
    if (files.node? location).isSome then none else some (files.put location .directory)

def endsInDot (path : String) : Bool :=
  (pathNames path).getLast? = some "."

/-- Remove a file or a directory that holds nothing. A path that ends in a dot is not followed. -/
def remove (files : Files) (path : String) : Option Files :=
  match files.locate path with
  | .error _ => none
  | .ok location =>
    let occupied := files.nodes.any fun entry => entry.1 ≠ location ∧ entry.1.isWithin location
    if location.names = [] ∨ (files.node? location).isNone ∨ occupied ∨ endsInDot path then none
    else some (files.erase location)

end Files

end LineShell
