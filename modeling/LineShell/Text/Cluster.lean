import LineShell.Text.Cluster.Kind
/-!
Clusters: the stretches of a text that a reader takes for one character each, such as a letter with
its accents, a flag or a family of joined pictures.
-/

namespace LineShell.Text

/-- How far a text has come towards a conjunct of two consonants. -/
inductive Conjunct where
  | none
  | begun
  /-- It ends in a consonant with marks, one of them a linker. -/
  | linked
  deriving DecidableEq, Repr

/-- What the end of a text means for the character that follows it. -/
structure ClusterContext where
  last : ClusterKind := .control
  /-- The text ends in a picture, perhaps with marks. -/
  picture : Bool := false
  /-- The text ends in a picture, perhaps with marks, and a joiner. -/
  joined : Bool := false
  /-- The text ends in an odd number of flag letters. -/
  oddIndicators : Bool := false
  conjunct : Conjunct := .none
  deriving DecidableEq, Repr

namespace ClusterContext

/-- The context after one more character. -/
def after (context : ClusterContext) (kind : ClusterKind) : ClusterContext where
  last := kind
  picture := kind = .picture ||
    context.picture && (kind = .extender || kind = .linker || kind = .nonJoiner)
  joined := context.picture && kind = .joiner
  oddIndicators := kind = .indicator && !context.oddIndicators
  conjunct :=
    match kind with
    | .consonant => .begun
    | .linker => if context.conjunct = .none then .none else .linked
    | .extender | .joiner => context.conjunct
    | _ => .none

/-- Whether a character of the next kind goes on with the cluster at the end of the text. -/
def joins (context : ClusterContext) (next : ClusterKind) : Bool :=
  if context.last = .carriageReturn ∧ next = .lineFeed then true
  else if context.last.standsAlone || next.standsAlone then false
  else if context.last.inSyllable next || next.trails || context.last = .leader then true
  else
    match next with
    | .consonant => context.conjunct = .linked
    | .picture => context.joined
    | .indicator => context.oddIndicators
    | _ => false

end ClusterContext

/-- The clusters of the rest of a text, after what went before. -/
def clustersAfter : ClusterContext → List Char → List (List Char)
  | _, [] => []
  | context, c :: rest =>
    let context := context.after (.ofChar c)
    let goesOn := rest.head?.any fun next => context.joins (.ofChar next)
    match clustersAfter context rest with
    | [] => [[c]]
    | first :: more => if goesOn then (c :: first) :: more else [c] :: first :: more

def clusters (text : List Char) : List (List Char) :=
  clustersAfter {} text

end LineShell.Text
