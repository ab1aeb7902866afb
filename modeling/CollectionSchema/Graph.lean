import CollectionSchema.Hierarchy
import CollectionSchema.Table

/-!
# Graphs

A graph is a selection of the collections of a hierarchy, indexed by path. A path that is selected
twice keeps its first position and stands for the last collection. Roots are the collections without
a wildcard in the path. `walk` visits each root and then, depth first, what is below it, so that
every collection comes after its parent.
-/

namespace CollectionSchema

/-- Collections of a hierarchy by path, in order. -/
structure Graph where
  hierarchy : Hierarchy
  index : Table String Nat
deriving Repr

namespace Graph

def ofMembers (h : Hierarchy) (members : List Nat) : Graph where
  hierarchy := h
  index := .ofList (members.filterMap fun i => (h.pathOf? i).map (·, i))

def members (g : Graph) : List Nat :=
  g.index.values

def size (g : Graph) : Nat :=
  g.members.length

def placements (g : Graph) : List Placement :=
  g.members.filterMap g.hierarchy.placement?

/-- The collections that nothing owns by their path. -/
def roots (g : Graph) : List Placement :=
  g.placements.filter (·.collection.isRoot)

/-- The collections that are owned by another by their path. -/
def subcollections (g : Graph) : List Placement :=
  g.placements.filter (!·.collection.isRoot)

def get? (g : Graph) (path : String) : Option Placement :=
  (g.index.find? path).bind g.hierarchy.placement?

def contains (g : Graph) (path : String) : Bool :=
  g.index.contains path

/-- The collections visited depth first from a stack of numbers, at most `fuel` of them. -/
def walkFrom (links : Links) : Nat → List Nat → List Nat
  | 0, _ | _, [] => []
  | fuel + 1, i :: stack => i :: walkFrom links fuel (links.children i ++ stack)

def rootMembers (g : Graph) : List Nat :=
  g.members.filter fun i => (g.hierarchy.named? i).any (·.collection.isRoot)

/-- The numbers of the collections in the order of the walk. Below each root every collection of the
hierarchy is met at most once. -/
def walkMembers (g : Graph) : List Nat :=
  walkFrom g.hierarchy.links (g.rootMembers.length * g.hierarchy.entries.length) g.rootMembers

/-- The collections depth first, parents before their children. -/
def walk (g : Graph) : List Placement :=
  g.walkMembers.filterMap g.hierarchy.placement?

def describeAll (ps : List Placement) : String :=
  "[" ++ ", ".intercalate (ps.map (·.collection.describe)) ++ "]"

def describe (g : Graph) : String :=
  "CollectionGraph(roots: " ++ describeAll g.roots ++ ", subcollections: "
    ++ describeAll g.subcollections ++ ")"

end Graph

end CollectionSchema
