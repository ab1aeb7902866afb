import CollectionSchema.Artifact.Basic
import CollectionSchema.Graph
import CollectionSchema.Log.Record

/-!
# Fragments

The output of a compilation is a list of fragments: the preamble, then for each collection of a
graph and each artifact the text of the artifact, where it is generated. `Graph.visits` reports the
fragments and the skipped artifacts in this order; `Fragment.grouped` finds fragments by collection
and artifact, and `Fragment.renderAll` puts them into one text.
-/

namespace CollectionSchema

/-- One piece of generated code; the preamble belongs to no collection. -/
structure Fragment where
  artifact : String
  path : Option String
  content : String
deriving Repr, DecidableEq

namespace Fragment

def preamble : Fragment :=
  ⟨"preamble", none, Artifact.preamble.render⟩

/-- The table of contents by path and artifact with one more fragment, if it belongs to a
collection. -/
def addTo (grouped : Table String (Table String String)) (f : Fragment) :
    Table String (Table String String) :=
  match f.path with
  | none => grouped
  | some path =>
    grouped.insert path (((grouped.find? path).getD .empty).insert f.artifact f.content)

/-- The contents of the fragments that belong to collections, by path and artifact. -/
def grouped (fs : List Fragment) : Table String (Table String String) :=
  fs.foldl addTo .empty

/-- All fragments in one text, with an empty line between neighbours. -/
def renderAll (fs : List Fragment) : String :=
  "\n\n".intercalate (fs.map fun f => Text.trimNewlines f.content) ++ "\n"

end Fragment

/-- What happens to one artifact of one collection. -/
inductive Visit where
  | skipped (artifact : Artifact) (path : String)
  | rendered (fragment : Fragment)
deriving Repr

namespace Visit

def fragment? : Visit → Option Fragment
  | skipped _ _ => none
  | rendered f => some f

def record? : Visit → Option Log.Record
  | skipped a path => some ⟨.debug, .dispatch, a.name ++ " skipped " ++ path⟩
  | rendered _ => none

/-- The visits up to the `n`-th fragment. -/
def takeFragments : Nat → List Visit → List Visit
  | 0, _ | _, [] => []
  | n + 1, .rendered f :: vs => .rendered f :: takeFragments n vs
  | n + 1, .skipped a path :: vs => .skipped a path :: takeFragments (n + 1) vs

end Visit

/-- Generates one artifact of one collection, or skips it. -/
def Artifact.visit (p : Placement) (a : Artifact) : Report Visit Unit :=
  if a.accepts p then do
    let content ← .lift (a.render p)
    .emit (.rendered ⟨a.name, some p.pathText, content⟩)
  else .emit (.skipped a p.pathText)

/-- The selection of what is generated: some artifacts, and the preamble or not. -/
structure Selection where
  artifacts : List Artifact
  withPreamble : Bool := false
deriving Repr

namespace Graph

/-- The visits of all collections, and for each collection of all artifacts. -/
def visits (g : Graph) (s : Selection) : Report Visit Unit := do
  if s.withPreamble then .emit (.rendered .preamble)
  g.placements.forM fun p => s.artifacts.forM (Artifact.visit p)

def generate (g : Graph) (s : Selection) : Report Log.Record (List Fragment) :=
  let r := g.visits s
  let fragments := r.events.filterMap Visit.fragment?
  (⟨r.events.filterMap Visit.record?, r.value⟩ : Report Log.Record Unit) >>= fun _ => do
    .emit ⟨.info, .dispatch, "Generated " ++ toString fragments.length ++ " fragment(s) for "
      ++ toString g.size ++ " collection(s) with " ++ toString s.artifacts.length
      ++ " emitter(s)"⟩
    return fragments

/-- The first `n` fragments of a graph, if there are as many; what comes later is not generated. -/
def generateFirst (g : Graph) (s : Selection) (n : Nat) : Report Log.Record (List Fragment) :=
  let r := g.visits s
  let taken := Visit.takeFragments n r.events
  let fragments := taken.filterMap Visit.fragment?
  let value := if fragments.length < n then r.value else .ok ()
  ⟨taken.filterMap Visit.record?, value.map fun _ => fragments⟩

end Graph

end CollectionSchema
