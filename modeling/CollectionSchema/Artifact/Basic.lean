import CollectionSchema.Artifact.Preamble
import CollectionSchema.Artifact.Query
import CollectionSchema.Artifact.Reference

/-!
# Artifacts

The kinds of code that are generated for a collection, in the order in which they are generated: the
base classes come before the classes made from them. `resolve` finds artifacts by their names.
-/

namespace CollectionSchema

/-- The kinds of generated code. -/
inductive Artifact where
  | query
  | querySnapshot
  | queryDocumentSnapshot
  | documentSnapshot
  | documentReference
  | collectionReference
  | subcollectionAccessors
deriving Repr, DecidableEq

instance : Vocabulary Artifact where
  members := [.query, .querySnapshot, .queryDocumentSnapshot, .documentSnapshot,
    .documentReference, .collectionReference, .subcollectionAccessors]
  word
    | .query => "query"
    | .querySnapshot => "query_snapshot"
    | .queryDocumentSnapshot => "query_document_snapshot"
    | .documentSnapshot => "document_snapshot"
    | .documentReference => "document_reference"
    | .collectionReference => "collection_reference"
    | .subcollectionAccessors => "subcollection_accessors"

namespace Artifact

def name (a : Artifact) : String :=
  Vocabulary.word a

/-- Whether the artifact is generated for a collection: accessors only where there are children. -/
def accepts (a : Artifact) (p : Placement) : Bool :=
  match a with
  | .subcollectionAccessors => !p.children.isEmpty
  | _ => true

def script (a : Artifact) (p : Placement) : Except Failure Layout.Script :=
  match a with
  | .query => queryClass p
  | .querySnapshot => .ok (querySnapshotClass p)
  | .queryDocumentSnapshot => .ok (queryDocumentSnapshotClass p)
  | .documentSnapshot => .ok (documentSnapshotClass p)
  | .documentReference => .ok (documentReferenceClass p)
  | .collectionReference => collectionReferenceClass p
  | .subcollectionAccessors => .ok (accessors p)

def render (a : Artifact) (p : Placement) : Except Failure String :=
  (a.script p).map (·.render)

/-- The names of all artifacts, in ascending order. -/
def sortedNames : List String :=
  (Vocabulary.words Artifact).mergeSort (· ≤ ·)

def ofName (name : String) : Except Failure Artifact :=
  match Vocabulary.ofWord? name with
  | some a => .ok a
  | none => .error (.unknownArtifact name sortedNames)

/-- The artifacts of some names, in the order of the names; without names, all artifacts. -/
def resolve : Option (List String) → Except Failure (List Artifact)
  | none => .ok Vocabulary.members
  | some names => names.mapM ofName

end Artifact

end CollectionSchema
