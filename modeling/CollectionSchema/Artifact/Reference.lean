import CollectionSchema.TypeHint
import CollectionSchema.Layout
import CollectionSchema.Placement

/-!
# References

The generated references: to a collection, with the conversions between documents and records; to
one document, with an update by field; and from a document to the collections under it. A document
snapshot wraps what reading a document gives.
-/

namespace CollectionSchema.Artifact

open Layout

/-- The expression that reads metadata from a snapshot. -/
def metadataSource : Metadata → String
  | .documentId => "snapshot.id"
  | .documentPath => "snapshot.reference.path"
  | .parentDocumentId => "_parent_id(snapshot)"

/-- The assignment of metadata to a member of a record; a parent id that may not be missing is
checked first. -/
def injectionSteps (record : String) (i : Injection) : Script :=
  let assign (source : String) := Step.line ("value." ++ i.target ++ " = " ++ source)
  if i.kind = .parentDocumentId ∧ !i.nullable then
    [.line ("parent_id = " ++ metadataSource i.kind)]
    ++ block "if parent_id is None:" [
      .line ("raise ValueError(\"" ++ record ++ "." ++ i.target
        ++ " requires a parent document\")")]
    ++ [assign "parent_id"]
  else [assign (metadataSource i.kind)]

/-- The constructor of a collection reference: a collection with a parent is reached through a
document of the parent, by its last segment; any other is reached by its path. -/
def referenceConstructor (p : Placement) : Except Failure Script :=
  match p.parent, p.collection.path.last? with
  | none, _ =>
    .ok (block "def __init__(self, firestore) -> None:" [
      .line ("super().__init__(firestore.collection(\"" ++ p.pathText ++ "\"))")])
  | some parent, some last =>
    .ok (block ("def __init__(self, parent: " ++ parent.documentReferenceName ++ ") -> None:") [
      .line "self.parent = parent",
      .line ("super().__init__(parent.reference.collection(\"" ++ last ++ "\"))")])
  | some _, none => .error .noLastSegment

def decodeMethod (p : Placement) : Script :=
  let record := p.collection.recordType.name
  .line "@staticmethod" ::
    block ("def from_firestore(snapshot) -> " ++ record ++ ":")
      (.line ("value = " ++ p.collection.codec.decode "snapshot.to_dict()")
        :: p.collection.injections.flatMap (injectionSteps record)
        ++ [.line "return value"])

/-- The conversion of a record to a document; members that hold metadata are left out. -/
def encodeMethod (p : Placement) : Script :=
  .line "@staticmethod" ::
    block ("def to_firestore(value: " ++ p.collection.recordType.name ++ ") -> dict[str, Any]:")
      (.line ("data = " ++ p.collection.codec.encode "value")
        :: p.collection.injections.map (fun i => .line ("data.pop(\"" ++ i.target ++ "\", None)"))
        ++ [.line "return data"])

def collectionReferenceClass (p : Placement) : Except Failure Script := do
  let constructor ← referenceConstructor p
  return block ("class " ++ p.collectionReferenceName ++ "(" ++ p.queryName ++ "):") (
    [.line ("\"\"\"Reference to the \"" ++ p.pathText ++ "\" collection.\"\"\""),
      blank,
      .line ("path = \"" ++ p.pathText ++ "\""),
      blank]
    ++ constructor
    ++ [blank]
    ++ decodeMethod p
    ++ [blank]
    ++ encodeMethod p
    ++ [blank]
    ++ block ("def doc(self, id: str | None = None) -> " ++ p.documentReferenceName ++ ":") [
      .line ("return " ++ p.documentReferenceName ++ "(self.reference.document(id), self)")]
    ++ [blank]
    ++ block ("def add(self, value: " ++ p.collection.recordType.name ++ ") -> "
        ++ p.documentReferenceName ++ ":") [
      .line "_, reference = self.reference.add(self.to_firestore(value))",
      .line ("return " ++ p.documentReferenceName ++ "(reference, self)")])

def updateParameter (f : QueryField) : String :=
  f.name ++ ": " ++ f.type.hint ++ " | _Sentinel = _sentinel"

/-- The method that updates the fields that are passed; without query fields there is none. -/
def updateMethod (fields : List QueryField) : Script :=
  if fields.isEmpty then []
  else
    blank ::
      block ("def update(self, *, " ++ ", ".intercalate (fields.map updateParameter)
          ++ ") -> None:")
        (.line "data = \x7b\x7d"
          :: fields.flatMap (fun f =>
            block ("if " ++ f.name ++ " is not _sentinel:") [
              .line ("data[\"" ++ f.name ++ "\"] = " ++ f.name)])
          ++ [.line "self.reference.update(data)"])

def documentReferenceClass (p : Placement) : Script :=
  block ("class " ++ p.documentReferenceName ++ ":") (
    [.line ("\"\"\"Reference to a document of \"" ++ p.pathText ++ "\".\"\"\""),
      blank]
    ++ block ("def __init__(self, reference, collection: " ++ p.collectionReferenceName
        ++ ") -> None:") [
      .line "self.reference = reference",
      .line "self.collection = collection"]
    ++ [blank,
      .line "@property"]
    ++ block "def id(self) -> str:" [.line "return self.reference.id"]
    ++ [blank]
    ++ block ("def get(self) -> " ++ p.documentSnapshotName ++ ":") [
      .line ("return " ++ p.documentSnapshotName ++ "(self.reference.get(), self)")]
    ++ [blank]
    ++ block ("def set(self, value: " ++ p.collection.recordType.name ++ ") -> None:") [
      .line "self.reference.set(self.collection.to_firestore(value))"]
    ++ [blank]
    ++ block "def delete(self) -> None:" [.line "self.reference.delete()"]
    ++ updateMethod p.collection.queryFields)

def documentSnapshotClass (p : Placement) : Script :=
  block ("class " ++ p.documentSnapshotName ++ ":") (
    [.line ("\"\"\"Wraps " ++ p.wrappedSnapshotName ++ ".\"\"\""),
      blank]
    ++ block ("def __init__(self, snapshot, reference: " ++ p.documentReferenceName
        ++ ") -> None:") [
      .line "self.snapshot = snapshot",
      .line "self.reference = reference",
      .line ("self.data: " ++ p.collection.recordType.name ++ " | None = "
        ++ p.collectionReferenceName
        ++ ".from_firestore(snapshot) if snapshot.exists else None")]
    ++ [blank,
      .line "@property"]
    ++ block "def exists(self) -> bool:" [.line "return self.snapshot.exists"])

/-- The accessor from a document of the class `owner` to a collection under it. -/
def accessor (owner : String) (child : NamedCollection) : Script :=
  let name := "_" ++ Text.camelCase owner ++ "_" ++ child.collection.name
  block ("def " ++ name ++ "(self) -> " ++ child.collectionReferenceName ++ ":") [
    .line ("\"\"\"The \"" ++ child.pathText ++ "\" sub-collection of this document.\"\"\""),
    .line ("return " ++ child.collectionReferenceName ++ "(self)")]
  ++ [blank,
    blank,
    .line (owner ++ "." ++ child.collection.name ++ " = property(" ++ name ++ ")")]

/-- Scripts in a row, with two empty lines between neighbours. -/
def spaced : List Script → Script
  | [] => []
  | [s] => s
  | s :: t :: rest => s ++ [blank, blank] ++ spaced (t :: rest)

def accessors (p : Placement) : Script :=
  spaced (p.children.map (accessor p.documentReferenceName))

end CollectionSchema.Artifact
