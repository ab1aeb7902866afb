import CollectionSchema.TypeHint
import CollectionSchema.Layout
import CollectionSchema.Placement

/-!
# Queries

The generated query builder of a collection, with a filter and an order for each query field, and
the generated results of a query.
-/

namespace CollectionSchema.Artifact

open Layout

/-- The comparisons of a filter: the name of the argument and the operator of the store. -/
def comparisons : List (String × String) := [
  ("is_equal_to", "=="),
  ("is_not_equal_to", "!="),
  ("is_less_than", "<"),
  ("is_less_than_or_equal_to", "<="),
  ("is_greater_than", ">"),
  ("is_greater_than_or_equal_to", ">=")]

/-- The tests on membership of a filter on a list. -/
def arrayTests : List String := ["array_contains", "array_contains_any"]

/-- The step of a filter that applies one operator if its argument was passed. -/
def filterStep (field operator argument : String) : Script :=
  block ("if " ++ argument ++ " is not None:") [
    .line ("reference = reference.where(\"" ++ field ++ "\", \"" ++ operator ++ "\", " ++ argument
      ++ ")")]

/-- A method that filters by a field, with the parameters and operators given. -/
def filterMethod (query field parameters : String) (operators : List (String × String)) : Script :=
  block ("def where_" ++ field ++ "(self, *, " ++ parameters ++ ") -> " ++ query ++ ":")
    (.line "reference = self.reference"
      :: operators.flatMap (fun (argument, operator) => filterStep field operator argument)
      ++ [.line ("return " ++ query ++ "(reference)")])

/-- An optional parameter of a filter. -/
def filterParameter (name type : String) : String :=
  name ++ ": " ++ type ++ " | None = None"

/-- The filter of a query field: tests on membership for a list, comparisons for any other type. A
list type without an argument has no filter. -/
def fieldFilter (query : String) (f : QueryField) : Except Failure Script :=
  if f.type.kind = .list then
    match f.type.arguments with
    | [] => .error .noSuchMember
    | element :: _ =>
      .ok (filterMethod query f.name
        (filterParameter "array_contains" element.hint ++ ", "
          ++ filterParameter "array_contains_any" f.type.hint)
        (arrayTests.map fun test => (test, test)))
  else
    .ok (filterMethod query f.name
      (", ".intercalate (comparisons.map fun (name, _) => filterParameter name f.type.hint))
      comparisons)

def fieldOrder (query : String) (f : QueryField) : Script :=
  block ("def order_by_" ++ f.name ++ "(self, *, descending: bool = False) -> " ++ query ++ ":") [
    .line "direction = \"DESCENDING\" if descending else \"ASCENDING\"",
    .line ("return " ++ query ++ "(self.reference.order_by(\"" ++ f.name
      ++ "\", direction=direction))")]

def fieldMethods (query : String) (f : QueryField) : Except Failure Script :=
  (fieldFilter query f).map fun filter => blank :: filter ++ blank :: fieldOrder query f

/-- The query builder of a collection. -/
def queryClass (p : Placement) : Except Failure Script := do
  let methods ← p.collection.queryFields.mapM (fieldMethods p.queryName)
  return block ("class " ++ p.queryName ++ ":") (
    [.line ("\"\"\"Query over \"" ++ p.pathText ++ "\".\"\"\""),
      blank]
    ++ block "def __init__(self, reference) -> None:" [.line "self.reference = reference"]
    ++ [blank]
    ++ block ("def get(self) -> " ++ p.querySnapshotName ++ ":") [
      .line ("return " ++ p.querySnapshotName ++ "(self.reference.get(), self)")]
    ++ [blank]
    ++ block ("def limit(self, count: int) -> " ++ p.queryName ++ ":") [
      .line ("return " ++ p.queryName ++ "(self.reference.limit(count))")]
    ++ methods.flatten)

def querySnapshotClass (p : Placement) : Script :=
  block ("class " ++ p.querySnapshotName ++ ":") (
    [.line ("\"\"\"Documents of \"" ++ p.pathText ++ "\" matched by a query.\"\"\""),
      blank]
    ++ block ("def __init__(self, snapshots, query: " ++ p.queryName ++ ") -> None:") (
      block ("self.docs: list[" ++ p.queryDocumentSnapshotName ++ "] = [") [
        .line (p.queryDocumentSnapshotName ++ "(snapshot) for snapshot in snapshots")]
      ++ [.line "]",
        .line "self.query = query"])
    ++ [blank]
    ++ block "def __len__(self) -> int:" [.line "return len(self.docs)"])

/-- A document in the result of a query; it always exists. -/
def queryDocumentSnapshotClass (p : Placement) : Script :=
  block ("class " ++ p.queryDocumentSnapshotName ++ ":") (
    [.line ("\"\"\"A \"" ++ p.pathText ++ "\" document returned by a query.\"\"\""),
      blank]
    ++ block "def __init__(self, snapshot) -> None:" [
      .line "self.snapshot = snapshot",
      .line "self.id: str = snapshot.id",
      .line ("self.data: " ++ p.collection.recordType.name ++ " = " ++ p.collectionReferenceName
        ++ ".from_firestore(snapshot)")])

end CollectionSchema.Artifact
