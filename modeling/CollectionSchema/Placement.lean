import CollectionSchema.Collection

/-!
# Placements

What generated code can see of a collection: the collection itself, the class name that its
generated classes share, and its neighbours in the hierarchy, that is its parent and its children in
order. The names of all generated classes are made from the class name.
-/

namespace CollectionSchema

open Text

/-- The class name of a collection that shares its record type with no other: the name of the record
type with a capital. -/
def Collection.plainClassName (c : Collection) : String :=
  capitalized c.recordType.name

/-- The class name made from the literal segments of the path, each in camel case with a capital. -/
def Collection.pathClassName (c : Collection) : String :=
  String.join (c.path.literals.map fun literal => capitalized (camelCase literal))

/-- The class name of a collection. A qualified one comes from the path, unless that gives no
name. -/
def Collection.className (c : Collection) (qualified : Bool) : String :=
  if qualified && !c.pathClassName.isEmpty then c.pathClassName else c.plainClassName

/-- A collection with the name that its generated classes share. -/
structure NamedCollection where
  collection : Collection
  className : String
deriving Repr

namespace NamedCollection

variable (c : NamedCollection)

def pathText : String := c.collection.pathText

def collectionReferenceName : String := c.className ++ "CollectionReference"

/-- The private class behind references to the collection. -/
def collectionReferenceImplName : String := "_" ++ c.collectionReferenceName

def documentReferenceName : String := c.className ++ "DocumentReference"

def queryName : String := c.className ++ "Query"

/-- The private class behind queries. -/
def queryImplName : String := "_" ++ c.queryName

def querySnapshotName : String := c.className ++ "QuerySnapshot"

def queryDocumentSnapshotName : String := c.className ++ "QueryDocumentSnapshot"

def documentSnapshotName : String := c.className ++ "DocumentSnapshot"

/-- The type of the snapshot that a document snapshot wraps. -/
def wrappedSnapshotName : String := "DocumentSnapshot[" ++ c.collection.recordType.name ++ "]"

end NamedCollection

/-- A collection in its place: with its parent and its children. -/
structure Placement extends NamedCollection where
  parent : Option NamedCollection := none
  children : List NamedCollection := []
deriving Repr

end CollectionSchema
