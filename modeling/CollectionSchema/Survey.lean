import CollectionSchema.Graph

/-!
# Kept collections

The collections that a build has kept of its declarations, each with the position of its
declaration, and the diagnostics that arise between declarations: a path that is declared twice, a
parent that is missing, a class name that is taken.
-/

namespace CollectionSchema

/-- A collection and the position of its declaration. -/
structure Kept where
  index : Nat
  collection : Collection
deriving Repr

namespace Survey

/-- The diagnostic of a collection whose path was first declared at `first`. -/
def duplicatePath (first : Site) (c : Collection) : Diagnostic where
  family := .graph
  code := .duplicateCollectionPath
  message := "Collection path \"" ++ c.pathText ++ "\" is declared more than once (first at "
    ++ first.render ++ ")."
  element := c.site.render
  todo := some "Declare each collection path exactly once."

/-- The diagnostic of a nested collection whose path names no parent. -/
def danglingWildcard (c : Collection) : Diagnostic where
  family := .graph
  code := .danglingWildcard
  message := "Defined a sub-collection with path " ++ c.pathText
    ++ " but the path does not point to a sub-collection."
  element := c.site.render

/-- The diagnostic of a nested collection whose parent is not declared. -/
def orphan (c : Collection) (parentPath : String) : Diagnostic where
  family := .graph
  code := .orphanSubcollection
  message := "Defined a sub-collection with path \"" ++ c.pathText
    ++ "\" but no collection with path \"" ++ parentPath ++ "\" found."
  element := c.site.render
  todo := some ("Declare a collection with path \"" ++ parentPath ++ "\".")

/-- The diagnostic of a collection whose class name is taken by `owner`. -/
def conflictingClassName (owner c : NamedCollection) : Diagnostic where
  family := .graph
  code := .conflictingClassName
  message := "Collections \"" ++ owner.pathText ++ "\" and \"" ++ c.pathText
    ++ "\" would both generate classes named " ++ c.className ++ "."
  element := c.collection.site.render
  todo := some "Rename the record type or the collection path."

/-- Whether several of the collections have the record type of `c`. -/
def sharesRecordType (kept : List Kept) (c : Collection) : Bool :=
  1 < kept.countP fun k => k.collection.recordType.name = c.recordType.name

end Survey

end CollectionSchema
