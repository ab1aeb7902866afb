import CollectionSchema.Codec
import CollectionSchema.Declaration
import CollectionSchema.Path
import CollectionSchema.QueryField
import CollectionSchema.Text.Words

/-!
# Collections

A collection brings together what is known of one declaration: its record type, path, codec, query
fields and injections. `Declaration.compile` makes it from a declaration, or adds everything that is
wrong with the declaration to a context; the path and the record type are checked independently of
each other.
-/

namespace CollectionSchema

open Text

/-- A checked collection. Its name is the one declared or comes from the path. -/
structure Collection where
  recordType : RecordType
  path : Path
  codec : Codec
  name : String
  queryFields : List QueryField := []
  injections : List Injection := []
  site : Site := {}
deriving Repr

namespace Collection

/-- The name of a collection: the declared one unless it is empty, or else the last segment of the
path in camel case. -/
def nameFor (declared : Option String) (path : Path) : Except Failure String :=
  match declared.filter (!·.isEmpty), path.last? with
  | some name, _ => .ok name
  | none, some last => .ok (camelCase last)
  | none, none => .error .noLastSegment

def pathText (c : Collection) : String :=
  c.path.raw

/-- Whether no collection owns the documents that this one belongs to. -/
def isRoot (c : Collection) : Bool :=
  !c.path.isNested

def describe (c : Collection) : String :=
  "CollectionDescriptor(type: " ++ c.recordType.name ++ ", name: " ++ c.name ++ ", path: "
    ++ c.pathText ++ ")"

end Collection

namespace Declaration

def untyped (d : Declaration) : Diagnostic where
  family := .declaration
  code := .untypedCollection
  message := "Collection \"" ++ d.path ++ "\" was declared, but no record type was specified."
  element := d.site.render
  todo := some "Instead of Collection(\"path\") use Collection[MyClass](\"path\")."

def notAClass (d : Declaration) (r : RecordType) : Diagnostic where
  family := .declaration
  code := .notAClass
  message := "Collection can only receive classes as record type, got " ++ r.name ++ "."
  element := d.site.render

/-- The checked path of a declaration; a fault is the failure. -/
def validatedPath (d : Declaration) : Except Failure Path :=
  (Path.validate d.path).mapError fun f => .diagnostic (f.diagnostic d.path d.site.render)

/-- The path of a declaration. A failure of the check is caught and its diagnostic added to the
context. -/
def checkPath (d : Declaration) : Work Context (Option Path) :=
  (some <$> Work.lift d.validatedPath).rescue fun e => do
    Context.addError e
    return none

/-- Adds what is wrong with the record type of a declaration, and gives the injections of its
members. -/
def checkRecord (d : Declaration) : Work Context (List Injection) :=
  match d.recordType with
  | none => do
    Context.addError d.untyped
    return []
  | some r =>
    if !r.isClass then do
      Context.addError (d.notAClass r)
      return []
    else do
      Context.addErrors (Codec.problems r d.site)
      Injection.collect r

def check (d : Declaration) : Work Context (Option Path × List Injection) := do
  let path ← d.checkPath
  let injections ← d.checkRecord
  return (path, injections)

def assemble (d : Declaration) (path : Path) (r : RecordType) (injections : List Injection) :
    Report Log.Record Collection := do
  let codec ← Codec.resolve r d.site
  let queryFields ← QueryField.select r injections
  let name ← .lift (Collection.nameFor d.name path)
  let c : Collection := ⟨r, path, codec, name, queryFields, injections, d.site⟩
  .debug .graph ("Compiled " ++ c.describe)
  return c

/-- The collection of a declaration; none if the checks have added anything to the context. -/
def compile (d : Declaration) : Work Context (Option Collection) := do
  let ((path, injections), faulty) ← Context.watch d.check
  match faulty, path, d.recordType with
  | false, some path, some r => do
    let c ← Work.ofReport (d.assemble path r injections)
    return some c
  | _, _, _ => return none

end Declaration

end CollectionSchema
