import CollectionSchema.Input.Checked
import CollectionSchema.Input.Value
import CollectionSchema.RecordType
import CollectionSchema.Site

/-!
# Declarations

A declaration states one collection: its path, optionally a name, the record type of its documents,
and the site where it was found. `ofAnnotation?` takes it from the raw fields of an annotation whose
record type and site are known already.
-/

namespace CollectionSchema

open Input

/-- A declared collection. The record type is absent if none was written. -/
structure Declaration where
  path : String
  name : Option String := none
  recordType : Option RecordType := none
  site : Site := {}
deriving Repr

namespace Declaration

/-- The declaration with the path and the name among the entries of an annotation; none if no path
is among them. Without a name and without a site the default is taken. What the values are accepted
as is up to `validate`. -/
def ofAnnotation?
    (validate : Value → Option Value → Option RecordType → Site → Checked Declaration)
    (entries : List (String × Value)) (recordType : Option RecordType) (site : Option Site) :
    Option (Checked Declaration) :=
  (entries.lookup "path").map fun path =>
    validate path (entries.lookup "name") recordType (site.getD {})

end Declaration

end CollectionSchema
