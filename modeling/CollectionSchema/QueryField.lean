import CollectionSchema.Injection

/-!
# Query fields

The fields of a record type that queries can filter and order by: public fields that are stored and
whose type is a primitive or a list of primitives. A member that is filled with metadata is not
stored. Other fields are left out without complaint.
-/

namespace CollectionSchema

/-- A field that queries can use. -/
structure QueryField where
  name : String
  type : ValueType
deriving Repr

namespace QueryField

/-- Whether a field is public and stored. -/
def isCandidate (injections : List Injection) (m : Member) : Bool :=
  m.isPublic && !injections.any (·.target = m.name)

/-- The query fields among some fields of `r`; candidates of other types are noted. -/
def selectFrom (r : RecordType) (injections : List Injection) :
    List Member → Report Log.Record (List QueryField)
  | [] => pure []
  | m :: ms =>
    if !isCandidate injections m then selectFrom r injections ms
    else if !m.type.isQueryable then do
      .debug .queryFields ("Skipping " ++ r.name ++ "." ++ m.name ++ ": " ++ m.type.display
        ++ " is not queryable")
      selectFrom r injections ms
    else return ⟨m.name, m.type⟩ :: (← selectFrom r injections ms)

def select (r : RecordType) (injections : List Injection) : Report Log.Record (List QueryField) :=
  selectFrom r injections r.fields

end QueryField

end CollectionSchema
