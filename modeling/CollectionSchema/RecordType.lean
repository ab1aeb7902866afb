import CollectionSchema.ValueType

/-!
# Record types

The record type of a collection as the declarations describe it: its data members, constructors and
methods.
-/

namespace CollectionSchema

/-- Document metadata that a member can be filled with. -/
inductive Metadata where
  | documentId
  | documentPath
  | parentDocumentId
deriving Repr, DecidableEq

instance : Vocabulary Metadata where
  members := [.documentId, .documentPath, .parentDocumentId]
  word
    | .documentId => "id"
    | .documentPath => "path"
    | .parentDocumentId => "parent_id"

inductive MemberKind where
  | field
  | property
deriving Repr, DecidableEq

instance : Vocabulary MemberKind where
  members := [.field, .property]
  word
    | .field => "field"
    | .property => "property"

structure Parameter where
  name : String
  type : ValueType
  isRequired : Bool := true
  isPositional : Bool := true
deriving Repr

/-- A constructor; the unnamed one has the empty name. -/
structure Constructor where
  name : String := ""
  parameters : List Parameter := []
deriving Repr

structure Method where
  name : String
  parameters : List Parameter := []
  returnType : ValueType := { kind := .dynamic }
  isStatic : Bool := false
deriving Repr

/-- A data member. It is mutable if it can be assigned, and `injections` lists the metadata that it
asks to be filled with. -/
structure Member where
  name : String
  type : ValueType
  kind : MemberKind := .field
  isMutable : Bool := true
  isPublic : Bool := true
  injections : List Metadata := []
deriving Repr

/-- The type of the documents of a collection. -/
structure RecordType where
  name : String
  library : String := ""
  isClass : Bool := true
  members : List Member := []
  constructors : List Constructor := []
  methods : List Method := []
  hasStructuralSerializer : Bool := false
deriving Repr

namespace Parameter

/-- Whether an argument must be given, and by position. -/
def isRequiredPositional (p : Parameter) : Bool :=
  p.isRequired && p.isPositional

end Parameter

namespace RecordType

def fields (r : RecordType) : List Member :=
  r.members.filter (·.kind = .field)

def properties (r : RecordType) : List Member :=
  r.members.filter (·.kind = .property)

/-- The first constructor of a name. -/
def findConstructor? (r : RecordType) (name : String) : Option Constructor :=
  r.constructors.find? (·.name = name)

/-- The first method of a name. -/
def findMethod? (r : RecordType) (name : String) : Option Method :=
  r.methods.find? (·.name = name)

end RecordType

end CollectionSchema
