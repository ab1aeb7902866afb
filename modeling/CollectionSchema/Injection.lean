import CollectionSchema.Context
import CollectionSchema.RecordType

/-!
# Injections

A member of a record type can ask to be filled with metadata of the document instead of stored data.
Such a member must ask for one kind of metadata only, be settable, and be a string.

Members are scanned properties first, then fields. `resolve` fails at the first bad member, and
`collect` adds what is wrong with each bad member to a context and gives the injections of the
others.
-/

namespace CollectionSchema

/-- A member that is filled with document metadata. -/
structure Injection where
  kind : Metadata
  target : String
  nullable : Bool
deriving Repr, DecidableEq

namespace Injection

/-- What can be wrong with a member that asks for metadata. -/
inductive Fault where
  /-- The member asks for several kinds. -/
  | several (kinds : List Metadata)
  | notSettable
  | notString (type : ValueType)
deriving Repr

def Fault.code : Fault → Code
  | .several _ => .multipleInjectionAnnotations
  | .notSettable => .nonSettableInjectionTarget
  | .notString _ => .injectionTypeMismatch

def Fault.message : Fault → String
  | .several _ => "Only one injection directive may be used for each field."
  | .notSettable => "Injected fields or properties must be settable."
  | .notString type => "Injected fields must be of type string, got " ++ type.display ++ "."

def Fault.remedy (name : String) : Fault → String
  | .several kinds =>
    "Keep a single directive on " ++ name ++ " (found: "
      ++ ", ".intercalate (kinds.map Vocabulary.word) ++ ")."
  | .notSettable => "Make " ++ name ++ " a non-final field or give it a setter."
  | .notString _ => "Declare " ++ name ++ " as `string` or `string?`."

/-- The name under which a member of `r` is reported. -/
def elementOf (r : RecordType) (m : Member) : String :=
  r.name ++ "." ++ m.name

def Fault.diagnostic (f : Fault) (r : RecordType) (m : Member) : Diagnostic where
  family := .injection
  code := f.code
  message := f.message
  element := elementOf r m
  todo := some (f.remedy m.name)

/-- The members of a record type in the order in which they are scanned. -/
def candidates (r : RecordType) : List Member :=
  r.properties ++ r.fields

/-- The injection that a member asks for; none if it asks for no metadata. -/
def ofMember (m : Member) : Except Fault (Option Injection) :=
  match m.injections with
  | [] => .ok none
  | [kind] =>
    if !m.isMutable then .error .notSettable
    else if !m.type.isString then .error (.notString m.type)
    else .ok (some ⟨kind, m.name, m.type.nullable⟩)
  | kinds => .error (.several kinds)

/-- The injection that a member of `r` asks for; what is wrong with the member is the failure. -/
def resolveMember (r : RecordType) (m : Member) : Report Log.Record (Option Injection) :=
  match ofMember m with
  | .error f => .fail (.diagnostic (f.diagnostic r m))
  | .ok none => return none
  | .ok (some i) => do
    .debug .injections ("Injecting " ++ Vocabulary.word i.kind ++ " into " ++ elementOf r m)
    return some i

/-- The injections of some members of `r`. A failure at a member is caught and its diagnostic added
to the context, before the scan goes on. -/
def collectFrom (r : RecordType) : List Member → Work Context (List Injection)
  | [] => return []
  | m :: ms => do
    let found ← (Work.ofReport (resolveMember r m)).rescue fun d => do
      Context.addError d
      return none
    let rest ← collectFrom r ms
    return found.toList ++ rest

/-- The injections of a record type; what is wrong with a member is added to the context. -/
def collect (r : RecordType) : Work Context (List Injection) :=
  collectFrom r (candidates r)

/-- The injections of some members of `r`; the first bad member is the failure. -/
def resolveFrom (r : RecordType) : List Member → Report Log.Record (List Injection)
  | [] => return []
  | m :: ms => do
    let found ← resolveMember r m
    let rest ← resolveFrom r ms
    return found.toList ++ rest

/-- The injections of a record type; the first bad member is the failure. -/
def resolve (r : RecordType) : Report Log.Record (List Injection) :=
  resolveFrom r (candidates r)

end Injection

end CollectionSchema
