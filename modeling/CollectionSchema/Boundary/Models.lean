import CollectionSchema.Boundary.Reader
import CollectionSchema.Declaration

/-!
# Readers of declarations

The readers of everything that declarations are made of, each with the names and the defaults of its
fields, and the values they are dumped to, with all their fields.
-/

namespace CollectionSchema

open Input

namespace ValueType

mutual

def dump : ValueType → Value
  | ⟨kind, name, nullable, arguments⟩ =>
    .object [("kind", .text (Vocabulary.word kind)), ("name", .text name),
      ("nullable", .bool nullable), ("arguments", .list (dumpAll arguments))]

def dumpAll : List ValueType → List Value
  | [] => []
  | t :: ts => t.dump :: dumpAll ts

end

mutual

def read : Value → Checked ValueType
  | .object fields =>
    ValueType.mk
      <$> required fields "kind" (readWord TypeKind)
      <*> optional fields "name" "" readText
      <*> optional fields "nullable" false readBool
      <*> readArguments fields
  | _ => .reject (.notObject "TypeRef")

/-- The type arguments among the fields of a type; there are none by default. -/
def readArguments : List (String × Value) → Checked (List ValueType)
  | [] => pure []
  | (name, v) :: rest =>
    if "arguments" == name then (readArgumentList v).under (.name "arguments")
    else readArguments rest

def readArgumentList : Value → Checked (List ValueType)
  | .list items => readArgumentItems 0 items
  | _ => .reject .notList

/-- The members of a list of type arguments, numbered from `n`. -/
def readArgumentItems : Nat → List Value → Checked (List ValueType)
  | _, [] => pure []
  | n, v :: rest => List.cons <$> (read v).under (.index n) <*> readArgumentItems (n + 1) rest

end

end ValueType

namespace Parameter

def read : Value → Checked Parameter :=
  readRecord "ParameterDescriptor" fun fields =>
    Parameter.mk
      <$> required fields "name" readText
      <*> required fields "type" ValueType.read
      <*> optional fields "required" true readBool
      <*> optional fields "positional" true readBool

def dump (p : Parameter) : Value :=
  .object [("name", .text p.name), ("type", p.type.dump), ("required", .bool p.isRequired),
    ("positional", .bool p.isPositional)]

end Parameter

namespace Constructor

def read : Value → Checked Constructor :=
  readRecord "ConstructorDescriptor" fun fields =>
    Constructor.mk
      <$> optional fields "name" "" readText
      <*> optional fields "parameters" [] (readList Parameter.read)

def dump (c : Constructor) : Value :=
  .object [("name", .text c.name), ("parameters", .list (c.parameters.map Parameter.dump))]

end Constructor

namespace Method

def read : Value → Checked Method :=
  readRecord "MethodDescriptor" fun fields =>
    Method.mk
      <$> required fields "name" readText
      <*> optional fields "parameters" [] (readList Parameter.read)
      <*> optional fields "return_type" { kind := .dynamic } ValueType.read
      <*> optional fields "static" false readBool

def dump (m : Method) : Value :=
  .object [("name", .text m.name), ("parameters", .list (m.parameters.map Parameter.dump)),
    ("return_type", m.returnType.dump), ("static", .bool m.isStatic)]

end Method

namespace Member

def read : Value → Checked Member :=
  readRecord "MemberDescriptor" fun fields =>
    Member.mk
      <$> required fields "name" readText
      <*> required fields "type" ValueType.read
      <*> optional fields "kind" .field (readWord MemberKind)
      <*> optional fields "mutable" true readBool
      <*> optional fields "public" true readBool
      <*> optional fields "injections" [] (readList (readWord Metadata))

def dump (m : Member) : Value :=
  .object [("name", .text m.name), ("type", m.type.dump),
    ("kind", .text (Vocabulary.word m.kind)), ("mutable", .bool m.isMutable),
    ("public", .bool m.isPublic),
    ("injections", .list (m.injections.map fun i => .text (Vocabulary.word i)))]

end Member

namespace RecordType

def read : Value → Checked RecordType :=
  readRecord "RecordTypeDescriptor" fun fields =>
    RecordType.mk
      <$> required fields "name" readText
      <*> optional fields "library" "" readText
      <*> optional fields "is_class" true readBool
      <*> optional fields "members" [] (readList Member.read)
      <*> optional fields "constructors" [] (readList Constructor.read)
      <*> optional fields "methods" [] (readList Method.read)
      <*> optional fields "has_structural_serializer" false readBool

def dump (r : RecordType) : Value :=
  .object [("name", .text r.name), ("library", .text r.library), ("is_class", .bool r.isClass),
    ("members", .list (r.members.map Member.dump)),
    ("constructors", .list (r.constructors.map Constructor.dump)),
    ("methods", .list (r.methods.map Method.dump)),
    ("has_structural_serializer", .bool r.hasStructuralSerializer)]

end RecordType

namespace Site

/-- A line number; longer integers are refused. -/
def readLine (v : Value) : Checked LineNumber :=
  match readInteger v with
  | .valid n =>
    match LineNumber.ofInt? n with
    | some line => .valid line
    | none => .reject .hugeInteger
  | .invalid issues => .invalid issues

def read : Value → Checked Site :=
  readRecord "DeclarationSite" fun fields =>
    Site.mk
      <$> optional fields "symbol" "" readText
      <*> optional fields "library" "" readText
      <*> optional fields "line" none (readNullable readLine)

def dump (s : Site) : Value :=
  .object [("symbol", .text s.symbol), ("library", .text s.library),
    ("line", match s.line with
      | some n => .int n.value
      | none => .null)]

end Site

namespace Declaration

/-- The name under which faults of a declaration are reported. -/
def modelName : String := "RawCollectionDeclaration"

def read : Value → Checked Declaration :=
  readRecord modelName fun fields =>
    Declaration.mk
      <$> required fields "path" readText
      <*> optional fields "name" none (readNullable readText)
      <*> optional fields "record_type" none (readNullable RecordType.read)
      <*> optional fields "site" {} Site.read

def dump (d : Declaration) : Value :=
  .object [("path", .text d.path),
    ("name", match d.name with
      | some name => .text name
      | none => .null),
    ("record_type", match d.recordType with
      | some r => r.dump
      | none => .null),
    ("site", d.site.dump)]

/-- The declaration with a path and a name that are still to be read. -/
def validate (path : Value) (name : Option Value) (recordType : Option RecordType) (site : Site) :
    Checked Declaration :=
  Declaration.mk
    <$> (readText path).under (.name "path")
    <*> (readNullable readText (name.getD .null)).under (.name "name")
    <*> .valid recordType
    <*> .valid site

end Declaration

end CollectionSchema
