import CollectionSchema.Vocabulary

/-!
# Declared types

The type of a member, a parameter or a result, as the declarations state it: a kind, the name that
was written, type arguments, and whether it admits null. `display` writes a type for messages.
-/

namespace CollectionSchema

/-- The coarse kind of a declared type. -/
inductive TypeKind where
  | string
  | bool
  | int
  | float
  | number
  | list
  | map
  | object
  | dynamic
deriving Repr, DecidableEq

instance : Vocabulary TypeKind where
  members := [.string, .bool, .int, .float, .number, .list, .map, .object, .dynamic]
  word
    | .string => "string"
    | .bool => "bool"
    | .int => "int"
    | .float => "float"
    | .number => "number"
    | .list => "list"
    | .map => "map"
    | .object => "object"
    | .dynamic => "dynamic"

/-- The kinds whose values a query can compare. -/
def TypeKind.isPrimitive : TypeKind → Bool
  | .string | .bool | .int | .float | .number => true
  | .list | .map | .object | .dynamic => false

/-- A declared type, for instance `list<string>?`. -/
structure ValueType where
  kind : TypeKind
  name : String := ""
  nullable : Bool := false
  arguments : List ValueType := []
deriving Repr

namespace ValueType

/-- Whether the type is a string type, nullable or not. -/
def isString (t : ValueType) : Bool :=
  t.kind = .string

/-- Whether values of the type can be compared by a query. -/
def isPrimitive (t : ValueType) : Bool :=
  t.kind.isPrimitive

/-- Whether the type is a map with string keys; a map without type arguments is one. -/
def isStringKeyedMap (t : ValueType) : Bool :=
  t.kind = .map && match t.arguments with
    | [] => true
    | key :: _ => key.isString

/-- Whether a query can filter and order by members of the type: primitives, and lists of one
primitive argument. -/
def isQueryable (t : ValueType) : Bool :=
  t.isPrimitive || t.kind = .list && match t.arguments with
    | [element] => element.isPrimitive
    | _ => false

mutual

/-- The type as messages show it: the written name, or else the kind, then the arguments, and a
question mark for a type that admits null. -/
def display : ValueType → String
  | ⟨kind, name, nullable, arguments⟩ =>
    let base := if name.isEmpty then Vocabulary.word kind else name
    let applied := if arguments.isEmpty then base else base ++ "<" ++ displayAll arguments ++ ">"
    if nullable then applied ++ "?" else applied

/-- Types in a row, with a comma and a space between them. -/
def displayAll : List ValueType → String
  | [] => ""
  | [t] => t.display
  | t :: ts => t.display ++ ", " ++ displayAll ts

end

end ValueType

end CollectionSchema
