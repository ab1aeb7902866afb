import CollectionSchema.ValueType

/-!
# Type hints

The type hints of generated code, written from the declared types: the inner hints first, then the
hint around them, and `None` behind it for a type that admits null.
-/

namespace CollectionSchema.ValueType

/-- A hint that admits null in addition, if the type does and the hint says something. -/
def admitting (nullable : Bool) (written : String) : String :=
  if nullable && written != "Any" then written ++ " | None" else written

mutual

/-- The type hint of a declared type. -/
def hint : ValueType → String
  | ⟨kind, name, nullable, arguments⟩ =>
    admitting nullable <| match kind with
      | .string => "str"
      | .bool => "bool"
      | .int => "int"
      | .float => "float"
      | .number => "int | float"
      | .dynamic => "Any"
      | .list => "list[" ++ hintOfFirst arguments ++ "]"
      | .map => hintOfPair arguments
      | .object => if name.isEmpty then "Any" else name

/-- The hint of the first argument of a list type; without one, nothing is known. -/
def hintOfFirst : List ValueType → String
  | [] => "Any"
  | t :: _ => t.hint

/-- The hint for the arguments of a map type: for both if there are two, and otherwise for string
keys and unknown values. -/
def hintOfPair : List ValueType → String
  | [k, v] => "dict[" ++ k.hint ++ ", " ++ v.hint ++ "]"
  | _ => "dict[str, Any]"

end

end CollectionSchema.ValueType
