import CollectionSchema.Failure
import CollectionSchema.Table

/-!
# Environments

An environment maps the names of variables to their values. Neither names nor values can hold the
character U+0000, and names cannot hold `=` (`define`).
-/

namespace CollectionSchema

/-- The values of variables. -/
abbrev Environment := Table String String

namespace Environment

def define (e : Environment) (name value : String) : Except Failure Environment :=
  if name.contains '\x00' || value.contains '\x00' then .error .nulCharacter
  else if name.contains '=' then .error .illegalVariableName
  else .ok (e.insert name value)

def ofList (pairs : List (String × String)) : Except Failure Environment :=
  pairs.foldlM (fun e pair => e.define pair.1 pair.2) .empty

end Environment

end CollectionSchema
