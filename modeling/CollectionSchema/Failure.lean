import CollectionSchema.Diagnostic
import CollectionSchema.Input.Checked
import CollectionSchema.Text.Quoted

/-!
# Failures

All the ways in which an operation can end without a result. Diagnostics are the expected one; the
others stem from wrong input values, unknown names, or calls that the state does not allow.
`message` is the text of a failure.
-/

namespace CollectionSchema

open Input Text

/-- Why an operation gave no result. -/
inductive Failure where
  | diagnostic (d : Diagnostic)
  /-- An aggregate was asked for, but there are no diagnostics. -/
  | emptyAggregate
  /-- An input value does not describe a `model`. -/
  | invalidInput (model : String) (issues : List Issue)
  /-- No artifact has this name; `known` are the names that exist. -/
  | unknownArtifact (name : String) (known : List String)
  /-- The word is none of the vocabulary with this name. -/
  | unknownWord (vocabulary word : String)
  | unknownLevel (name : String)
  /-- The collection at `path` was attached to a parent before. -/
  | alreadyAttached (path : String)
  | missingKey (key : String)
  /-- A path without segments has no last segment. -/
  | noLastSegment
  /-- A list has no member at the position that was asked for. -/
  | noSuchMember
  /-- A variable of the environment cannot hold the character U+0000. -/
  | nulCharacter
  | illegalVariableName
deriving Repr, DecidableEq

namespace Failure

/-- The number of issues of a model, in words. -/
def issueCount (model : String) (n : Nat) : String :=
  if n = 1 then "1 validation error for " ++ model
  else toString n ++ " validation errors for " ++ model

def message : Failure → String
  | diagnostic d => d.message
  | emptyAggregate => "SchemaCompilationError requires at least one error"
  | invalidInput model issues => issueCount model issues.length
  | unknownArtifact name known =>
    "Unknown emitter '" ++ name ++ "'. Registered emitters: ["
      ++ ", ".intercalate (known.map quoted) ++ "]"
  | unknownWord vocabulary word => quoted word ++ " is not a valid " ++ vocabulary
  | unknownLevel name => "Unknown level: " ++ quoted name
  | alreadyAttached path => path ++ " already has a parent"
  | missingKey key => quoted key
  | noLastSegment => "tuple index out of range"
  | noSuchMember => "list index out of range"
  | nulCharacter => "embedded null byte"
  | illegalVariableName => "illegal environment variable name"

end Failure

/-- The result of a reading, or the failure that the input does not describe a `model`. -/
def Input.Checked.orFail {α : Type} (model : String) : Checked α → Except Failure α
  | .valid a => .ok a
  | .invalid issues => .error (.invalidInput model issues)

/-- The member of a vocabulary that is written as `w`, or the failure that there is none. -/
def Vocabulary.parse {α : Type} [Vocabulary α] (vocabulary w : String) : Except Failure α :=
  match ofWord? w with
  | some a => .ok a
  | none => .error (.unknownWord vocabulary w)

/-- The aggregate of some diagnostics as a failure, or the failure that there are none. -/
def Failure.aggregate (ds : List Diagnostic) : Failure :=
  match Diagnostic.aggregate? ds with
  | some d => .diagnostic d
  | none => .emptyAggregate

end CollectionSchema
