import CollectionSchema.Vocabulary

/-!
# Diagnostics

A diagnostic reports one violated rule: which rule (`Code`), in which phase (`Family`), a message,
the element that violates it, and what to do about it. `text` is how it is shown.

A compilation ends with one aggregate of everything that was found (`aggregate?`). It has the code
of its first part, its message holds the texts of all parts, and there is none without parts.
-/

namespace CollectionSchema

/-- The rules that a diagnostic can report as violated. -/
inductive Code where
  | illegalCharacter
  | pointsToDocument
  | invalidCollectionName
  | untypedCollection
  | notAClass
  | missingDecoder
  | missingEncoder
  | incompatibleDecoderSignature
  | incompatibleEncoderSignature
  | multipleInjectionAnnotations
  | nonSettableInjectionTarget
  | injectionTypeMismatch
  | danglingWildcard
  | orphanSubcollection
  | duplicateCollectionPath
  | conflictingClassName
deriving Repr, DecidableEq

instance : Vocabulary Code where
  members := [.illegalCharacter, .pointsToDocument, .invalidCollectionName, .untypedCollection,
    .notAClass, .missingDecoder, .missingEncoder, .incompatibleDecoderSignature,
    .incompatibleEncoderSignature, .multipleInjectionAnnotations, .nonSettableInjectionTarget,
    .injectionTypeMismatch, .danglingWildcard, .orphanSubcollection, .duplicateCollectionPath,
    .conflictingClassName]
  word
    | .illegalCharacter => "IllegalCharacter"
    | .pointsToDocument => "PointsToDocument"
    | .invalidCollectionName => "InvalidCollectionName"
    | .untypedCollection => "UntypedCollection"
    | .notAClass => "NotAClass"
    | .missingDecoder => "MissingDecoder"
    | .missingEncoder => "MissingEncoder"
    | .incompatibleDecoderSignature => "IncompatibleDecoderSignature"
    | .incompatibleEncoderSignature => "IncompatibleEncoderSignature"
    | .multipleInjectionAnnotations => "MultipleInjectionAnnotations"
    | .nonSettableInjectionTarget => "NonSettableInjectionTarget"
    | .injectionTypeMismatch => "InjectionTypeMismatch"
    | .danglingWildcard => "DanglingWildcard"
    | .orphanSubcollection => "OrphanSubcollection"
    | .duplicateCollectionPath => "DuplicateCollectionPath"
    | .conflictingClassName => "ConflictingClassName"

inductive Family where
  | general
  | path
  | declaration
  | serialization
  | injection
  | graph
  /-- An aggregate of diagnostics, with the codes of its parts. -/
  | aggregate (codes : List Code)
deriving Repr, DecidableEq

/-- A report of one violated rule, or an aggregate of such reports. -/
structure Diagnostic where
  family : Family
  code : Code
  message : String
  element : String := ""
  todo : Option String := none
deriving Repr, DecidableEq

namespace Diagnostic

/-- The lines under the message of a diagnostic: where, and what to do; empty ones are left out. -/
def details (d : Diagnostic) : String :=
  (if d.element.isEmpty then "" else "\n  at: " ++ d.element)
    ++ match d.todo with
      | some todo => if todo.isEmpty then "" else "\n  todo: " ++ todo
      | none => ""

/-- A diagnostic as it is shown; an aggregate shows its message alone. -/
def text (d : Diagnostic) : String :=
  match d.family with
  | .aggregate _ => d.message
  | _ => "[" ++ Vocabulary.word d.code ++ "] " ++ d.message ++ d.details

/-- The aggregate of the diagnostics of one compilation; none if there are no diagnostics. -/
def aggregate? : List Diagnostic → Option Diagnostic
  | [] => none
  | d :: ds =>
    some {
      family := .aggregate ((d :: ds).map (·.code))
      code := d.code
      message := toString (d :: ds).length ++ " error(s) while compiling collections:\n"
        ++ "\n".intercalate ((d :: ds).map text) }

end Diagnostic

end CollectionSchema
