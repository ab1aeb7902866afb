import CollectionSchema.Diagnostic
import CollectionSchema.Text.Pieces

/-!
# Collection paths

A path is a row of segments with `/` between them. Segments at even positions name collections, and
those at odd positions stand for documents: `*` for any document, anything else for a fixed one. A
path of a collection has an odd number of segments.

`Path.validate` accepts exactly such texts and classifies their segments. `parentPathOf?` cuts a
text in front of its last `/*/`: what is left is the path of the collection whose documents own
this one.
-/

namespace CollectionSchema

open Text

inductive SegmentKind where
  | literal
  | wildcard
deriving Repr, DecidableEq

instance : Vocabulary SegmentKind where
  members := [.literal, .wildcard]
  word
    | .literal => "literal"
    | .wildcard => "wildcard"

structure Segment where
  value : String
  kind : SegmentKind
deriving Repr, DecidableEq

/-- A path: its text and its classified segments. -/
structure Path where
  raw : String
  segments : List Segment
deriving Repr, DecidableEq

/-- The characters in front of the last `/*/`. -/
def beforeLastWildcard? : List Char → Option (List Char)
  | [] => none
  | c :: cs =>
    match beforeLastWildcard? cs with
    | some before => some (c :: before)
    | none => if ['/', '*', '/'].isPrefixOf (c :: cs) then some [] else none

/-- The text in front of the last `/*/`, if there is one. -/
def parentPathOf? (path : String) : Option String :=
  (beforeLastWildcard? path.toList).map String.ofList

namespace Path

/-- Whether the path has a wildcard segment. -/
def isNested (p : Path) : Bool :=
  p.segments.any (·.kind = .wildcard)

def literals (p : Path) : List String :=
  (p.segments.filter (·.kind = .literal)).map (·.value)

def last? (p : Path) : Option String :=
  p.segments.getLast?.map (·.value)

/-- The path of the owning collection; a path without a wildcard has none. -/
def parent? (p : Path) : Option String :=
  parentPathOf? p.raw

inductive Fault where
  /-- The path is empty or has a character that is not allowed. -/
  | illegalCharacter
  /-- The number of segments is even. -/
  | pointsToDocument
  | emptySegment
  /-- A wildcard stands where a collection must be named. -/
  | wildcardName
deriving Repr, DecidableEq

def Fault.code : Fault → Code
  | .illegalCharacter => .illegalCharacter
  | .pointsToDocument => .pointsToDocument
  | .emptySegment | .wildcardName => .invalidCollectionName

/-- What a fault does to a path, after the words that name the path. -/
def Fault.complaint : Fault → String
  | .illegalCharacter => "but the path contains illegal characters."
  | .pointsToDocument => "but this path points to a document instead of a collection."
  | .emptySegment => "but it contains an empty segment."
  | .wildcardName => "but * is not a valid collection name."

def Fault.remedy : Fault → String
  | .illegalCharacter => "Only use letters, digits, '_', '-', '/' and '*'."
  | .pointsToDocument => "Remove the trailing document segment or add a collection name."
  | .emptySegment => "Remove leading, trailing or doubled '/'."
  | .wildcardName => "Collection segments must be names; '*' only stands for document ids."

def Fault.diagnostic (f : Fault) (raw element : String) : Diagnostic where
  family := .path
  code := f.code
  message := "Received \"" ++ raw ++ "\" as collection path, " ++ f.complaint
  element := element
  todo := some f.remedy

/-- The characters that paths consist of. -/
def isPathChar (c : Char) : Bool :=
  c.isAlphanum || c == '/' || c == '*' || c == '_' || c == '-'

/-- The segment that stands for a document. -/
def documentSegment (part : List Char) : Segment :=
  ⟨.ofList part, if part = ['*'] then .wildcard else .literal⟩

mutual

/-- The segments of parts of which the first names a collection. -/
def collectionSegments : List (List Char) → Except Fault (List Segment)
  | [] => .ok []
  | part :: parts =>
    if part.isEmpty then .error .emptySegment
    else if part = ['*'] then .error .wildcardName
    else (documentSegments parts).map (⟨.ofList part, .literal⟩ :: ·)

/-- The segments of parts of which the first stands for a document. -/
def documentSegments : List (List Char) → Except Fault (List Segment)
  | [] => .ok []
  | part :: parts =>
    if part.isEmpty then .error .emptySegment
    else (collectionSegments parts).map (documentSegment part :: ·)

end

/-- The path that a text stands for. -/
def validate (raw : String) : Except Fault Path :=
  let cs := raw.toList
  if cs.isEmpty || !cs.all isPathChar then .error .illegalCharacter
  else
    let parts := pieces (· == '/') cs
    if parts.length % 2 = 0 then .error .pointsToDocument
    else (collectionSegments parts).map (Path.mk raw)

theorem raw_of_validate {raw : String} {p : Path} (h : validate raw = .ok p) : p.raw = raw := by
  simp only [validate] at h
  split at h
  · simp at h
  · split at h
    · simp at h
    · cases hs : collectionSegments (pieces (· == '/') raw.toList) with
      | error f => simp [hs, Except.map] at h
      | ok segments =>
        simp only [hs, Except.map, Except.ok.injEq] at h
        rw [← h]

end Path

end CollectionSchema
