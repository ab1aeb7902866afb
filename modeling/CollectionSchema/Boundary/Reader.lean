import CollectionSchema.Boundary.Integer
import CollectionSchema.Input.Checked
import CollectionSchema.Input.Value
import CollectionSchema.Site
import CollectionSchema.Vocabulary

/-!
# Readers of input values

A stand-in for the library that reads input values, so that the compiler can be run; nothing in the
compiler rests on it. A reader says what a value is accepted as. Texts, lists and words of a
vocabulary must be given as such. Truth values and integers may also come as other values that
plainly stand for them: `readBool` and `readInteger` say which. The fields of a record are read in
their declared order and each on its own; fields that no reader asks for are ignored.
-/

namespace CollectionSchema.Input

variable {α : Type}

/-- What can be wrong with a value. -/
inductive Fault where
  /-- A field without a default is absent. -/
  | missing
  /-- No object where a record of type `model` is due. -/
  | notObject (model : String)
  | notText
  | notList
  /-- No word of the vocabulary with these words. -/
  | notWord (words : List String)
  /-- A text or an integer that stands for neither truth value. -/
  | unclearBool
  | notBool
  /-- A number with a fraction where an integer is due. -/
  | fraction
  /-- A text that stands for no integer. -/
  | unclearInteger
  /-- An integer with more digits than are read. -/
  | hugeInteger
  /-- A number that is infinite or not a number where an integer is due. -/
  | notFinite
  | notInteger
deriving Repr, DecidableEq

/-- Words between quotes, with commas between them and `or` in front of the last. -/
def alternatives : List String → String
  | [] => ""
  | [w] => "'" ++ w ++ "'"
  | [v, w] => "'" ++ v ++ "' or '" ++ w ++ "'"
  | w :: ws => "'" ++ w ++ "', " ++ alternatives ws

def Fault.code : Fault → String
  | .missing => "missing"
  | .notObject _ => "model_type"
  | .notText => "string_type"
  | .notList => "list_type"
  | .notWord _ => "enum"
  | .unclearBool => "bool_parsing"
  | .notBool => "bool_type"
  | .fraction => "int_from_float"
  | .unclearInteger => "int_parsing"
  | .hugeInteger => "int_parsing_size"
  | .notFinite => "finite_number"
  | .notInteger => "int_type"

def Fault.message : Fault → String
  | .missing => "Field required"
  | .notObject model => "Input should be a valid dictionary or instance of " ++ model
  | .notText => "Input should be a valid string"
  | .notList => "Input should be a valid list"
  | .notWord words => "Input should be " ++ alternatives words
  | .unclearBool => "Input should be a valid boolean, unable to interpret input"
  | .notBool => "Input should be a valid boolean"
  | .fraction => "Input should be a valid integer, got a number with a fractional part"
  | .unclearInteger => "Input should be a valid integer, unable to parse string as an integer"
  | .hugeInteger => "Unable to parse input string as an integer, exceeded maximum size"
  | .notFinite => "Input should be a finite number"
  | .notInteger => "Input should be a valid integer"

/-- A reading that failed by one fault, here. -/
def Checked.reject (fault : Fault) : Checked α :=
  .invalid [⟨fault.code, fault.message, []⟩]

def readText : Value → Checked String
  | .text s => .valid s
  | _ => .reject .notText

def readWord (α : Type) [Vocabulary α] (v : Value) : Checked α :=
  let found? : Option α := match v with
    | .text s => Vocabulary.ofWord? s
    | _ => none
  match found? with
  | some a => .valid a
  | none => .reject (.notWord (Vocabulary.words α))

/-- The words that stand for `true`, in small letters. -/
def trueWords : List String := ["1", "on", "t", "true", "y", "yes"]

/-- The words that stand for `false`, in small letters. -/
def falseWords : List String := ["0", "off", "f", "false", "n", "no"]

/-- The truth value that an integer stands for. -/
def boolOfInteger (n : Int) : Checked Bool :=
  if n = 0 then .valid false else if n = 1 then .valid true else .reject .unclearBool

/-- The bound of 64-bit integers. Floating-point numbers are converted to integers strictly between
it and its negative, and truth values are taken from 64-bit integers. -/
def wordBound : Int := Nat.pow 2 63

/-- A truth value, also given as `0` or `1` or by one of its words in any ASCII case. -/
def readBool : Value → Checked Bool
  | .bool b => .valid b
  | .int n => if -wordBound ≤ n ∧ n < wordBound then boolOfInteger n else .reject .notBool
  | .float m e =>
    match floatInteger? m e with
    | some n => if -wordBound < n ∧ n < wordBound then boolOfInteger n else .reject .notBool
    | none => .reject .notBool
  | .text s =>
    let word := s.map Char.toLower
    if trueWords.contains word then .valid true
    else if falseWords.contains word then .valid false
    else .reject .unclearBool
  | _ => .reject .notBool

/-- An integer, also given as a truth value, as a number without a fraction or as a text. -/
def readInteger : Value → Checked Int
  | .int n => .valid n
  | .bool b => .valid (if b then 1 else 0)
  | .float m e =>
    match floatInteger? m e with
    | some n =>
      if -wordBound < n ∧ n < wordBound then .valid n else .reject .hugeInteger
    | none => .reject .fraction
  | .nonFinite => .reject .notFinite
  | .text s =>
    match Text.readInteger maxDigits s with
    | .ok n => .valid n
    | .error .tooLong => .reject .hugeInteger
    | .error .malformed => .reject .unclearInteger
  | _ => .reject .notInteger

/-- A value that may be absent: null, or what `read` accepts. -/
def readNullable (read : Value → Checked α) : Value → Checked (Option α)
  | .null => .valid none
  | v => (read v).map some

/-- The members of a list, numbered from `n`. -/
def readItems (read : Value → Checked α) : Nat → List Value → Checked (List α)
  | _, [] => pure []
  | n, v :: rest => List.cons <$> (read v).under (.index n) <*> readItems read (n + 1) rest

def readList (read : Value → Checked α) : Value → Checked (List α)
  | .list items => readItems read 0 items
  | _ => .reject .notList

/-- A field that must be present. -/
def required (fields : List (String × Value)) (name : String) (read : Value → Checked α) :
    Checked α :=
  (match fields.lookup name with
    | some v => read v
    | none => .reject .missing).under (.name name)

/-- A field that may be absent and then has a default. -/
def optional (fields : List (String × Value)) (name : String) (default : α)
    (read : Value → Checked α) : Checked α :=
  match fields.lookup name with
  | some v => (read v).under (.name name)
  | none => .valid default

/-- A record of type `model`, read from the fields of an object. -/
def readRecord (model : String) (read : List (String × Value) → Checked α) : Value → Checked α
  | .object fields => read fields
  | _ => .reject (.notObject model)

end CollectionSchema.Input
