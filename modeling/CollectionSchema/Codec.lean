import CollectionSchema.RecordType
import CollectionSchema.Report
import CollectionSchema.Site

/-!
# Codecs

A codec says how generated code turns documents into records and back. Each direction is either
declared, by a constructor or method of the record type, or derived, by a function that a structural
serializer generates. A declared direction must have the right signature, and a derived one needs a
structural serializer; derived decoders are private to the library of the record type.

`problems` lists what is wrong with both directions, the decoder first. `resolve` gives the codec,
or fails with the first problem.
-/

namespace CollectionSchema

def decoderName : String := "from_json"

def encoderName : String := "to_json"

/-- Where one direction of a codec comes from. -/
inductive CodecSource where
  | declared
  | derived
deriving Repr, DecidableEq

instance : Vocabulary CodecSource where
  members := [.declared, .derived]
  word
    | .declared => "declared"
    | .derived => "derived"

/-- How documents of one record type are decoded and encoded. -/
structure Codec where
  typeName : String
  decoder : CodecSource
  encoder : CodecSource
deriving Repr, DecidableEq

namespace Codec

/-- The generated expression that decodes the document that `expression` stands for. -/
def decode (c : Codec) (expression : String) : String :=
  match c.decoder with
  | .declared => c.typeName ++ "." ++ decoderName ++ "(" ++ expression ++ ")"
  | .derived => "_" ++ c.typeName ++ "_" ++ decoderName ++ "(" ++ expression ++ ")"

/-- The generated expression that encodes the record that `expression` stands for. -/
def encode (c : Codec) (expression : String) : String :=
  match c.encoder with
  | .declared => expression ++ "." ++ encoderName ++ "()"
  | .derived => "_" ++ c.typeName ++ "_" ++ encoderName ++ "(" ++ expression ++ ")"

/-- What can be wrong with one direction of a codec. -/
inductive Fault where
  | decoderSignature
  /-- There is no decoder. A derived one exists but is private to another library than `site` if
  `hidden` holds. -/
  | noDecoder (hidden : Option (String × String))
  | encoderSignature
  | noEncoder
deriving Repr, DecidableEq

def Fault.code : Fault → Code
  | .decoderSignature => .incompatibleDecoderSignature
  | .noDecoder _ => .missingDecoder
  | .encoderSignature => .incompatibleEncoderSignature
  | .noEncoder => .missingEncoder

/-- What is wrong with the record type `name`. -/
def Fault.message (name : String) : Fault → String
  | .decoderSignature =>
    "Collection was declared with the class " ++ name ++ " but its " ++ decoderName
      ++ " does not match `" ++ decoderName ++ "(data: map<string, dynamic>)`."
  | .noDecoder hidden =>
    "Collection was declared with the class " ++ name ++ ", but the class has no `"
      ++ decoderName ++ "` constructor."
      ++ match hidden with
        | some (owner, user) =>
          " Its derived decoder is private to " ++ owner ++ " and cannot be used from "
            ++ user ++ "."
        | none => ""
  | .encoderSignature =>
    "Collection was declared with the class " ++ name ++ " but its " ++ encoderName
      ++ " does not match `" ++ encoderName ++ "() -> map<string, dynamic>`."
  | .noEncoder =>
    "Collection was declared with the class " ++ name ++ ", but the class has no `"
      ++ encoderName ++ "` method."

def Fault.remedy (name : String) : Fault → String
  | .decoderSignature =>
    "Make " ++ name ++ "." ++ decoderName
      ++ " take a single required positional map parameter."
  | .noDecoder _ => "Add a `" ++ decoderName ++ "` constructor to " ++ name
  | .encoderSignature =>
    "Make " ++ name ++ "." ++ encoderName
      ++ " an instance method with no parameters returning a map."
  | .noEncoder => "Add a `" ++ encoderName ++ "` method to " ++ name

def Fault.diagnostic (f : Fault) (name element : String) : Diagnostic where
  family := .serialization
  code := f.code
  message := f.message name
  element := element
  todo := some (f.remedy name)

/-- Whether a constructor can decode a document: its one parameter is required, positional and a map
with string keys. -/
def isDecoder (c : Constructor) : Bool :=
  match c.parameters with
  | [p] => p.isRequiredPositional && p.type.isStringKeyedMap
  | _ => false

/-- Whether a method can encode a record: it belongs to an instance, has no parameters and returns a
map with string keys. -/
def isEncoder (m : Method) : Bool :=
  !m.isStatic && m.parameters.isEmpty && m.returnType.isStringKeyedMap

/-- Whether code at `site` can use what is private to `library`; where no library is known, it
can. -/
def sharesLibrary (site : Option Site) (library : String) : Bool :=
  match site with
  | none => true
  | some s => s.library.isEmpty || s.library = library

/-- Where the decoder of `r` comes from, for a collection declared at `site`. -/
def decoderOf (r : RecordType) (site : Option Site) : Except Fault CodecSource :=
  match r.findConstructor? decoderName with
  | some c => if isDecoder c then .ok .declared else .error .decoderSignature
  | none =>
    if !r.hasStructuralSerializer then .error (.noDecoder none)
    else if sharesLibrary site r.library then .ok .derived
    else .error (.noDecoder (some (r.library, (site.map (·.library)).getD "")))

/-- Where the encoder of `r` comes from. -/
def encoderOf (r : RecordType) : Except Fault CodecSource :=
  match r.findMethod? encoderName with
  | some m => if isEncoder m then .ok .declared else .error .encoderSignature
  | none => if r.hasStructuralSerializer then .ok .derived else .error .noEncoder

/-- The element for which faults are reported: the site, or else the record type. -/
def elementOf (r : RecordType) (site : Option Site) : String :=
  match site with
  | some s => s.render
  | none => r.name

def faultOf {α : Type} : Except Fault α → List Fault
  | .ok _ => []
  | .error f => [f]

/-- Everything that is wrong with the codec of `r`, the decoder first. -/
def problems (r : RecordType) (site : Option Site) : List Diagnostic :=
  (faultOf (decoderOf r site) ++ faultOf (encoderOf r)).map
    (·.diagnostic r.name (elementOf r site))

def resolve (r : RecordType) (site : Option Site) : Report Log.Record Codec :=
  match decoderOf r site, encoderOf r with
  | .error f, _ | .ok _, .error f =>
    .fail (.diagnostic (f.diagnostic r.name (elementOf r site)))
  | .ok decoder, .ok encoder => do
    .debug .codecs ("Serialization for " ++ r.name ++ ": decode=" ++ Vocabulary.word decoder
      ++ ", encode=" ++ Vocabulary.word encoder)
    return ⟨r.name, decoder, encoder⟩

end Codec

end CollectionSchema
