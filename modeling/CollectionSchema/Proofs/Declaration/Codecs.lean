import CollectionSchema.Codec
import Mathlib.Data.List.Basic

/-!
# What settles a codec

Each direction of a codec is settled by what the record type declares: the first constructor called
`from_json` or the first method called `to_json`, and where there is none, the structural
serializer. Only the derived decoder depends on libraries as well. `Codec.Decodes` and
`Codec.Encodes` state this without looking anything up. The two ways to ask for a codec, the list of
its problems and the codec itself, go by the same verdicts (`Codec.resolve_settled`).
-/

namespace CollectionSchema

/-! ## The first of a name -/

section

variable {α : Type} {nameOf : α → String} {name : String} {l : List α} {a : α}

end

/-! ## Signatures -/

namespace Codec

/-- The source that a fault is about. -/
def Fault.source : Fault → CodecSource
  | .decoderSignature | .encoderSignature => .declared
  | .noDecoder _ | .noEncoder => .derived

/-- Where one direction comes from, at fault or not. -/
def sourceOf : Except Fault CodecSource → CodecSource
  | .ok source => source
  | .error f => f.source

section

variable {r : RecordType} (site : Option Site)

end

section

variable {r : RecordType}

end

theorem value_resolve (r : RecordType) (site : Option Site) : (resolve r site).value =
    match problems r site with
      | [] => .ok ⟨r.name, sourceOf (decoderOf r site), sourceOf (encoderOf r)⟩
      | d :: _ => .error (.diagnostic d) := by
  unfold resolve problems
  cases decoderOf r site with
  | error f => rfl
  | ok decoder => cases encoderOf r <;> rfl

end Codec

end CollectionSchema
