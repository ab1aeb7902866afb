/-!
# Input values

Declarations reach the compiler as untyped values: what a JSON text denotes. A number written with a
fraction or an exponent is a `float`, kept exactly as `mantissa · 2 ^ exponent`; any other number is
an `int`. Infinite numbers, and what is not a number, are `nonFinite`. The fields of an object keep
their order, which no reader looks at.
-/

namespace CollectionSchema.Input

inductive Value where
  | null
  | bool (b : Bool)
  | int (n : Int)
  /-- The number `mantissa · 2 ^ exponent`. -/
  | float (mantissa exponent : Int)
  /-- A floating-point value that is infinite or not a number. -/
  | nonFinite
  | text (s : String)
  | list (items : List Value)
  | object (fields : List (String × Value))
deriving Repr, Inhabited, BEq

/-- The integer that a floating-point number equals, if it has no fraction. -/
def floatInteger? (mantissa exponent : Int) : Option Int :=
  let power : Int := Nat.pow 2 exponent.natAbs
  if 0 ≤ exponent then some (mantissa * power)
  else if mantissa % power = 0 then some (mantissa / power)
  else none

end CollectionSchema.Input
