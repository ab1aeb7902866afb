/-!
# Declaration sites

Where a declaration was found: a library, a line and a symbol, each of which may be unknown. A site
names the place in messages (`render`).

An integer can be written out only if it has no more than `maxDigits` digits; the text of a longer
one is refused, and with it the message that would name the site. So a `LineNumber` carries the
proof that it can be written out, and every site has a text.
-/

namespace CollectionSchema

/-- The number of digits that an integer with a text has at most. -/
def maxDigits : Nat := 4300

/-- The number of a line. -/
structure LineNumber where
  value : Int
  digits_le : (Nat.toDigits 10 value.natAbs).length ≤ maxDigits
deriving Repr, DecidableEq

/-- The line number with a value, unless the value has too many digits. -/
def LineNumber.ofInt? (n : Int) : Option LineNumber :=
  if h : (Nat.toDigits 10 n.natAbs).length ≤ maxDigits then some ⟨n, h⟩ else none

structure Site where
  symbol : String := ""
  library : String := ""
  line : Option LineNumber := none
deriving Repr, DecidableEq

namespace Site

/-- The site as messages show it: `library:line (symbol)`, without the parts that are unknown. -/
def render (s : Site) : String :=
  let library := if s.library.isEmpty then "<unknown>" else s.library
  let located := match s.line with
    | some n => library ++ ":" ++ toString n.value
    | none => library
  if s.symbol.isEmpty then located else located ++ " (" ++ s.symbol ++ ")"

end Site

end CollectionSchema
