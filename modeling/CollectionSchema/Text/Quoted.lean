import CollectionSchema.Text.Printable

/-!
# Quoted texts

Messages show a text from outside between quotes. The quote is `'`, or `"` for a text that holds
`'` and no `"`. Inside, a backslash and the quote itself follow a backslash, newline, carriage
return and tab are `\\n`, `\\r` and `\\t`, and any other character that is not printable is written
by its code point in hexadecimal, with two, four or eight digits.
-/

namespace CollectionSchema.Text

/-- A number in small hexadecimal digits, with zeros in front up to `width`. -/
def hexDigits (width n : Nat) : List Char :=
  let digits := Nat.toDigits 16 n
  List.replicate (width - digits.length) '0' ++ digits

/-- The quote that a text is written between. -/
def quoteFor (cs : List Char) : Char :=
  if cs.contains '\'' && !cs.contains '"' then '"' else '\''

/-- One character of a text between quotes `q`. -/
def quotedChar (q c : Char) : List Char :=
  if c == q || c == '\\' then ['\\', c]
  else if c == '\n' then ['\\', 'n']
  else if c == '\r' then ['\\', 'r']
  else if c == '\t' then ['\\', 't']
  else if isPrintable c then [c]
  else if c.toNat ≤ 0xFF then '\\' :: 'x' :: hexDigits 2 c.toNat
  else if c.toNat ≤ 0xFFFF then '\\' :: 'u' :: hexDigits 4 c.toNat
  else '\\' :: 'U' :: hexDigits 8 c.toNat

/-- A text between quotes. -/
def quoted (s : String) : String :=
  let cs := s.toList
  let q := quoteFor cs
  .ofList (q :: cs.flatMap (quotedChar q) ++ [q])

end CollectionSchema.Text
