import CollectionSchema.Text.Blank
import CollectionSchema.Text.Pieces

/-!
# Integers written as text

A plain number is an optional minus and decimal digits without zeros in front, not more than a
given number of characters (`readPlain`). A text that is no plain number is read without what adds
nothing to the number (`plainDigits?`): white space at the ends, a plus sign, zeros in front, a
point with nothing but zeros behind it, and single underscores inside. Zeros in front may have
underscores among them, and a minus may follow them. Only a text that is too long as it stands is
reported as such.
-/

namespace CollectionSchema.Text

/-- Why a text is read as no integer. -/
inductive IntegerFault where
  | malformed
  | tooLong
deriving Repr, DecidableEq

/-- Whether a number goes on with a character after the zeros in front of it: with a digit other
than zero, or with a minus. -/
def endsZeros (c : Char) : Bool :=
  ('1' ≤ c && c ≤ '9') || c == '-'

/-- What is left of a number behind zeros and underscores, of which `last` was the last. Where no
digits follow, `last` itself is the number. -/
def skipZeros? (last : Char) : List Char → Option (List Char)
  | [] => some [last]
  | c :: cs =>
    if c == '0' || c == '_' then skipZeros? c cs
    else if endsZeros c then some (c :: cs)
    else if c == '.' then some (last :: c :: cs)
    else none

/-- A number without the zeros in front of it. -/
def stripZeros? : List Char → Option (List Char)
  | [] => none
  | c :: cs =>
    if c == '0' then skipZeros? c cs else if endsZeros c then some (c :: cs) else none

/-- A number without its point, if one or more zeros and nothing else follow the point. -/
def dropFraction (cs : List Char) : List Char :=
  let zeros := (cs.dropWhile (· != '.')).drop 1
  if !zeros.isEmpty && zeros.all (· == '0') then cs.takeWhile (· != '.') else cs

/-- A number without its underscores, if there is something on both sides of each of them. -/
def dropUnderscores (cs : List Char) : List Char :=
  let groups := pieces (· == '_') cs
  if groups.all (!·.isEmpty) then groups.flatten else cs

/-- A number behind its sign without what adds nothing to it. -/
def plainUnsigned? (cs : List Char) : Option (List Char) :=
  (stripZeros? cs).map fun number => dropUnderscores (dropFraction number)

/-- A number without what adds nothing to it. -/
def plainDigits? (s : String) : Option (List Char) :=
  match trimBy isSpace s.toList with
  | '-' :: cs => (plainUnsigned? cs).map ('-' :: ·)
  | '+' :: '-' :: _ => none
  | '+' :: cs => plainUnsigned? cs
  | cs => plainUnsigned? cs

def digitsValue (digits : List Char) : Nat :=
  digits.foldl (fun n c => 10 * n + (c.toNat - '0'.toNat)) 0

/-- Reads digits without zeros in front, with a minus in front if `negative` holds; the minus and
the digits are at most `limit` characters. -/
def readDigits (limit : Nat) (negative : Bool) (cs : List Char) : Except IntegerFault Int :=
  let digits := cs.takeWhile Char.isDigit
  if digits.head? == some '0' then
    if cs.length = 1 then .ok 0 else .error .malformed
  else if limit < digits.length + negative.toNat then .error .tooLong
  else if digits.isEmpty || digits.length < cs.length then .error .malformed
  else .ok (if negative then -(digitsValue digits : Int) else digitsValue digits)

/-- Reads an optional minus and digits without zeros in front. -/
def readPlain (limit : Nat) : List Char → Except IntegerFault Int
  | '-' :: cs => readDigits limit true cs
  | cs => readDigits limit false cs

/-- The integer that a text stands for without what adds nothing to it. -/
def readCleaned (limit : Nat) (s : String) : Option Int :=
  (plainDigits? s).bind fun cs => (readPlain limit cs).toOption

/-- The integer that a text stands for, with at most `limit` characters that count. -/
def readInteger (limit : Nat) (s : String) : Except IntegerFault Int :=
  match readPlain limit s.toList with
  | .error .malformed =>
    match readCleaned limit s with
    | some n => .ok n
    | none => .error .malformed
  | outcome => outcome

end CollectionSchema.Text
