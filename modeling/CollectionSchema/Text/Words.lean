import CollectionSchema.Text.Blank
import CollectionSchema.Text.Pieces

/-!
# Words of an identifier

An identifier is cut into words at separators, at a step from a small to a capital letter, before
the last capital of a run of capitals that small letters follow, and around digits. Letters and
digits are the ASCII ones. Any other character ends a word and belongs to none; a run of capitals
in front of such a character is no word either.

`words` gives the words, `camelCase` joins them again with a capital at each word but the first,
and `capitalized` turns the first letter of a name into a capital.
-/

namespace CollectionSchema.Text

/-- Words are separated by blanks and by `_`, `-`, `.` and `/`. -/
def isSeparator (c : Char) : Bool :=
  isBlank c || c == '_' || c == '-' || c == '.' || c == '/'

theorem length_dropWhile_le (p : Char → Bool) (cs : List Char) :
    (cs.dropWhile p).length ≤ cs.length :=
  (List.dropWhile_sublist p).length_le

/-- The words of a run of capitals and of the small letters behind it: with small letters behind,
the last capital begins a word of its own. -/
def capitalWords (capitals small : List Char) : List (List Char) :=
  match small with
  | [] => [capitals]
  | _ :: _ =>
    let last := capitals.getLast?.toList ++ small
    if capitals.dropLast.isEmpty then [last] else [capitals.dropLast, last]

/-- Whether a run of capitals in front of `rest` makes words: `rest` is empty or begins with a
small letter or a digit. -/
def closesCapitals : List Char → Bool
  | [] => true
  | c :: _ => c.isLower || c.isDigit

/-- The words of a text without separators. -/
def partWords : List Char → List (List Char)
  | [] => []
  | c :: cs =>
    if c.isDigit then (c :: cs.takeWhile Char.isDigit) :: partWords (cs.dropWhile Char.isDigit)
    else if c.isLower then
      (c :: cs.takeWhile Char.isLower) :: partWords (cs.dropWhile Char.isLower)
    else if c.isUpper then
      let capitals := c :: cs.takeWhile Char.isUpper
      let rest := cs.dropWhile Char.isUpper
      if closesCapitals rest then
        capitalWords capitals (rest.takeWhile Char.isLower)
          ++ partWords (rest.dropWhile Char.isLower)
      else partWords rest
    else partWords cs
termination_by cs => cs.length
decreasing_by
  all_goals simp only [List.length_cons]
  · have := length_dropWhile_le Char.isDigit cs
    omega
  · have := length_dropWhile_le Char.isLower cs
    omega
  · have := length_dropWhile_le Char.isUpper cs
    have := length_dropWhile_le Char.isLower (cs.dropWhile Char.isUpper)
    omega
  · have := length_dropWhile_le Char.isUpper cs
    omega
  · omega

def wordsOf (cs : List Char) : List (List Char) :=
  (pieces isSeparator cs).flatMap partWords

def words (s : String) : List String :=
  (wordsOf s.toList).map String.ofList

/-- A word in small letters but for the first, which is a capital. -/
def titled : List Char → List Char
  | [] => []
  | c :: cs => c.toUpper :: cs.map Char.toLower

/-- The words in a row, the first in small letters and the others `titled`. -/
def camelJoin : List (List Char) → List Char
  | [] => []
  | w :: ws => w.map Char.toLower ++ ws.flatMap titled

/-- The words of an identifier in one word: `movie_comments` becomes `movieComments`. -/
def camelCase (s : String) : String :=
  .ofList (camelJoin (wordsOf s.toList))

/-- The first ASCII letter becomes a capital; all else stays. -/
def capitalizedChars : List Char → List Char
  | [] => []
  | c :: cs => if c.isAlpha then c.toUpper :: cs else c :: capitalizedChars cs

/-- A name with its first ASCII letter as a capital, whatever stands in front of that letter. -/
def capitalized (s : String) : String :=
  .ofList (capitalizedChars s.toList)

end CollectionSchema.Text
