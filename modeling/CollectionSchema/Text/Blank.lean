/-!
# Blank characters

Two sets of blank characters occur in what the compiler reads. White space (`isSpace`) is the
Unicode property `White_Space`. Blank (`isBlank`) is white space or one of the four information
separators U+001C to U+001F; names are split and settings are trimmed at blanks. `trimBy` removes
the characters of a set from both ends of a text.
-/

namespace CollectionSchema.Text

/-- The characters with the Unicode property `White_Space`. -/
def isSpace (c : Char) : Bool :=
  let n := c.toNat
  (9 ≤ n && n ≤ 13) || n == 0x20 || n == 0x85 || n == 0xA0 || n == 0x1680
    || (0x2000 ≤ n && n ≤ 0x200A) || n == 0x2028 || n == 0x2029 || n == 0x202F || n == 0x205F
    || n == 0x3000

/-- White space, or one of the information separators U+001C to U+001F. -/
def isBlank (c : Char) : Bool :=
  isSpace c || (0x1C ≤ c.toNat && c.toNat ≤ 0x1F)

/-- A list without the members at its end that satisfy `p`. -/
def dropRight (p : Char → Bool) (cs : List Char) : List Char :=
  (cs.reverse.dropWhile p).reverse

/-- A list without the members at both ends that satisfy `p`. -/
def trimBy (p : Char → Bool) (cs : List Char) : List Char :=
  dropRight p (cs.dropWhile p)

def trim (s : String) : String :=
  .ofList (trimBy isBlank s.toList)

/-- A text without the newlines at its end. -/
def trimNewlines (s : String) : String :=
  .ofList (dropRight (· == '\n') s.toList)

@[simp]
theorem dropRight_nil (p : Char → Bool) : dropRight p [] = [] := rfl

theorem dropRight_append {p : Char → Bool} {after : List Char} (h : ∀ c ∈ after, p c = true)
    (cs : List Char) : dropRight p (cs ++ after) = dropRight p cs := by
  have hreverse : ∀ c ∈ after.reverse, p c = true := fun c hc => h c (List.mem_reverse.1 hc)
  rw [dropRight, List.reverse_append, List.dropWhile_append_of_pos hreverse, dropRight]

end CollectionSchema.Text
