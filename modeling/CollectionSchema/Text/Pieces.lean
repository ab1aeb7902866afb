/-!
# Pieces between separators

`pieces p cs` cuts `cs` at every character that satisfies `p`; the separators are dropped and
empty pieces are kept, so there is always one piece more than there are separators
(`length_pieces`). `joinWith` puts one separator between neighbours and undoes the cut
(`joinWith_pieces`), and the cut undoes it where no part holds the separator (`pieces_joinWith`).
They are `List.splitOnP` and `List.intercalate`, written by recursion on the text and on the parts.
-/

namespace CollectionSchema.Text

/-- The pieces of `cs` between the characters that satisfy `p`. -/
def pieces (p : Char → Bool) : List Char → List (List Char)
  | [] => [[]]
  | c :: cs => if p c then [] :: pieces p cs else (pieces p cs).modifyHead (c :: ·)

/-- The lists in order, with `sep` between neighbours. -/
def joinWith (sep : List Char) : List (List Char) → List Char
  | [] => []
  | [p] => p
  | p :: q :: r => p ++ sep ++ joinWith sep (q :: r)

theorem pieces_eq_splitOnP (p : Char → Bool) (cs : List Char) : pieces p cs = cs.splitOnP p := by
  induction cs with
  | nil => rw [pieces, List.splitOnP_nil]
  | cons c cs ih => rw [pieces, List.splitOnP_cons_eq_if_modifyHead, ih]

theorem pieces_eq_splitOn (s : Char) (cs : List Char) : pieces (· == s) cs = cs.splitOn s :=
  pieces_eq_splitOnP _ cs

theorem joinWith_eq_intercalate (sep : List Char) (parts : List (List Char)) :
    joinWith sep parts = sep.intercalate parts := by
  induction parts with
  | nil => rfl
  | cons p parts ih =>
    cases parts with
    | nil => simp [joinWith]
    | cons q parts => rw [joinWith, ih, List.intercalate_cons_cons]

theorem pieces_ne_nil (p : Char → Bool) (cs : List Char) : pieces p cs ≠ [] := by
  rw [pieces_eq_splitOnP]
  exact List.splitOnP_ne_nil p cs

theorem length_pieces (p : Char → Bool) (cs : List Char) :
    (pieces p cs).length = cs.countP p + 1 := by
  induction cs with
  | nil => rfl
  | cons c cs ih =>
    rw [pieces]
    split
    · next h => simp [ih, List.countP_cons_of_pos h]
    · next h => simp [ih, List.countP_cons_of_neg h]

/-- No piece holds a separator. -/
theorem not_mem_of_mem_pieces {p : Char → Bool} {cs q : List Char} (h : q ∈ pieces p cs) :
    ∀ c ∈ q, p c = false := by
  induction cs generalizing q with
  | nil => simp only [pieces, List.mem_singleton] at h; simp [h]
  | cons c cs ih =>
    rw [pieces] at h
    split at h
    · rcases List.mem_cons.1 h with rfl | h
      · simp
      · exact ih h
    · next hc =>
      cases hp : pieces p cs with
      | nil => exact absurd hp (pieces_ne_nil p cs)
      | cons a r =>
        rw [hp, List.modifyHead_cons] at h
        rcases List.mem_cons.1 h with rfl | h
        · intro d hd
          rcases List.mem_cons.1 hd with rfl | hd
          · simpa using hc
          · exact ih (q := a) (by simp [hp]) d hd
        · exact ih (by simp [hp, h])

/-- Joining with the separator that was cut at gives the text back. -/
theorem joinWith_pieces (s : Char) (cs : List Char) :
    joinWith [s] (pieces (· == s) cs) = cs := by
  rw [pieces_eq_splitOn, joinWith_eq_intercalate, List.intercalate_splitOn]

/-- Cutting undoes joining if no part holds the separator. -/
theorem pieces_joinWith {s : Char} {parts : List (List Char)} (hne : parts ≠ [])
    (h : ∀ p ∈ parts, s ∉ p) : pieces (· == s) (joinWith [s] parts) = parts := by
  rw [pieces_eq_splitOn, joinWith_eq_intercalate, List.splitOn_intercalate s h hne]

theorem pieces_of_not_mem {s : Char} {p : List Char} (h : s ∉ p) : pieces (· == s) p = [p] := by
  rw [pieces_eq_splitOn, List.splitOn_eq_singleton h]

theorem pieces_append_cons {s : Char} {p : List Char} (cs : List Char) (h : s ∉ p) :
    pieces (· == s) (p ++ s :: cs) = p :: pieces (· == s) cs := by
  rw [pieces_eq_splitOn, pieces_eq_splitOn, List.splitOn_append_cons_self_of_not_mem h]

theorem pieces_append_separator {p : Char → Bool} {c : Char} (hc : p c = true)
    (before after : List Char) :
    pieces p (before ++ c :: after) = pieces p before ++ pieces p after := by
  rw [pieces_eq_splitOnP, pieces_eq_splitOnP, pieces_eq_splitOnP,
    List.splitOnP_append_cons before after hc]

end CollectionSchema.Text
