import CollectionSchema.Proofs.Text.Words
import Mathlib

/-!
# Words without loss

Words never reach over a separator, so a text with separators between two parts has the words of the
first part and then those of the second (`wordsOf_append`). In a text of letters, digits and
separators no letter or digit is lost: a run of capitals is always followed by the end of its
piece, a digit or a small letter, so that it makes words, and the words of a piece in a row are the
piece (`flatten_partWords`). Camel case changes nothing but the case of letters
(`map_toLower_camelJoin`).
-/

namespace CollectionSchema.Text

/-! ## Texts with separators between them -/

theorem wordsOf_append_separator {c : Char} (hc : isSeparator c = true)
    (before after : List Char) :
    wordsOf (before ++ c :: after) = wordsOf before ++ wordsOf after := by
  rw [wordsOf, pieces_append_separator hc, List.flatMap_append, wordsOf, wordsOf]

theorem wordsOf_nil : wordsOf [] = [] := by
  rw [wordsOf, pieces, List.flatMap_singleton, partWords]

theorem wordsOf_separators_append {separators : List Char}
    (h : ∀ c ∈ separators, isSeparator c = true) (after : List Char) :
    wordsOf (separators ++ after) = wordsOf after := by
  induction separators with
  | nil => rw [List.nil_append]
  | cons c separators ih =>
    rw [List.forall_mem_cons] at h
    have hfirst := wordsOf_append_separator h.1 [] (separators ++ after)
    rw [List.nil_append, wordsOf_nil, List.nil_append] at hfirst
    rw [List.cons_append, hfirst, ih h.2]

theorem wordsOf_append {separators : List Char} (hne : separators ≠ [])
    (h : ∀ c ∈ separators, isSeparator c = true) (before after : List Char) :
    wordsOf (before ++ separators ++ after) = wordsOf before ++ wordsOf after := by
  obtain ⟨c, separators, rfl⟩ := List.exists_cons_of_ne_nil hne
  rw [List.forall_mem_cons] at h
  rw [List.append_assoc, List.cons_append, wordsOf_append_separator h.1,
    wordsOf_separators_append h.2]

/-! ## Letters and digits -/

/-- Where letters and digits follow, a run of capitals ends before a small letter or a digit, or at
the end. -/
theorem closesCapitals_dropWhile {cs : List Char} (h : ∀ c ∈ cs, c.isAlphanum = true) :
    closesCapitals (cs.dropWhile Char.isUpper) = true := by
  cases hrest : cs.dropWhile Char.isUpper with
  | nil => rfl
  | cons c rest =>
    have hmem : c ∈ cs.dropWhile Char.isUpper := hrest ▸ List.mem_cons_self
    have hclass : (c.isUpper || c.isLower || c.isDigit) = true := h c (List.dropWhile_subset _ hmem)
    have hupper : c.isUpper = false := by
      have hhead := List.head?_dropWhile_not Char.isUpper cs
      rw [hrest] at hhead
      simpa using hhead
    rw [hupper, Bool.false_or] at hclass
    exact hclass

theorem flatten_capitalWords {capitals : List Char} (hne : capitals ≠ []) (small : List Char) :
    (capitalWords capitals small).flatten = capitals ++ small := by
  cases small with
  | nil => rw [capitalWords, List.flatten_singleton, List.append_nil]
  | cons c small =>
    obtain ⟨first, last, rfl⟩ : ∃ first last, capitals = first ++ [last] :=
      ⟨_, _, (List.dropLast_append_getLast hne).symm⟩
    rw [capitalWords, List.dropLast_concat, List.getLast?_concat, Option.toList_some]
    by_cases hfirst : first = []
    · simp [hfirst]
    · simp [hfirst]

theorem flatten_partWords {cs : List Char} (h : ∀ c ∈ cs, c.isAlphanum = true) :
    (partWords cs).flatten = cs := by
  fun_induction partWords cs with
  | case1 => rfl
  | case2 c cs hdigit ih =>
    rw [List.forall_mem_cons] at h
    rw [List.flatten_cons, ih fun d hd => h.2 d (List.dropWhile_subset _ hd), List.cons_append,
      List.takeWhile_append_dropWhile]
  | case3 c cs _ hlower ih =>
    rw [List.forall_mem_cons] at h
    rw [List.flatten_cons, ih fun d hd => h.2 d (List.dropWhile_subset _ hd), List.cons_append,
      List.takeWhile_append_dropWhile]
  | case4 c cs _ _ hupper capitals rest hcloses ih =>
    rw [List.forall_mem_cons] at h
    have hrest : ∀ d ∈ rest.dropWhile Char.isLower, d.isAlphanum = true :=
      fun d hd => h.2 d (List.dropWhile_subset _ (List.dropWhile_subset _ hd))
    rw [List.flatten_append, flatten_capitalWords (List.cons_ne_nil c _), ih hrest,
      List.append_assoc, List.takeWhile_append_dropWhile, List.cons_append,
      List.takeWhile_append_dropWhile]
  | case5 c cs _ _ hupper rest hcloses ih =>
    rw [List.forall_mem_cons] at h
    exact absurd (closesCapitals_dropWhile h.2) hcloses
  | case6 c cs hdigit hlower hupper ih =>
    have hclass : (c.isUpper || c.isLower || c.isDigit) = true := h c List.mem_cons_self
    simp [hdigit, hlower, hupper] at hclass

theorem flatten_pieces (p : Char → Bool) (cs : List Char) :
    (pieces p cs).flatten = cs.filter (!p ·) := by
  induction cs with
  | nil => rfl
  | cons c cs ih =>
    rw [pieces]
    by_cases hc : p c = true
    · rw [if_pos hc, List.flatten_cons, List.nil_append, ih, List.filter_cons_of_neg (by simp [hc])]
    · obtain ⟨first, rest, hfirst⟩ := List.exists_cons_of_ne_nil (pieces_ne_nil p cs)
      rw [hfirst] at ih
      rw [if_neg hc, hfirst, List.modifyHead_cons, List.flatten_cons, List.cons_append,
        ← List.flatten_cons, ih, List.filter_cons_of_pos (by simp [hc])]

theorem flatten_wordsOf {cs : List Char}
    (h : ∀ c ∈ cs, c.isAlphanum = true ∨ isSeparator c = true) :
    (wordsOf cs).flatten = cs.filter (!isSeparator ·) := by
  have hpiece : ∀ piece ∈ pieces isSeparator cs, (partWords piece).flatten = piece := by
    intro piece hpiece
    apply flatten_partWords
    intro c hc
    have hmem : c ∈ cs := by
      have hflat := List.mem_flatten_of_mem hpiece hc
      rw [flatten_pieces] at hflat
      exact List.mem_of_mem_filter hflat
    rcases h c hmem with halphanum | hseparator
    · exact halphanum
    · rw [not_mem_of_mem_pieces hpiece c hc] at hseparator
      cases hseparator
  rw [← flatten_pieces, wordsOf, List.flatMap, List.flatten_flatten, List.map_map]
  exact congrArg List.flatten ((List.map_congr_left hpiece).trans (List.map_id' _))

/-! ## The case of letters -/

theorem map_toLower_titled (w : List Char) :
    (titled w).map Char.toLower = w.map Char.toLower := by
  cases w with
  | nil => rfl
  | cons c w =>
    rw [titled, List.map_cons, List.map_map, List.map_cons, Char.toLower_toUpper_eq_toLower]
    exact congrArg _ (List.map_congr_left fun d _ => d.toLower_toLower_eq_toLower)

theorem map_toLower_camelJoin (ws : List (List Char)) :
    (camelJoin ws).map Char.toLower = ws.flatten.map Char.toLower := by
  cases ws with
  | nil => rfl
  | cons w ws =>
    rw [camelJoin, List.map_append, List.map_map, List.map_flatMap, List.flatten_cons,
      List.map_append, List.map_flatten, ← List.flatMap_def]
    congr 1
    · exact List.map_congr_left fun d _ => d.toLower_toLower_eq_toLower
    · exact List.flatMap_congr fun v _ => map_toLower_titled v

/-! ## Texts -/

theorem toList_join_words (s : String) :
    (String.join (words s)).toList = (wordsOf s.toList).flatten := by
  rw [String.toList_join, words, List.flatMap_map, List.flatten_eq_flatMap]
  exact List.flatMap_congr fun w _ => String.toList_ofList

theorem words_append {separators : String} (hne : separators ≠ "")
    (h : ∀ c ∈ separators.toList, isSeparator c = true) (before after : String) :
    words (before ++ separators ++ after) = words before ++ words after := by
  have hchars : separators.toList ≠ [] := mt String.toList_eq_nil_iff.1 hne
  rw [words, String.toList_append, String.toList_append, wordsOf_append hchars h, List.map_append,
    words, words]

/-- Nothing of a text is lost in its words but the separators. -/
structure Lossless (s : String) : Prop where
  joined : String.join (words s) = String.ofList (s.toList.filter (!isSeparator ·))
  isWord : ∀ w ∈ words s, IsWord w.toList
  camelCase : (camelCase s).toLower = (String.join (words s)).toLower

theorem toLower_camelCase (s : String) :
    (camelCase s).toLower = (String.join (words s)).toLower := by
  rw [← String.toList_inj, String.toLower, String.toList_map, String.toLower, String.toList_map,
    toList_join_words, Text.camelCase, String.toList_ofList, map_toLower_camelJoin]

theorem lossless {s : String} (h : ∀ c ∈ s.toList, c.isAlphanum = true ∨ isSeparator c = true) :
    Lossless s := by
  refine ⟨?_, fun w hw => ?_, toLower_camelCase s⟩
  · rw [← String.toList_inj, toList_join_words, flatten_wordsOf h, String.toList_ofList]
  · obtain ⟨cs, hcs, rfl⟩ := List.mem_map.1 hw
    rw [String.toList_ofList]
    exact isWord_of_mem_wordsOf hcs

/-- Separators between two texts keep their words apart, whatever the texts are. A text of ASCII
letters, digits and separators is the row of its words but for the separators, each of which is made
of digits, of capitals, or of small letters with at most one capital in front, and its camel case is
this row but for the case of letters. -/
theorem words_apart_and_lossless :
    (∀ before separators after : String, separators ≠ "" →
      (∀ c ∈ separators.toList, isSeparator c = true) →
        words (before ++ separators ++ after) = words before ++ words after) ∧
    ∀ s : String, (∀ c ∈ s.toList, c.isAlphanum = true ∨ isSeparator c = true) → Lossless s :=
  ⟨fun before _ after hne h => words_append hne h before after, fun _ h => lossless h⟩

theorem words_apart_requestLog :
    words ("HTTPRequests" ++ "_-" ++ "log2") = words "HTTPRequests" ++ words "log2" ∧
      Lossless "HTTPRequests_-log2" :=
  ⟨words_apart_and_lossless.1 "HTTPRequests" "_-" "log2" (by decide) (by simp [isSeparator]),
    words_apart_and_lossless.2 "HTTPRequests_-log2" (by simp [isSeparator])⟩

end CollectionSchema.Text
