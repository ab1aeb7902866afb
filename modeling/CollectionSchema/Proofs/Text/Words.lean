import CollectionSchema.Text.Words
import Mathlib.Data.List.Basic
import Mathlib.Data.List.TakeWhile

/-!
# Words and identifiers

Every word is made of digits, of capitals, or of small letters with at most one capital in front
(`IsWord`). So a name that is put together from words consists of letters and digits, and whether it
is an identifier is seen from the first character of its first word (`isIdentifier_camelCase`,
`isIdentifier_titleJoin`).
-/

namespace CollectionSchema.Text

/-! ## Words -/

/-- A word: digits, capitals, or small letters with at most one capital in front. -/
inductive IsWord : List Char → Prop
  | digits {w : List Char} (ne_nil : w ≠ []) (digit : ∀ c ∈ w, c.isDigit) : IsWord w
  | capitals {w : List Char} (ne_nil : w ≠ []) (upper : ∀ c ∈ w, c.isUpper) : IsWord w
  | small {capital : Option Char} {w : List Char} (ne_nil : w ≠ [])
    (upper : ∀ c ∈ capital, c.isUpper) (lower : ∀ c ∈ w, c.isLower) : IsWord (capital.toList ++ w)

theorem IsWord.ne_nil {w : List Char} (h : IsWord w) : w ≠ [] := by
  cases h with
  | digits ne_nil => exact ne_nil
  | capitals ne_nil => exact ne_nil
  | small ne_nil => exact List.append_ne_nil_of_right_ne_nil _ ne_nil

theorem isAlphanum_of_isUpper {c : Char} (h : c.isUpper = true) : c.isAlphanum = true := by
  change (c.isUpper || c.isLower || c.isDigit) = true
  rw [h, Bool.true_or, Bool.true_or]

theorem isAlphanum_of_isLower {c : Char} (h : c.isLower = true) : c.isAlphanum = true := by
  change (c.isUpper || c.isLower || c.isDigit) = true
  rw [h, Bool.or_true, Bool.true_or]

theorem IsWord.isAlphanum {w : List Char} (h : IsWord w) : ∀ c ∈ w, c.isAlphanum := by
  intro c hc
  cases h with
  | digits _ digit => rw [Char.isAlphanum, digit c hc, Bool.or_true]
  | capitals _ upper => exact isAlphanum_of_isUpper (upper c hc)
  | small _ upper lower =>
    rcases List.mem_append.1 hc with hc | hc
    · exact isAlphanum_of_isUpper (upper c (Option.mem_toList.1 hc))
    · exact isAlphanum_of_isLower (lower c hc)

/-- A run of a class of characters begins with a character of the class. -/
theorem mem_run {p : Char → Bool} {c : Char} (hc : p c = true) (cs : List Char) :
    ∀ d ∈ c :: cs.takeWhile p, p d = true := by
  rw [List.forall_mem_cons]
  exact ⟨hc, fun d hd => List.mem_takeWhile_imp hd⟩

theorem isWord_of_mem_capitalWords {capitals small w : List Char} (hne : capitals ≠ [])
    (hupper : ∀ c ∈ capitals, c.isUpper) (hlower : ∀ c ∈ small, c.isLower)
    (h : w ∈ capitalWords capitals small) : IsWord w := by
  cases small with
  | nil =>
    obtain rfl := List.mem_singleton.1 h
    exact .capitals hne hupper
  | cons c cs =>
    have hlast : IsWord (capitals.getLast?.toList ++ c :: cs) := by
      refine .small (List.cons_ne_nil c cs) (fun d hd => ?_) hlower
      exact hupper d (List.mem_of_getLast? hd)
    rw [capitalWords] at h
    split at h
    · obtain rfl := List.mem_singleton.1 h
      exact hlast
    · next hdrop =>
      rcases List.mem_cons.1 h with rfl | h
      · refine .capitals (by simpa using hdrop) fun d hd => ?_
        exact hupper d (List.dropLast_subset capitals hd)
      · obtain rfl := List.mem_singleton.1 h
        exact hlast

theorem isWord_of_mem_partWords {cs w : List Char} (h : w ∈ partWords cs) : IsWord w := by
  fun_induction partWords cs with
  | case1 => cases h
  | case2 c cs hdigit ih =>
    rcases List.mem_cons.1 h with rfl | h
    · exact .digits (List.cons_ne_nil c _) (mem_run hdigit cs)
    · exact ih h
  | case3 c cs _ hlower ih =>
    rcases List.mem_cons.1 h with rfl | h
    · exact @IsWord.small none _ (List.cons_ne_nil c _) (by simp) (mem_run hlower cs)
    · exact ih h
  | case4 c cs _ _ hupper capitals rest hcloses ih =>
    rcases List.mem_append.1 h with h | h
    · exact isWord_of_mem_capitalWords (List.cons_ne_nil c _) (mem_run hupper cs)
        (fun d hd => List.mem_takeWhile_imp hd) h
    · exact ih h
  | case5 c cs _ _ hupper rest hcloses ih => exact ih h
  | case6 c cs _ _ _ ih => exact ih h

theorem isWord_of_mem_wordsOf {cs w : List Char} (h : w ∈ wordsOf cs) : IsWord w := by
  obtain ⟨part, -, hw⟩ := List.mem_flatMap.1 h
  exact isWord_of_mem_partWords hw

/-- The first character of the first word. -/
def initial? (ws : List (List Char)) : Option Char :=
  ws.head?.bind List.head?

theorem initial?_append {vs : List (List Char)} (h : ∀ w ∈ vs, IsWord w) (ws : List (List Char)) :
    initial? (vs ++ ws) = (initial? vs).or (initial? ws) := by
  cases vs with
  | nil => rfl
  | cons w vs =>
    obtain ⟨c, cs, rfl⟩ := List.exists_cons_of_ne_nil (h w List.mem_cons_self).ne_nil
    rfl

/-! ## Capitals and small letters -/

theorem isAlpha_iff (c : Char) : c.isAlpha = true ↔
    65 ≤ c.val.toNat ∧ c.val.toNat ≤ 90 ∨ 97 ≤ c.val.toNat ∧ c.val.toNat ≤ 122 := by
  change (decide (c.val ≥ 65 ∧ c.val ≤ 90) || decide (c.val ≥ 97) && decide (c.val ≤ 122)) =
    true ↔ _
  simp [UInt32.le_iff_toNat_le]

theorem toLower_eq_or (c : Char) : c.toLower = c ∨ c.isAlpha = true ∧ c.toLower.isAlpha = true := by
  unfold Char.toLower
  split
  · next h =>
    right
    simp only [isAlpha_iff, UInt32.le_iff_toNat_le, ge_iff_le, UInt32.toNat_add, Char.reduceVal,
      UInt32.reduceToNat, Char.toNat_val, UInt32.reduceSub, Nat.reducePow] at h ⊢
    omega
  · exact .inl rfl

theorem toUpper_eq_or (c : Char) : c.toUpper = c ∨ c.isAlpha = true ∧ c.toUpper.isAlpha = true := by
  unfold Char.toUpper
  split
  · next h =>
    right
    simp only [isAlpha_iff, UInt32.le_iff_toNat_le, UInt32.toNat_add, Char.reduceVal,
      UInt32.reduceToNat, Char.toNat_val, UInt32.reduceSub, Nat.reducePow] at h ⊢
    omega
  · exact .inl rfl

theorem isAlpha_toLower (c : Char) : c.toLower.isAlpha = c.isAlpha := by
  rcases toLower_eq_or c with h | ⟨hc, hlower⟩
  · rw [h]
  · rw [hc, hlower]

theorem isAlpha_toUpper (c : Char) : c.toUpper.isAlpha = c.isAlpha := by
  rcases toUpper_eq_or c with h | ⟨hc, hupper⟩
  · rw [h]
  · rw [hc, hupper]

theorem isAlphanum_toLower {c : Char} (h : c.isAlphanum = true) : c.toLower.isAlphanum = true := by
  rcases toLower_eq_or c with hsame | ⟨-, hlower⟩
  · rwa [hsame]
  · rw [Char.isAlphanum, hlower, Bool.true_or]

theorem isAlphanum_toUpper {c : Char} (h : c.isAlphanum = true) : c.toUpper.isAlphanum = true := by
  rcases toUpper_eq_or c with hsame | ⟨-, hupper⟩
  · rwa [hsame]
  · rw [Char.isAlphanum, hupper, Bool.true_or]

/-! ## Words in a row -/

theorem isAlphanum_of_mem_titled {w : List Char} (h : ∀ c ∈ w, c.isAlphanum = true) :
    ∀ c ∈ titled w, c.isAlphanum = true := by
  cases w with
  | nil => simp [titled]
  | cons d w =>
    rw [List.forall_mem_cons] at h
    rw [titled, List.forall_mem_cons, List.forall_mem_map]
    exact ⟨isAlphanum_toUpper h.1, fun c hc => isAlphanum_toLower (h.2 c hc)⟩

theorem isAlphanum_of_mem_camelJoin {ws : List (List Char)} (h : ∀ w ∈ ws, IsWord w) :
    ∀ c ∈ camelJoin ws, c.isAlphanum = true := by
  cases ws with
  | nil => simp [camelJoin]
  | cons w ws =>
    rw [List.forall_mem_cons] at h
    rw [camelJoin, List.forall_mem_append, List.forall_mem_map]
    refine ⟨fun c hc => isAlphanum_toLower (h.1.isAlphanum c hc), fun c hc => ?_⟩
    obtain ⟨v, hv, hcv⟩ := List.mem_flatMap.1 hc
    exact isAlphanum_of_mem_titled (h.2 v hv).isAlphanum c hcv

theorem head?_camelJoin {ws : List (List Char)} (h : ∀ w ∈ ws, IsWord w) :
    (camelJoin ws).head? = (initial? ws).map Char.toLower := by
  cases ws with
  | nil => rfl
  | cons w ws =>
    obtain ⟨c, cs, rfl⟩ := List.exists_cons_of_ne_nil (h w List.mem_cons_self).ne_nil
    rfl

/-! ## Identifiers -/

def isNameStart (c : Char) : Bool :=
  c.isAlpha || c == '_'

def isNamePart (c : Char) : Bool :=
  c.isAlphanum || c == '_'

/-- Whether a text is an identifier: ASCII letters, digits and `_`, with no digit in front. -/
def isIdentifier (s : String) : Bool :=
  s.toList.head?.any isNameStart && s.toList.all isNamePart

theorem isIdentifier_iff {s : String} : isIdentifier s = true ↔
    s.toList.head?.any isNameStart = true ∧ ∀ c ∈ s.toList, isNamePart c = true := by
  rw [isIdentifier, Bool.and_eq_true, List.all_eq_true]

theorem ne_empty_of_isIdentifier {s : String} (h : isIdentifier s = true) : s ≠ "" := by
  rintro rfl
  exact absurd h (by decide)

/-- What stands behind the first character does not matter if it may stand in an identifier. -/
theorem isIdentifier_append {s t : String} (hs : s ≠ "")
    (ht : ∀ c ∈ t.toList, isNamePart c = true) : isIdentifier (s ++ t) = isIdentifier s := by
  have hne : s.toList ≠ [] := mt String.toList_eq_nil_iff.1 hs
  have hall : t.toList.all isNamePart = true := List.all_eq_true.2 ht
  rw [isIdentifier, isIdentifier, String.toList_append, List.head?_append_of_ne_nil _ hne,
    List.all_append, hall, Bool.and_true]

theorem isNamePart_of_isAlphanum {c : Char} (h : c.isAlphanum = true) : isNamePart c = true := by
  rw [isNamePart, h, Bool.true_or]

theorem isIdentifier_of_isAlphanum {s : String} (h : ∀ c ∈ s.toList, c.isAlphanum = true) :
    isIdentifier s = true ↔ s.toList.head?.any Char.isAlpha = true := by
  have hparts : ∀ c ∈ s.toList, isNamePart c = true := fun c hc => isNamePart_of_isAlphanum (h c hc)
  rw [isIdentifier_iff, and_iff_left hparts]
  cases hhead : s.toList.head? with
  | none => rfl
  | some c =>
    have hne : c ≠ '_' := by
      rintro rfl
      exact absurd (h _ (List.mem_of_head? hhead)) (by decide)
    simp [isNameStart, hne]

/-! ## Capitals in front -/

theorem forall_mem_capitalizedChars {p : Char → Bool} (hp : ∀ c, p c = true → p c.toUpper = true)
    {cs : List Char} (h : ∀ c ∈ cs, p c = true) : ∀ c ∈ capitalizedChars cs, p c = true := by
  induction cs with
  | nil => simp [capitalizedChars]
  | cons d cs ih =>
    rw [List.forall_mem_cons] at h
    rw [capitalizedChars]
    split
    · rw [List.forall_mem_cons]
      exact ⟨hp d h.1, h.2⟩
    · rw [List.forall_mem_cons]
      exact ⟨h.1, ih h.2⟩

/-- Only a letter at the beginning is changed there, and it stays a letter. -/
theorem head?_capitalizedChars (cs : List Char) : (capitalizedChars cs).head? =
    cs.head?.map fun c => if c.isAlpha then c.toUpper else c := by
  cases cs with
  | nil => rfl
  | cons c cs =>
    rw [capitalizedChars]
    split
    · next h => simp [h]
    · next h => simp [h]

theorem isIdentifier_capitalized {s : String} (h : isIdentifier s = true) :
    isIdentifier (capitalized s) = true := by
  obtain ⟨hstart, hparts⟩ := isIdentifier_iff.1 h
  have hpart : ∀ c, isNamePart c = true → isNamePart c.toUpper = true := by
    intro c hc
    rcases toUpper_eq_or c with hsame | ⟨-, hupper⟩
    · rwa [hsame]
    · exact isNamePart_of_isAlphanum (by rw [Char.isAlphanum, hupper, Bool.true_or])
  rw [isIdentifier_iff, capitalized, String.toList_ofList, head?_capitalizedChars]
  refine ⟨?_, forall_mem_capitalizedChars hpart hparts⟩
  cases hhead : s.toList.head? with
  | none =>
    rw [hhead] at hstart
    cases hstart
  | some c =>
    rw [hhead] at hstart
    rw [Option.map_some, Option.any_some]
    split
    · next hc => rw [isNameStart, isAlpha_toUpper, hc, Bool.true_or]
    · exact hstart

/-! ## Names from words -/

theorem isAlphanum_of_mem_camelCase (s : String) :
    ∀ c ∈ (camelCase s).toList, c.isAlphanum = true := by
  intro c hc
  rw [camelCase, String.toList_ofList] at hc
  exact isAlphanum_of_mem_camelJoin (fun w hw => isWord_of_mem_wordsOf hw) c hc

/-- A name in camel case begins with a letter just when its first word does. -/
theorem map_head?_camelCase (s : String) : (camelCase s).toList.head?.map Char.isAlpha =
    (initial? (wordsOf s.toList)).map Char.isAlpha := by
  rw [camelCase, String.toList_ofList, head?_camelJoin fun w hw => isWord_of_mem_wordsOf hw,
    Option.map_map]
  exact congrArg (Option.map · _) (funext isAlpha_toLower)

theorem isIdentifier_camelCase (s : String) :
    isIdentifier (camelCase s) = true ↔ (initial? (wordsOf s.toList)).any Char.isAlpha = true := by
  have hhead := congrArg (Option.any id) (map_head?_camelCase s)
  rw [Option.any_map, Option.any_map] at hhead
  rw [isIdentifier_of_isAlphanum (isAlphanum_of_mem_camelCase s)]
  exact iff_of_eq (congrArg (· = true) hhead)

/-- Texts in a row, each in camel case with a capital. -/
def titleJoin (ss : List String) : String :=
  String.join (ss.map fun s => capitalized (camelCase s))

/-- The words of texts in a row. -/
def wordsOfAll (ss : List String) : List (List Char) :=
  ss.flatMap fun s => wordsOf s.toList

theorem toList_titleJoin_cons (s : String) (ss : List String) : (titleJoin (s :: ss)).toList =
    (capitalized (camelCase s)).toList ++ (titleJoin ss).toList := by
  rw [titleJoin, titleJoin, String.toList_join, String.toList_join, List.map_cons,
    List.flatMap_cons]

theorem isAlphanum_of_mem_titleJoin (ss : List String) :
    ∀ c ∈ (titleJoin ss).toList, c.isAlphanum = true := by
  induction ss with
  | nil => simp [titleJoin]
  | cons s ss ih =>
    rw [toList_titleJoin_cons, List.forall_mem_append, capitalized, String.toList_ofList]
    exact ⟨forall_mem_capitalizedChars (p := Char.isAlphanum) (fun _ => isAlphanum_toUpper)
      (isAlphanum_of_mem_camelCase s), ih⟩

/-- Names in a row begin with a letter just when the first of all words does. -/
theorem map_head?_titleJoin (ss : List String) : (titleJoin ss).toList.head?.map Char.isAlpha =
    (initial? (wordsOfAll ss)).map Char.isAlpha := by
  induction ss with
  | nil => simp [titleJoin, wordsOfAll, initial?]
  | cons s ss ih =>
    have hcapital : ∀ c : Char, (if c.isAlpha then c.toUpper else c).isAlpha = c.isAlpha := by
      intro c
      split
      · exact isAlpha_toUpper c
      · rfl
    have hfirst : (capitalized (camelCase s)).toList.head?.map Char.isAlpha =
        (initial? (wordsOf s.toList)).map Char.isAlpha := by
      rw [← map_head?_camelCase, capitalized, String.toList_ofList, head?_capitalizedChars,
        Option.map_map]
      exact congrArg (Option.map · _) (funext hcapital)
    have hwords : wordsOfAll (s :: ss) = wordsOf s.toList ++ wordsOfAll ss := List.flatMap_cons
    rw [toList_titleJoin_cons, List.head?_append, Option.map_or, hfirst, ih, hwords,
      initial?_append fun w hw => isWord_of_mem_wordsOf hw, Option.map_or]

theorem titleJoin_eq_empty (ss : List String) :
    titleJoin ss = "" ↔ initial? (wordsOfAll ss) = none := by
  rw [← String.toList_eq_nil_iff, ← List.head?_eq_none_iff, ← Option.map_eq_none_iff,
    map_head?_titleJoin, Option.map_eq_none_iff]

theorem isIdentifier_titleJoin (ss : List String) :
    isIdentifier (titleJoin ss) = true ↔ (initial? (wordsOfAll ss)).any Char.isAlpha = true := by
  have hhead := congrArg (Option.any id) (map_head?_titleJoin ss)
  rw [Option.any_map, Option.any_map] at hhead
  rw [isIdentifier_of_isAlphanum (isAlphanum_of_mem_titleJoin ss)]
  exact iff_of_eq (congrArg (· = true) hhead)

end CollectionSchema.Text
