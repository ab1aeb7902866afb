import CollectionSchema.Text.Blank
import Mathlib.Data.List.DropRight

/-!
# Trimmed texts

A text is trimmed if neither its first nor its last character is one of those that `trimBy` removes.
What `trimBy` leaves is trimmed (`trimmedBy_trimBy`), and it does not depend on what stood around it
(`trimBy_between`), so that a trimmed text is found again between blanks.
-/

namespace CollectionSchema.Text

/-- No member at either end satisfies `p`. -/
structure TrimmedBy (p : Char → Bool) (cs : List Char) : Prop where
  head : ∀ c ∈ cs.head?, p c = false
  last : ∀ c ∈ cs.getLast?, p c = false

section

variable {p : Char → Bool} {before cs after : List Char}

theorem dropRight_eq_rdropWhile (p : Char → Bool) (cs : List Char) :
    dropRight p cs = cs.rdropWhile p :=
  rfl

theorem trimBy_eq_nil : trimBy p cs = [] ↔ ∀ c ∈ cs, p c = true := by
  constructor
  · intro h c hc
    rw [trimBy, dropRight_eq_rdropWhile, List.rdropWhile_eq_nil_iff] at h
    rw [← List.takeWhile_append_dropWhile (p := p) (l := cs), List.mem_append] at hc
    exact hc.elim List.mem_takeWhile_imp (h c)
  · intro h
    rw [trimBy, List.dropWhile_eq_nil_iff.2 h, dropRight_nil]

theorem trimBy_between (hbefore : ∀ c ∈ before, p c = true) (hafter : ∀ c ∈ after, p c = true) :
    trimBy p (before ++ cs ++ after) = trimBy p cs := by
  rw [trimBy, List.append_assoc, List.dropWhile_append_of_pos hbefore, List.dropWhile_append]
  split
  · next hnil =>
    rw [List.dropWhile_eq_nil_iff.2 hafter, trimBy, List.isEmpty_iff.1 hnil]
  · rw [dropRight_append hafter, trimBy]

theorem TrimmedBy.trimBy_eq (h : TrimmedBy p cs) : trimBy p cs = cs := by
  have hfront : cs.dropWhile p = cs := by
    cases cs with
    | nil => rfl
    | cons c cs => exact List.dropWhile_cons_of_neg (by simp [h.head c rfl])
  rw [trimBy, hfront, dropRight_eq_rdropWhile, List.rdropWhile_eq_self_iff]
  intro hne
  simp [h.last _ (List.getLast?_eq_some_getLast hne)]

theorem eq_false_of_mem_head?_dropWhile {c : Char} (h : c ∈ (cs.dropWhile p).head?) :
    p c = false := by
  have hnot := List.head?_dropWhile_not p cs
  rw [Option.mem_def.1 h] at hnot
  exact hnot

theorem trimmedBy_trimBy (p : Char → Bool) (cs : List Char) : TrimmedBy p (trimBy p cs) := by
  constructor
  case head =>
    -- A text that is cut off at its end begins as before.
    intro c hc
    obtain ⟨rest, hrest⟩ := List.rdropWhile_prefix p (cs.dropWhile p)
    apply @eq_false_of_mem_head?_dropWhile p cs
    rw [← hrest, List.head?_append, ← dropRight_eq_rdropWhile, ← trimBy, Option.mem_def.1 hc]
    rfl
  case last =>
    intro c hc
    rw [trimBy, dropRight, List.getLast?_reverse] at hc
    exact eq_false_of_mem_head?_dropWhile hc

/-- A text is what trimming leaves of it, between members that satisfy `p`. -/
theorem exists_between (p : Char → Bool) (cs : List Char) : ∃ before after,
    cs = before ++ trimBy p cs ++ after ∧ (∀ c ∈ before, p c = true) ∧
      ∀ c ∈ after, p c = true := by
  refine ⟨cs.takeWhile p, (cs.dropWhile p).rtakeWhile p, ?_, fun c => List.mem_takeWhile_imp,
    fun c => List.mem_rtakeWhile_imp⟩
  rw [trimBy, dropRight_eq_rdropWhile, List.append_assoc, List.rdropWhile_append_rtakeWhile,
    List.takeWhile_append_dropWhile]

end

/-! ## Blanks -/

/-- A text of blanks, or without characters. -/
def Blank (s : String) : Prop :=
  ∀ c ∈ s.toList, isBlank c = true

/-- A text with no blank at either end. -/
def Trimmed (s : String) : Prop :=
  TrimmedBy isBlank s.toList

theorem trimmed_iff {s : String} : Trimmed s ↔
    s.toList.head?.any isBlank = false ∧ s.toList.getLast?.any isBlank = false := by
  rw [Option.any_eq_false, Option.any_eq_false]
  exact ⟨fun h => ⟨h.head, h.last⟩, fun h => ⟨h.1, h.2⟩⟩

instance (s : String) : Decidable (Blank s) :=
  decidable_of_iff (s.toList.all isBlank = true) List.all_eq_true

instance (s : String) : Decidable (Trimmed s) :=
  decidable_of_iff _ trimmed_iff.symm

end CollectionSchema.Text
