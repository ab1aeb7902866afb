import Mathlib.Data.List.Nodup
import Mathlib.Logic.Relation

/-!
# Forests in pre-order

A forest is given by what stands directly below each thing. `PreOrdered` is its recursive
traversal: each thing, then everything below it, then the things beside it. `Drains` is the
traversal with a stack, which takes a thing from the top and puts what is below it in its place.
The two visit the same things in the same order (`PreOrdered.drains`). What is below a thing is
visited right behind it, in one block (`PreOrdered.exists_block`). Where each thing has at most one
owner, which lies less deep, the traversal from the things without an owner ends and visits each
thing once (`exists_preOrdered_ownedBy`).
-/

namespace CollectionSchema

variable {α β : Type}

/-- The recursive traversal of a forest: each thing, all that is below it, and then what is beside
it. -/
inductive PreOrdered (below : α → List α) : List α → List α → Prop where
  | nil : PreOrdered below [] []
  | cons {a : α} {forest inside beside : List α} :
      PreOrdered below (below a) inside → PreOrdered below forest beside →
        PreOrdered below (a :: forest) (a :: (inside ++ beside))

/-- The traversal with a stack, its top first, up to the empty stack. -/
inductive Drains (below : α → List α) : List α → List α → Prop where
  | done : Drains below [] []
  | visit {a : α} {stack visited : List α} :
      Drains below (below a ++ stack) visited → Drains below (a :: stack) (a :: visited)

namespace Drains

variable {below : α → List α}

theorem append {upper lower visited rest : List α} (hupper : Drains below upper visited)
    (hlower : Drains below lower rest) : Drains below (upper ++ lower) (visited ++ rest) := by
  induction hupper with
  | done => exact hlower
  | visit _ ih =>
    -- What is put on the stack lies above all of `lower`.
    rw [List.append_assoc] at ih
    exact .visit ih

end Drains

namespace PreOrdered

variable {below : α → List α} {forest visited : List α}

/-- What stands on the stack beside a thing waits until all that is below the thing is visited. -/
theorem drains (h : PreOrdered below forest visited) : Drains below forest visited := by
  induction h with
  | nil => exact .done
  | cons _ _ hinside hbeside => exact .visit (hinside.append hbeside)

/-- A forest has only one traversal. -/
theorem unique {other : List α} (h : PreOrdered below forest visited)
    (hother : PreOrdered below forest other) : visited = other := by
  induction h generalizing other with
  | nil =>
    cases hother
    rfl
  | cons _ _ hinside hbeside =>
    cases hother with
    | cons hinside' hbeside' => rw [hinside hinside', hbeside hbeside']

theorem exists_of_forall (h : ∀ a ∈ forest, ∃ inside, PreOrdered below (below a) inside) :
    ∃ visited, PreOrdered below forest visited := by
  induction forest with
  | nil => exact ⟨[], .nil⟩
  | cons a forest ih =>
    rw [List.forall_mem_cons] at h
    obtain ⟨inside, hinside⟩ := h.1
    obtain ⟨beside, hbeside⟩ := ih h.2
    exact ⟨a :: (inside ++ beside), hinside.cons hbeside⟩

/-- Where a rank decreases from each thing to what is below it, every traversal ends. -/
theorem exists_of_rank (rank : α → Nat) (hrank : ∀ a, ∀ b ∈ below a, rank b < rank a)
    (forest : List α) : ∃ visited, PreOrdered below forest visited := by
  have hinside : ∀ n, ∀ a, rank a = n → ∃ inside, PreOrdered below (below a) inside := by
    intro n
    induction n using Nat.strongRecOn with
    | _ n ih =>
      rintro a rfl
      exact exists_of_forall fun b hb => ih (rank b) (hrank a b hb) b rfl
  exact exists_of_forall fun a _ => hinside (rank a) a rfl

/-- What is visited is the forest and what is below it. -/
theorem mem_iff (h : PreOrdered below forest visited) {b : α} :
    b ∈ visited ↔ ∃ a ∈ forest, Relation.ReflTransGen (fun a b => b ∈ below a) a b := by
  induction h with
  | nil => simp
  | @cons a forest inside beside _ _ hinside hbeside =>
    have hhead : Relation.ReflTransGen (fun a b => b ∈ below a) a b ↔
        b = a ∨ ∃ c ∈ below a, Relation.ReflTransGen (fun a b => b ∈ below a) c b := by
      rw [Relation.ReflTransGen.cases_head_iff, eq_comm]
    rw [List.mem_cons, List.mem_append, hinside, hbeside, List.exists_mem_cons_iff, hhead,
      or_assoc]

/-- All that is below a thing is visited right behind it. -/
theorem exists_block (h : PreOrdered below forest visited) {a : α} (ha : a ∈ visited) :
    ∃ before inside after, visited = before ++ a :: (inside ++ after) ∧
      PreOrdered below (below a) inside := by
  induction h with
  | nil => cases ha
  | @cons c forest inside beside hc _ hinside hbeside =>
    rcases List.mem_cons.1 ha with rfl | ha
    · exact ⟨[], inside, beside, rfl, hc⟩
    · rcases List.mem_append.1 ha with ha | ha
      · obtain ⟨before, block, after, rfl, hblock⟩ := hinside ha
        exact ⟨c :: before, block, after ++ beside, by simp, hblock⟩
      · obtain ⟨before, block, after, rfl, hblock⟩ := hbeside ha
        exact ⟨c :: (inside ++ before), block, after, by simp, hblock⟩

/-- Another view of the same forest has the same traversal. -/
theorem filterMap {other : β → List β} {f : α → Option β}
    (h : PreOrdered below forest visited)
    (hf : ∀ a ∈ visited, ∃ b, f a = some b ∧ other b = (below a).filterMap f) :
    PreOrdered other (forest.filterMap f) (visited.filterMap f) := by
  induction h with
  | nil => exact .nil
  | cons _ _ hinside hbeside =>
    simp only [List.forall_mem_cons, List.forall_mem_append] at hf
    obtain ⟨⟨b, hb, hbelow⟩, hin, hout⟩ := hf
    rw [List.filterMap_cons_some hb, List.filterMap_cons_some hb, List.filterMap_append]
    have := hinside hin
    rw [← hbelow] at this
    exact this.cons (hbeside hout)

/-- A thing is visited once for each time that it stands in the forest or below a visited one. -/
theorem count_eq [BEq α] (h : PreOrdered below forest visited) (b : α) :
    visited.count b = forest.count b + (visited.flatMap below).count b := by
  induction h with
  | nil => rfl
  | cons _ _ hinside hbeside =>
    simp only [List.count_cons, List.count_append, List.flatMap_cons, List.flatMap_append,
      hinside, hbeside]
    omega

end PreOrdered

/-! ## Owners -/

/-- Fewer members lie deeper than what is below a thing than deeper than the thing. -/
theorem countP_deeper_lt {members : List α} {depth : α → Nat} {a b : α} (hb : b ∈ members)
    (h : depth a < depth b) :
    members.countP (depth b < depth ·) < members.countP (depth a < depth ·) := by
  have hfilter : members.filter (depth b < depth ·) =
      (members.filter (depth a < depth ·)).filter (depth b < depth ·) := by
    rw [List.filter_filter]
    refine List.filter_congr fun c _ => ?_
    rw [Bool.eq_iff_iff, Bool.and_eq_true, decide_eq_true_eq, decide_eq_true_eq]
    omega
  rw [List.countP_eq_length_filter, List.countP_eq_length_filter, hfilter,
    List.length_filter_lt_length_iff_exists]
  exact ⟨b, List.mem_filter.2 ⟨hb, by simpa using h⟩, by simp⟩

section Owners

variable [DecidableEq α] (members : List α) (owner? : α → Option α)

/-- The members that are owned by a thing, in order; those that nothing owns if there is none. -/
def ownedBy (a : Option α) : List α :=
  members.filter (owner? · = a)

variable {members owner?}

theorem count_ownedBy (a : Option α) (b : α) :
    (ownedBy members owner? a).count b = if owner? b = a then members.count b else 0 := by
  split
  · next h => exact List.count_filter (by simpa using h)
  · next h =>
    refine List.count_eq_zero_of_not_mem fun hmem => h ?_
    simpa using (List.mem_filter.1 hmem).2

theorem count_flatMap_ownedBy (visited : List α) (b : α) :
    (visited.flatMap fun a => ownedBy members owner? (some a)).count b =
      match owner? b with
      | none => 0
      | some a => visited.count a * members.count b := by
  induction visited with
  | nil => cases owner? b <;> simp
  | cons c visited ih =>
    rw [List.flatMap_cons, List.count_append, ih, count_ownedBy]
    cases howner : owner? b with
    | none => simp
    | some a =>
      by_cases hc : a = c
      · simp [hc, Nat.add_mul, Nat.add_comm]
      · simp [hc, List.count_cons_of_ne (Ne.symm hc)]

/-- If each member has at most one owner, which is a member and lies less deep, then the traversal
from the members that nothing owns ends and visits each member once. -/
theorem exists_preOrdered_ownedBy (hmembers : members.Nodup) (depth : α → Nat)
    (howner : ∀ b ∈ members, ∀ a, owner? b = some a → a ∈ members ∧ depth a < depth b) :
    ∃ visited, visited.Perm members ∧
      PreOrdered (fun a => ownedBy members owner? (some a)) (ownedBy members owner? none)
        visited := by
  have hrank : ∀ a, ∀ b ∈ ownedBy members owner? (some a),
      members.countP (depth b < depth ·) < members.countP (depth a < depth ·) := by
    intro a b hb
    obtain ⟨hmem, hb⟩ := List.mem_filter.1 hb
    exact countP_deeper_lt hmem (howner b hmem a (by simpa using hb)).2
  obtain ⟨visited, h⟩ := PreOrdered.exists_of_rank _ hrank (ownedBy members owner? none)
  refine ⟨visited, ?_, h⟩
  rw [List.perm_iff_count]
  intro b
  -- A member that is owned is visited as often as its owner, which lies less deep.
  induction hn : depth b using Nat.strongRecOn generalizing b with
  | _ n ih =>
    rw [h.count_eq, count_ownedBy, count_flatMap_ownedBy]
    cases hb : owner? b with
    | none => simp
    | some a =>
      by_cases hmem : b ∈ members
      · obtain ⟨ha, hlt⟩ := howner b hmem a hb
        simp [ih (depth a) (hn ▸ hlt) a rfl, List.count_eq_one_of_mem hmembers ha]
      · simp [List.count_eq_zero_of_not_mem hmem]

end Owners

end CollectionSchema
