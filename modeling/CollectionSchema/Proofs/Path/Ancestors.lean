import CollectionSchema.Proofs.Path.Grammar
import CollectionSchema.Proofs.Path.Owner

/-!
# Ancestors of a path

The parent of a path is a text, cut off in front of the last `/*/` of the path's text. For an
accepted path it is what the segments say (`Path.Ascends`): the segments in front of the last
wildcard, which make an accepted path again, with one wildcard less. So the steps upwards from an
accepted path end, after as many steps as it has wildcards (`Path.ascends_of_validate`).
-/

namespace CollectionSchema

namespace Path

/-- The text some steps above a path, where each step cuts at the last `/*/`. -/
def ancestor? : Nat → String → Option String
  | 0, raw => some raw
  | n + 1, raw => (parentPathOf? raw).bind (ancestor? n)

/-- The parent of a path is the one that its segments say. -/
structure Ascends (p : Path) : Prop where
  parent?_eq_none_iff : p.parent? = none ↔ ∀ s ∈ p.segments, s.kind ≠ .wildcard
  isNested_eq_false_iff : p.isNested = false ↔ ∀ s ∈ p.segments, s.kind ≠ .wildcard
  /-- The parent of a nested path has the segments in front of the last wildcard. -/
  exists_owner : p.isNested = true → ∃ owner w rest,
    p.segments = owner.segments ++ w :: rest ∧ w.kind = .wildcard ∧
      (∀ s ∈ rest, s.kind ≠ .wildcard) ∧
      p.parent? = some ("/".intercalate (owner.segments.map (·.value))) ∧
      validate ("/".intercalate (owner.segments.map (·.value))) = .ok owner ∧
      p.depth = owner.depth + 1
  /-- The steps upwards are counted by the wildcards. -/
  ancestor?_eq_none_iff : ∀ n, ancestor? n p.raw = none ↔ p.depth < n

theorem WellFormed.exists_owner {p : Path} (h : p.WellFormed) (hnested : p.isNested = true) :
    ∃ owner rest, p.parent? = some owner.raw ∧ p.OwnedBy owner rest := by
  rw [← h.parent?_isSome] at hnested
  obtain ⟨parentPath, hparent⟩ := Option.isSome_iff_exists.1 hnested
  obtain ⟨owner, rest, rfl, howned⟩ := h.ownedBy hparent
  exact ⟨owner, rest, hparent, howned⟩

theorem WellFormed.ancestor?_eq_none_iff {p : Path} (h : p.WellFormed) (n : Nat) :
    ancestor? n p.raw = none ↔ p.depth < n := by
  induction n generalizing p with
  | zero => simp [ancestor?]
  | succ n ih =>
    change (p.parent?.bind (ancestor? n)) = none ↔ _
    cases hnested : p.isNested with
    | false =>
      rw [h.parent?_eq_none.2 hnested, depth_eq_zero.2 hnested]
      simp
    | true =>
      -- The owner is well-formed again and lies one wildcard higher.
      obtain ⟨owner, rest, hparent, howned⟩ := h.exists_owner hnested
      rw [hparent, Option.bind_some, ih howned.wellFormed, howned.depth, Nat.add_lt_add_iff_right]

/-- The parent of an accepted path is the one that its segments say. -/
theorem ascends_of_validate {raw : String} {p : Path} (h : validate raw = .ok p) : p.Ascends := by
  obtain ⟨rfl, hp⟩ := validate_eq_ok.1 h
  constructor
  case parent?_eq_none_iff => rw [hp.parent?_eq_none, isNested_eq_false]
  case isNested_eq_false_iff => exact isNested_eq_false
  case exists_owner =>
    intro hnested
    obtain ⟨owner, rest, hparent, howned⟩ := hp.exists_owner hnested
    refine ⟨owner, ⟨"*", .wildcard⟩, rest, howned.segments_eq, rfl, howned.rest_literal, ?_, ?_,
      howned.depth⟩ <;> rw [← howned.wellFormed.spells.raw_eq]
    · exact hparent
    · exact validate_eq_ok.2 ⟨rfl, howned.wellFormed⟩
  case ancestor?_eq_none_iff => exact hp.ancestor?_eq_none_iff

theorem ascends_fixedDocument : ∃ p, validate "a/*/b*/c/**/*/d" = .ok p ∧ p.Ascends := by
  have h : validate "a/*/b*/c/**/*/d" = .ok ⟨"a/*/b*/c/**/*/d",
    [⟨"a", .literal⟩, ⟨"*", .wildcard⟩, ⟨"b*", .literal⟩, ⟨"c", .literal⟩, ⟨"**", .literal⟩,
      ⟨"*", .wildcard⟩, ⟨"d", .literal⟩]⟩ := by decide +kernel
  exact ⟨_, h, ascends_of_validate h⟩

end Path

end CollectionSchema
