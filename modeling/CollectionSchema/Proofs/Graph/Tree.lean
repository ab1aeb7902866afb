import CollectionSchema.Proofs.Graph.Sound

/-!
# The tree of a graph

The places of a graph form a tree below the paths without wildcards: parents and children are those
that the paths name, and the number of wildcards in a path is its distance from the root
(`hierarchical_of_builds`).
-/

namespace CollectionSchema

open Survey

namespace Graph

/-- The place some steps above another, where each step goes to the parent. -/
def above? (g : Graph) : Nat → Placement → Option Placement
  | 0, p => some p
  | n + 1, p => (p.parent.bind fun owner => g.get? owner.pathText).bind (g.above? n)

/-- The places of a graph stand where the paths of some declarations put them. -/
structure Hierarchical (g : Graph) (ds : List Declaration) : Prop where
  /-- There is one place for each declaration, in order. -/
  declared : List.Forall₂ (fun d p => d.Yields p.collection ∧ p.pathText = d.path) ds g.placements
  get?_iff : ∀ path p, g.get? path = some p ↔ p ∈ g.placements ∧ p.pathText = path
  contains_iff : ∀ path, g.contains path = true ↔ path ∈ ds.map (·.path)
  root_iff : ∀ p ∈ g.placements, p ∈ g.roots ↔ ∀ s ∈ p.collection.path.segments, s.kind ≠ .wildcard
  parent_eq_none_iff : ∀ p ∈ g.placements,
    p.parent = none ↔ ∀ s ∈ p.collection.path.segments, s.kind ≠ .wildcard
  /-- The parent is the place of the parent path. -/
  parent_eq : ∀ p ∈ g.placements, p.collection.path.isNested = true →
    ∃ path q, p.collection.path.parent? = some path ∧ g.get? path = some q ∧
      p.parent = some q.toNamedCollection
  /-- The children are the places that have this one's path as parent path, in order. -/
  children_eq : ∀ p ∈ g.placements, p.children =
    (g.placements.filter fun c => c.collection.path.parent? = some p.pathText).map
      (·.toNamedCollection)
  children_nodup : ∀ p ∈ g.placements, (p.children.map (·.pathText)).Nodup
  /-- Steps upwards end after as many steps as the path has wildcards. -/
  above?_iff : ∀ p ∈ g.placements, ∀ n,
    (∃ root, g.above? n p = some root ∧ root.parent = none) ↔ n = p.collection.path.depth

end Graph

namespace Sound

variable {ds : List Declaration}

/-! ## Parents -/

theorem parent_placedAmong_eq_none (h : Sound ds) {k : Kept} (hk : k ∈ kept ds) :
    (placedAmong (kept ds) k).parent = none ↔ k.collection.path.isNested = false := by
  rw [← (wellFormed_of_mem_kept hk).parent?_eq_none]
  cases hparent : k.collection.path.parent? with
  | none => simp [placedAmong, hparent]
  | some path =>
    obtain ⟨q, -, hq, -⟩ := h.exists_ownedBy hk hparent
    simp [placedAmong, hparent, hq]

theorem exists_parent (h : Sound ds) {k : Kept} (hk : k ∈ kept ds)
    (hnested : k.collection.path.isNested = true) :
    ∃ path, ∃ q ∈ kept ds, k.collection.path.parent? = some path ∧
      (graphOf ds).get? path = some (placedAmong (kept ds) q) ∧
      (placedAmong (kept ds) k).parent = some (placedAmong (kept ds) q).toNamedCollection ∧
      ∃ rest, k.collection.path.OwnedBy q.collection.path rest := by
  rw [← (wellFormed_of_mem_kept hk).parent?_isSome] at hnested
  obtain ⟨path, hparent⟩ := Option.isSome_iff_exists.1 hnested
  obtain ⟨q, hmem, hq, howned⟩ := h.exists_ownedBy hk hparent
  refine ⟨path, q, hmem, hparent, ?_, ?_, howned⟩
  · rw [get?_graphOf, hq, Option.map_some]
  · simp [placedAmong, hparent, hq]

theorem above?_succ (h : Sound ds) {k : Kept} (hk : k ∈ kept ds)
    (hnested : k.collection.path.isNested = true) :
    ∃ q ∈ kept ds, k.collection.path.depth = q.collection.path.depth + 1 ∧
      ∀ n, (graphOf ds).above? (n + 1) (placedAmong (kept ds) k) =
        (graphOf ds).above? n (placedAmong (kept ds) q) := by
  obtain ⟨path, q, hmem, -, hget, hparent, rest, howned⟩ := h.exists_parent hk hnested
  refine ⟨q, hmem, howned.depth, fun n => ?_⟩
  have hpath : (placedAmong (kept ds) q).pathText = path := (get?_graphOf_eq_some.1 hget).2
  rw [Graph.above?, hparent, Option.bind_some, hpath, hget, Option.bind_some]

/-- The steps upwards from a collection are counted by the wildcards of its path. -/
theorem above?_iff (h : Sound ds) {k : Kept} (hk : k ∈ kept ds) (n : Nat) :
    (∃ root, (graphOf ds).above? n (placedAmong (kept ds) k) = some root ∧ root.parent = none) ↔
      n = k.collection.path.depth := by
  induction n generalizing k with
  | zero =>
    have hnone := h.parent_placedAmong_eq_none hk
    rw [← Path.depth_eq_zero] at hnone
    simp [Graph.above?, hnone, eq_comm]
  | succ n ih =>
    cases hnested : k.collection.path.isNested with
    | true =>
      obtain ⟨q, hmem, hdepth, hstep⟩ := h.above?_succ hk hnested
      rw [hdepth, Nat.add_right_cancel_iff, ← ih hmem]
      simp only [hstep]
    | false =>
      have hnone := (h.parent_placedAmong_eq_none hk).2 hnested
      rw [Path.depth_eq_zero.2 hnested]
      simp [Graph.above?, hnone]

/-! ## The tree -/

theorem hierarchical (h : Sound ds) : (graphOf ds).Hierarchical ds := by
  constructor
  case declared =>
    rw [placements_graphOf, List.forall₂_map_right_iff]
    exact h.forall₂_kept.imp fun _ _ hyields => ⟨hyields, hyields.pathText_eq⟩
  case get?_iff => exact fun path p => get?_graphOf_eq_some
  case contains_iff =>
    intro path
    rw [contains_graphOf, atPath?, List.find?_isSome, ← h.keptPaths_eq, keptPaths, List.mem_map]
    simp
  case root_iff =>
    intro p hp
    rw [Graph.roots, List.mem_filter, and_iff_right hp, Collection.isRoot, Bool.not_eq_true',
      Path.isNested_eq_false]
  case parent_eq_none_iff =>
    intro p hp
    obtain ⟨k, hk, rfl⟩ := mem_placements.1 hp
    rw [h.parent_placedAmong_eq_none hk, ← Path.isNested_eq_false]
    rfl
  case parent_eq =>
    intro p hp hnested
    obtain ⟨k, hk, rfl⟩ := mem_placements.1 hp
    obtain ⟨path, q, -, hpath, hget, hparent, -⟩ := h.exists_parent hk hnested
    exact ⟨path, _, hpath, hget, hparent⟩
  case children_eq =>
    intro p hp
    obtain ⟨k, hk, rfl⟩ := mem_placements.1 hp
    exact children_placedAmong ds k
  case children_nodup =>
    intro p hp
    obtain ⟨k, hk, rfl⟩ := mem_placements.1 hp
    exact nodup_children_placedAmong ds k
  case above?_iff =>
    intro p hp n
    obtain ⟨k, hk, rfl⟩ := mem_placements.1 hp
    exact h.above?_iff hk n

end Sound

/-- Every graph that is built is the tree that the paths of the declarations describe. -/
theorem hierarchical_of_builds {mode : Mode} {ds : List Declaration} {g : Graph}
    (h : Builds mode ds g) : g.Hierarchical ds := by
  rw [h.eq_graphOf]
  exact h.sound.hierarchical

/-- Three levels, declared from the lowest to the highest, with a fixed document in between. -/
def upwards : List Declaration :=
  [.plain "a/*/b/c/d/*/e" "Leaf", .plain "a/*/b/c/d" "Branch", .plain "a" "Root"]

theorem hierarchical_upwards :
    Builds .failFast upwards (graphOf upwards) ∧ (graphOf upwards).Hierarchical upwards := by
  have h : Builds .failFast upwards (graphOf upwards) := builds_iff.2 ⟨by decide +kernel, rfl⟩
  exact ⟨h, hierarchical_of_builds h⟩

end CollectionSchema
