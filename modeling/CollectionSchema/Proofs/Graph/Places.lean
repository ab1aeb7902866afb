import CollectionSchema.Proofs.Build

/-!
# Places in the graph of a build

The graph of a build finds neighbours through numbers. As no path is kept twice, the same
neighbours are found by their paths: `placedAmong` puts a kept collection into its place in this
way, and `placements_graphOf` and `get?_graphOf` show that the graph consists of just these places.
-/

namespace CollectionSchema

namespace Survey

/-- The collection of a path among some that are kept. -/
def atPath? (all : List Kept) (path : String) : Option Kept :=
  all.find? (·.collection.pathText = path)

theorem atPath?_eq_some {ds : List Declaration} {path : String} {k : Kept} :
    atPath? (kept ds) path = some k ↔ k ∈ kept ds ∧ k.collection.pathText = path :=
  find?_eq_some_iff_of_nodup (nodup_kept_paths ds)

/-- A kept collection in its place. The neighbours are found by their paths. -/
def placedAmong (all : List Kept) (k : Kept) : Placement where
  toNamedCollection := namedAmong all k
  parent := (k.collection.path.parent?.bind (atPath? all)).map (namedAmong all)
  children := (all.filter fun c => c.collection.path.parent? = some k.collection.pathText).map
    (namedAmong all)

/-! ## Numbers and paths -/

theorem named?_hierarchyOf (ds : List Declaration) (n : Nat) :
    (hierarchyOf ds).named? n = ((kept ds)[n]?).map (namedAmong (kept ds)) := by
  rw [Hierarchy.named?, hierarchyOf, List.getElem?_map, Option.map_map]
  rfl

theorem find?_numbers_bind (ds : List Declaration) (path : String) :
    ((numbers ds).find? path).bind (fun n => (kept ds)[n]?) = atPath? (kept ds) path := by
  cases hfind : (numbers ds).find? path with
  | none =>
    rw [find?_numbers_eq_none, ← find?_kept_eq_none] at hfind
    exact hfind.symm
  | some n =>
    rw [find?_numbers, keptPaths, List.getElem?_map, Option.map_eq_some_iff] at hfind
    obtain ⟨k, hk, hpath⟩ := hfind
    rw [Option.bind_some, hk]
    exact (atPath?_eq_some.2 ⟨List.mem_of_getElem? hk, hpath⟩).symm

theorem ownerOf?_numbers {ds : List Declaration} {k : Kept} {n : Nat} (h : (kept ds)[n]? = some k)
    (c : Collection) :
    ownerOf? (numbers ds) c = some n ↔ c.path.parent? = some k.collection.pathText := by
  have hn : (keptPaths ds)[n]? = some k.collection.pathText := by
    rw [keptPaths, List.getElem?_map, h, Option.map_some]
  rw [ownerOf?, Option.bind_eq_some_iff]
  constructor
  · rintro ⟨path, hpath, hfind⟩
    rw [find?_numbers, hn] at hfind
    rw [hpath, hfind]
  · intro hparent
    exact ⟨_, hparent, find?_numbers.2 hn⟩

/-! ## Neighbours -/

theorem parent_hierarchyOf {ds : List Declaration} {k : Kept} {n : Nat}
    (h : (kept ds)[n]? = some k) :
    ((hierarchyOf ds).links.owner? n).bind (hierarchyOf ds).named? =
      (placedAmong (kept ds) k).parent := by
  have howner := owner?_linksFrom (numbers ds) (i := 0) (List.mk_mem_zipIdx_iff_getElem?.2 h)
  rw [hierarchyOf, howner, ← hierarchyOf, ownerOf?, placedAmong]
  cases k.collection.path.parent? with
  | none => rfl
  | some path =>
    rw [Option.bind_some, Option.bind_some, ← find?_numbers_bind]
    cases (numbers ds).find? path with
    | none => rfl
    | some m => exact named?_hierarchyOf ds m

theorem children_hierarchyOf {ds : List Declaration} {k : Kept} {n : Nat}
    (h : (kept ds)[n]? = some k) :
    ((hierarchyOf ds).links.children n).filterMap (hierarchyOf ds).named? =
      (placedAmong (kept ds) k).children := by
  have hnamed : ∀ q ∈ (kept ds).zipIdx.filter fun q => q.1.collection.path.parent? =
      some k.collection.pathText, ((hierarchyOf ds).named? ∘ (·.2)) q =
        (some ∘ namedAmong (kept ds) ∘ (·.1)) q := by
    rintro ⟨c, m⟩ hq
    have hc := List.mk_mem_zipIdx_iff_getElem?.1 (List.mem_filter.1 hq).1
    rw [Function.comp_apply, named?_hierarchyOf, hc]
    rfl
  have hlinks := children_linksFrom (numbers ds) 0 (kept ds) n
  simp only [ownerOf?_numbers h] at hlinks
  have hchosen : ((kept ds).zipIdx.filter fun q => q.1.collection.path.parent? =
      some k.collection.pathText).map (·.1) = (kept ds).filter fun c =>
        c.collection.path.parent? = some k.collection.pathText := by
    conv_rhs => rw [← List.zipIdx_map_fst 0 (kept ds), List.filter_map]
    rfl
  rw [hierarchyOf, hlinks, ← hierarchyOf, List.filterMap_map, List.filterMap_congr hnamed,
    List.filterMap_eq_map, ← List.map_map, hchosen, placedAmong]

theorem placement?_hierarchyOf (ds : List Declaration) (n : Nat) :
    (hierarchyOf ds).placement? n = ((kept ds)[n]?).map (placedAmong (kept ds)) := by
  rw [Hierarchy.placement?, named?_hierarchyOf]
  cases hk : (kept ds)[n]? with
  | none => rfl
  | some k =>
    rw [parent_hierarchyOf hk, children_hierarchyOf hk]
    rfl

/-! ## The graph -/

theorem filterMap_range_getElem? {α : Type} (l : List α) :
    (List.range l.length).filterMap (fun i => (l[i]?).map (·, i)) = l.zipIdx := by
  induction l using List.reverseRecOn with
  | nil => rfl
  | append_singleton l a ih =>
    have hbefore : ∀ i ∈ List.range l.length,
        ((l ++ [a])[i]?).map (·, i) = (l[i]?).map (·, i) :=
      fun i hi => by rw [List.getElem?_append_left (List.mem_range.1 hi)]
    rw [List.length_append, List.length_singleton, List.range_succ, List.filterMap_append,
      List.filterMap_congr hbefore, ih, List.zipIdx_append]
    simp

theorem index_graphOf (ds : List Declaration) : (graphOf ds).index = numbers ds := by
  have hlength : (kept ds).length = (keptPaths ds).length := by
    rw [keptPaths, List.length_map]
  have hpath : ∀ i, (hierarchyOf ds).pathOf? i = (keptPaths ds)[i]? := by
    intro i
    simp only [Hierarchy.pathOf?, hierarchyOf, keptPaths, List.getElem?_map, Option.map_map]
    rfl
  rw [graphOf, Graph.ofMembers, numbers, hlength, ← filterMap_range_getElem?]
  simp only [hpath]

theorem members_graphOf (ds : List Declaration) :
    (graphOf ds).members = List.range (kept ds).length := by
  rw [Graph.members, index_graphOf, numbers, Table.ofList_of_nodup (nodup_zipIdx_keptPaths ds),
    Table.values, List.zipIdx_map_snd, keptPaths, List.length_map, List.range_eq_range']

/-- The graph consists of the kept collections in their places, in order. -/
theorem placements_graphOf (ds : List Declaration) :
    (graphOf ds).placements = (kept ds).map (placedAmong (kept ds)) := by
  have hkept : (List.range (kept ds).length).filterMap (fun i => (kept ds)[i]?) = kept ds := by
    have hpairs := congrArg (List.map (·.1)) (filterMap_range_getElem? (kept ds))
    rw [List.zipIdx_map_fst, List.map_filterMap] at hpairs
    simpa [Function.comp_def] using hpairs
  have hplace : (hierarchyOf ds).placement? = fun i =>
      ((kept ds)[i]?).map (placedAmong (kept ds)) := funext (placement?_hierarchyOf ds)
  rw [Graph.placements, members_graphOf, graphOf, Graph.ofMembers, hplace, ← List.map_filterMap,
    hkept]

theorem mem_placements {ds : List Declaration} {p : Placement} :
    p ∈ (graphOf ds).placements ↔ ∃ k ∈ kept ds, placedAmong (kept ds) k = p := by
  rw [placements_graphOf, List.mem_map]

theorem get?_graphOf (ds : List Declaration) (path : String) :
    (graphOf ds).get? path = (atPath? (kept ds) path).map (placedAmong (kept ds)) := by
  rw [Graph.get?, index_graphOf, ← find?_numbers_bind]
  cases hfind : (numbers ds).find? path with
  | none => rfl
  | some n => exact placement?_hierarchyOf ds n

theorem contains_graphOf (ds : List Declaration) (path : String) :
    (graphOf ds).contains path = (atPath? (kept ds) path).isSome := by
  rw [Graph.contains, Table.contains, index_graphOf, Bool.eq_iff_iff, Option.isSome_iff_ne_none,
    Option.isSome_iff_ne_none, ne_eq, find?_numbers_eq_none, ← find?_kept_eq_none]
  rfl

theorem get?_graphOf_eq_some {ds : List Declaration} {path : String} {p : Placement} :
    (graphOf ds).get? path = some p ↔ p ∈ (graphOf ds).placements ∧ p.pathText = path := by
  rw [get?_graphOf, Option.map_eq_some_iff, mem_placements]
  constructor
  · rintro ⟨k, hk, rfl⟩
    obtain ⟨hmem, hpath⟩ := atPath?_eq_some.1 hk
    exact ⟨⟨k, hmem, rfl⟩, hpath⟩
  · rintro ⟨⟨k, hmem, rfl⟩, hpath⟩
    exact ⟨k, atPath?_eq_some.2 ⟨hmem, hpath⟩, rfl⟩

theorem children_placedAmong (ds : List Declaration) (k : Kept) :
    (placedAmong (kept ds) k).children =
      ((graphOf ds).placements.filter fun c =>
        c.collection.path.parent? = some (placedAmong (kept ds) k).pathText).map
          (·.toNamedCollection) := by
  rw [placements_graphOf, List.filter_map, List.map_map]
  rfl

theorem nodup_children_placedAmong (ds : List Declaration) (k : Kept) :
    ((placedAmong (kept ds) k).children.map (·.pathText)).Nodup := by
  rw [placedAmong, List.map_map]
  exact (nodup_kept_paths ds).sublist (List.Sublist.map _ List.filter_sublist)

end Survey

end CollectionSchema
