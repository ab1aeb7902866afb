import CollectionSchema.Proofs.Graph.Sound

/-!
# Collections without positions

What a build makes of a collection depends on the other collections that are kept, but not on the
positions of their declarations. `namedIn` and `placedIn` read the class name and the place of a
collection off a list of collections. The list of those that are kept is `collections`; where no
path is declared twice, it consists of the collections of the declarations without faults
(`collections_of_nodup`).
-/

namespace CollectionSchema

namespace Survey

/-! ## The kept collections -/

/-- The collections that are kept, in the order of their declarations. -/
def collections (ds : List Declaration) : List Collection :=
  (kept ds).map (·.collection)

theorem nodup_collections (ds : List Declaration) : ((collections ds).map (·.pathText)).Nodup := by
  rw [collections, List.map_map]
  exact nodup_kept_paths ds

theorem collections_of_nodup {ds : List Declaration} (h : (ds.map (·.path)).Nodup) :
    collections ds = ds.filterMap (·.collection?) := by
  induction ds using List.reverseRecOn with
  | nil => rfl
  | append_singleton ds d ih =>
    rw [nodup_map_append_singleton] at h
    have hlast : keptAfter? ds d = d.collection? := by
      rw [keptAfter?, firstSound?_of_not_mem h.1]
      rfl
    rw [collections, kept_append_singleton, hlast, List.map_append, ← collections, ih h.2,
      List.filterMap_append]
    cases hc : d.collection? with
    | none => simp [hc]
    | some c => simp [hc]

theorem collections_perm {ds es : List Declaration} (hpaths : (ds.map (·.path)).Nodup)
    (h : ds.Perm es) : (collections ds).Perm (collections es) := by
  rw [collections_of_nodup hpaths, collections_of_nodup ((h.map _).nodup_iff.1 hpaths)]
  exact h.filterMap _

/-! ## Class names and places -/

/-- A collection with the class name that it has among others: that of its record type, or that of
its path if another collection has a record type of this name. -/
def namedIn (cs : List Collection) (c : Collection) : NamedCollection :=
  ⟨c, c.className (1 < cs.countP fun b => b.recordType.name = c.recordType.name)⟩

/-- A collection in its place among others. The neighbours are found by their paths. -/
def placedIn (cs : List Collection) (c : Collection) : Placement where
  toNamedCollection := namedIn cs c
  parent := (c.path.parent?.bind fun path => cs.find? (·.pathText = path)).map (namedIn cs)
  children := (cs.filter fun b => b.path.parent? = some c.pathText).map (namedIn cs)

theorem pathText_placedIn (cs : List Collection) (c : Collection) :
    (placedIn cs c).pathText = c.pathText :=
  rfl

theorem namedAmong_eq (all : List Kept) (k : Kept) :
    namedAmong all k = namedIn (all.map (·.collection)) k.collection := by
  rw [namedAmong, entryAmong, sharesRecordType, Entry.named, namedIn, List.countP_map]
  rfl

theorem map_collection_atPath? (ds : List Declaration) (path : String) :
    (atPath? (kept ds) path).map (·.collection) =
      (collections ds).find? (·.pathText = path) := by
  rw [atPath?, collections, List.find?_map]
  rfl

theorem placedAmong_eq (ds : List Declaration) (k : Kept) :
    placedAmong (kept ds) k = placedIn (collections ds) k.collection := by
  have hnamed : namedAmong (kept ds) = namedIn (collections ds) ∘ (·.collection) :=
    funext (namedAmong_eq (kept ds))
  have hchildren : ((kept ds).filter fun j =>
      j.collection.path.parent? = some k.collection.pathText).map (·.collection) =
        (collections ds).filter fun b => b.path.parent? = some k.collection.pathText := by
    rw [collections, List.filter_map]
    rfl
  rw [placedAmong, placedIn, hnamed, ← List.map_map, hchildren, ← Option.map_map, Option.map_bind]
  simp only [Function.comp_def, map_collection_atPath?]

/-! ## The graph -/

theorem placements_eq (ds : List Declaration) :
    (graphOf ds).placements = (collections ds).map (placedIn (collections ds)) := by
  rw [placements_graphOf, collections, List.map_map]
  exact List.map_congr_left fun k _ => placedAmong_eq ds k

theorem mem_placements_iff {ds : List Declaration} {p : Placement} :
    p ∈ (graphOf ds).placements ↔ ∃ c ∈ collections ds, placedIn (collections ds) c = p := by
  rw [placements_eq, List.mem_map]

theorem get?_eq (ds : List Declaration) (path : String) : (graphOf ds).get? path =
    ((collections ds).find? (·.pathText = path)).map (placedIn (collections ds)) := by
  rw [get?_graphOf, ← map_collection_atPath?, Option.map_map]
  exact congrArg (Option.map · _) (funext (placedAmong_eq ds))

end Survey

end CollectionSchema
