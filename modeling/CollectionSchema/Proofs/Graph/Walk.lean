import CollectionSchema.Proofs.Graph.PreOrder
import CollectionSchema.Proofs.Graph.Tree

/-!
# The walk through a graph

The walk goes through the graph with a stack of numbers. In a graph that is built it visits each
collection once, in the order of the recursive traversal that takes the roots and the children of
each collection in the order of their declarations (`Graph.Walked`, `walked_of_builds`). The number
of steps that the walk is given never cuts it off, as the stack runs empty before
(`Graph.walkFrom_of_drains`).
-/

namespace CollectionSchema

open Survey

theorem filter_filterMap_of_forall {α β : Type} {l : List α} {f : α → Option β} {p : α → Bool}
    {q : β → Bool} (h : ∀ a ∈ l, ∀ b, f a = some b → p a = q b) :
    (l.filterMap f).filter q = (l.filter p).filterMap f := by
  rw [List.filter_filterMap, List.filterMap_filter]
  refine List.filterMap_congr fun a ha => ?_
  cases hb : f a with
  | none => simp
  | some b => simp [h a ha b hb, Option.filter]

namespace Graph

/-- The places that have the path of a place as parent path, in the order of the graph. -/
def below (g : Graph) (p : Placement) : List Placement :=
  g.placements.filter fun c => c.collection.path.parent? = some p.pathText

/-- The walk through a graph visits the forest of its places, which stand in the order of some
declarations, in pre-order. -/
structure Walked (g : Graph) (ds : List Declaration) : Prop where
  declared : g.placements.map (·.pathText) = ds.map (·.path)
  /-- The stack runs empty, and the walk has then visited what it gives. -/
  drains : Drains g.hierarchy.links.children g.rootMembers g.walkMembers
  perm : g.walk.Perm g.placements
  nodup : (g.walk.map (·.pathText)).Nodup
  /-- The walk is the only recursive traversal. -/
  preOrdered_iff : ∀ visited, PreOrdered g.below g.roots visited ↔ visited = g.walk
  children_eq : ∀ p ∈ g.placements, p.children = (g.below p).map (·.toNamedCollection)
  /-- Each collection comes behind its parent. -/
  behind_parent : ∀ c ∈ g.placements, ∀ path, c.collection.path.parent? = some path →
    ∃ p before between after, g.get? path = some p ∧ c.parent = some p.toNamedCollection ∧
      g.walk = before ++ p :: (between ++ c :: after)
  /-- All descendants of a collection follow it in one block. -/
  exists_block : ∀ p ∈ g.placements, ∃ before inside after,
    g.walk = before ++ p :: (inside ++ after) ∧
      ∀ q, q ∈ inside ↔ Relation.TransGen (fun p c => c ∈ g.below p) p q

/-- The walk is not cut off where it may make as many steps as the stack needs to run empty. -/
theorem walkFrom_of_drains {links : Links} {stack visited : List Nat}
    (h : Drains links.children stack visited) {fuel : Nat} (hfuel : visited.length ≤ fuel) :
    walkFrom links fuel stack = visited := by
  induction h generalizing fuel with
  | done => cases fuel <;> rfl
  | visit _ ih =>
    cases fuel with
    | zero => cases hfuel
    | succ fuel => rw [walkFrom, ih (Nat.le_of_succ_le_succ hfuel)]

end Graph

/-! ## Numbers of a built graph -/

namespace Survey

/-- The numbers of the collections that a collection owns; those of the roots if there is none. -/
def ownedMembers (ds : List Declaration) (owner : Option Nat) : List Nat :=
  ownedBy (List.range (kept ds).length) (hierarchyOf ds).links.owner? owner

theorem owner?_hierarchyOf {ds : List Declaration} {k : Kept} {n : Nat}
    (h : (kept ds)[n]? = some k) :
    (hierarchyOf ds).links.owner? n = ownerOf? (numbers ds) k.collection :=
  owner?_linksFrom (numbers ds) (List.mk_mem_zipIdx_iff_getElem?.2 h)

theorem exists_kept_of_lt {ds : List Declaration} {n : Nat} (h : n < (kept ds).length) :
    ∃ k ∈ kept ds, (kept ds)[n]? = some k :=
  ⟨(kept ds)[n], List.getElem_mem h, List.getElem?_eq_getElem h⟩

theorem children_eq_ownedMembers (ds : List Declaration) (n : Nat) :
    (hierarchyOf ds).links.children n = ownedMembers ds (some n) := by
  have howner : ∀ q ∈ (kept ds).zipIdx, decide (ownerOf? (numbers ds) q.1.collection = some n) =
      ((fun i => decide ((hierarchyOf ds).links.owner? i = some n)) ∘ (·.2)) q := by
    rintro ⟨k, i⟩ hq
    rw [Function.comp_apply, owner?_hierarchyOf (List.mk_mem_zipIdx_iff_getElem?.1 hq)]
  rw [hierarchyOf, children_linksFrom, List.filter_congr howner, ← List.filter_map,
    List.zipIdx_map_snd, ← List.range_eq_range']
  rfl

/-- The number of wildcards in the path of a numbered collection. -/
def depthAt (ds : List Declaration) (n : Nat) : Nat :=
  ((kept ds)[n]?.map (·.collection.path.depth)).getD 0

theorem placements_eq_filterMap (ds : List Declaration) : (graphOf ds).placements =
    (List.range (kept ds).length).filterMap (hierarchyOf ds).placement? := by
  rw [Graph.placements, members_graphOf]
  rfl

theorem placement?_of_lt {ds : List Declaration} {n : Nat} (h : n ∈ List.range (kept ds).length) :
    ∃ k ∈ kept ds, (kept ds)[n]? = some k ∧
      (hierarchyOf ds).placement? n = some (placedAmong (kept ds) k) := by
  obtain ⟨k, hk, hn⟩ := exists_kept_of_lt (List.mem_range.1 h)
  exact ⟨k, hk, hn, by rw [placement?_hierarchyOf, hn, Option.map_some]⟩

/-- What is below a place are the places of the numbers that its number owns. -/
theorem below_placedAmong {ds : List Declaration} {n : Nat} {k : Kept}
    (hn : (kept ds)[n]? = some k) : (graphOf ds).below (placedAmong (kept ds) k) =
      (ownedMembers ds (some n)).filterMap (hierarchyOf ds).placement? := by
  rw [Graph.below, placements_eq_filterMap]
  refine filter_filterMap_of_forall fun m hm c hc => ?_
  obtain ⟨j, hj, hjm, hplace⟩ := placement?_of_lt hm
  rw [hplace] at hc
  cases hc
  rw [owner?_hierarchyOf hjm, decide_eq_decide, ownerOf?_numbers hn]
  rfl

/-- As many steps as there are collections are enough, and the walk may make as many for each
root. -/
theorem walkMembers_graphOf {ds : List Declaration} {visited : List Nat}
    (hperm : visited.Perm (List.range (kept ds).length))
    (hvisited : PreOrdered (hierarchyOf ds).links.children (graphOf ds).rootMembers visited) :
    (graphOf ds).walkMembers = visited := by
  have hlength : visited.length = (kept ds).length := by
    rw [hperm.length_eq, List.length_range]
  refine Graph.walkFrom_of_drains hvisited.drains ?_
  change visited.length ≤ _ * (hierarchyOf ds).entries.length
  rw [length_entries_hierarchyOf, hlength]
  cases hroots : (graphOf ds).rootMembers with
  | nil =>
    -- Without roots nothing is visited, so there is no collection.
    rw [hroots] at hvisited
    cases hvisited
    rw [← hlength]
    exact Nat.zero_le _
  | cons i roots => exact Nat.le_mul_of_pos_left _ (Nat.succ_pos _)

end Survey

namespace Sound

variable {ds : List Declaration}

theorem isSome_ownerOf? (h : Sound ds) {k : Kept} (hk : k ∈ kept ds) :
    (ownerOf? (numbers ds) k.collection).isSome = k.collection.path.isNested := by
  rw [← (wellFormed_of_mem_kept hk).parent?_isSome, ownerOf?]
  cases hparent : k.collection.path.parent? with
  | none => rfl
  | some path =>
    obtain ⟨q, -, hq, -⟩ := h.exists_ownedBy hk hparent
    rw [← find?_numbers_bind] at hq
    rw [Option.bind_some, Option.isSome_some, Option.isSome_of_isSome_bind (by rw [hq]; rfl)]

theorem isRoot_eq (h : Sound ds) {k : Kept} {n : Nat} (hn : (kept ds)[n]? = some k) :
    decide ((hierarchyOf ds).links.owner? n = none) = k.collection.isRoot := by
  rw [owner?_hierarchyOf hn, Collection.isRoot, ← h.isSome_ownerOf? (List.mem_of_getElem? hn)]
  cases ownerOf? (numbers ds) k.collection <;> rfl

theorem rootMembers_graphOf (h : Sound ds) :
    (graphOf ds).rootMembers = ownedMembers ds none := by
  rw [Graph.rootMembers, members_graphOf, ownedMembers, ownedBy]
  refine List.filter_congr fun n hn => ?_
  obtain ⟨k, hk, hn⟩ := exists_kept_of_lt (List.mem_range.1 hn)
  change ((hierarchyOf ds).named? n).any _ = _
  rw [named?_hierarchyOf, hn, h.isRoot_eq hn]
  rfl

theorem roots_graphOf (h : Sound ds) : (graphOf ds).roots =
    (ownedMembers ds none).filterMap (hierarchyOf ds).placement? := by
  rw [Graph.roots, placements_eq_filterMap]
  refine filter_filterMap_of_forall fun m hm c hc => ?_
  obtain ⟨j, hj, hjm, hplace⟩ := placement?_of_lt hm
  rw [hplace] at hc
  cases hc
  exact h.isRoot_eq hjm

/-- The owner of a number is a number whose collection has one wildcard less in its path. -/
theorem owner_deeper (h : Sound ds) :
    ∀ b ∈ List.range (kept ds).length, ∀ a, (hierarchyOf ds).links.owner? b = some a →
      a ∈ List.range (kept ds).length ∧ depthAt ds a < depthAt ds b := by
  intro b hb a howner
  obtain ⟨k, hk, hkb⟩ := exists_kept_of_lt (List.mem_range.1 hb)
  rw [owner?_hierarchyOf hkb] at howner
  obtain ⟨path, hparent, hfind⟩ := Option.bind_eq_some_iff.1 howner
  obtain ⟨q, -, hq, rest, howned⟩ := h.exists_ownedBy hk hparent
  have hqa : (kept ds)[a]? = some q := by
    rw [← find?_numbers_bind, hfind] at hq
    exact hq
  refine ⟨List.mem_range.2 (List.getElem?_eq_some_iff.1 hqa).1, ?_⟩
  rw [depthAt, depthAt, hqa, hkb, Option.map_some, Option.map_some, Option.getD_some,
    Option.getD_some, howned.depth]
  exact Nat.lt_succ_self _

/-- The walk visits the numbers of the graph once each, in pre-order. -/
theorem exists_walk (h : Sound ds) : ∃ visited, visited.Perm (List.range (kept ds).length) ∧
    PreOrdered (hierarchyOf ds).links.children (graphOf ds).rootMembers visited := by
  obtain ⟨visited, hperm, hvisited⟩ :=
    exists_preOrdered_ownedBy List.nodup_range (depthAt ds) h.owner_deeper
  have hchildren : (hierarchyOf ds).links.children = fun n => ownedMembers ds (some n) :=
    funext (children_eq_ownedMembers ds)
  rw [hchildren, h.rootMembers_graphOf]
  exact ⟨visited, hperm, hvisited⟩

theorem preOrdered_walk (h : Sound ds) {visited : List Nat}
    (hperm : visited.Perm (List.range (kept ds).length))
    (hvisited : PreOrdered (hierarchyOf ds).links.children (graphOf ds).rootMembers visited) :
    PreOrdered (graphOf ds).below (graphOf ds).roots (graphOf ds).walk := by
  rw [h.roots_graphOf, ← h.rootMembers_graphOf, Graph.walk, walkMembers_graphOf hperm hvisited]
  refine hvisited.filterMap fun n hn => ?_
  obtain ⟨k, -, hkn, hplace⟩ := placement?_of_lt (hperm.mem_iff.1 hn)
  refine ⟨_, hplace, ?_⟩
  rw [below_placedAmong hkn, children_eq_ownedMembers]

/-- The places of a parent and what is below it, where the parent path of a place is known. -/
theorem exists_parent_above (h : Sound ds) {c : Placement} (hc : c ∈ (graphOf ds).placements)
    {path : String} (hpath : c.collection.path.parent? = some path) :
    ∃ p ∈ (graphOf ds).placements, (graphOf ds).get? path = some p ∧
      c.parent = some p.toNamedCollection ∧ c ∈ (graphOf ds).below p := by
  obtain ⟨k, hk, rfl⟩ := mem_placements.1 hc
  have hnested : k.collection.path.isNested = true := by
    rw [← (wellFormed_of_mem_kept hk).parent?_isSome]
    exact Option.isSome_iff_exists.2 ⟨path, hpath⟩
  obtain ⟨path', p, hpath', hget, hparent⟩ := h.hierarchical.parent_eq _ hc hnested
  cases hpath.symm.trans hpath'
  obtain ⟨hp, hraw⟩ := get?_graphOf_eq_some.1 hget
  refine ⟨p, hp, hget, hparent, List.mem_filter.2 ⟨hc, ?_⟩⟩
  rw [hpath, hraw, decide_eq_true_eq]

theorem walked (h : Sound ds) : (graphOf ds).Walked ds := by
  obtain ⟨visited, hvisits, hvisited⟩ := h.exists_walk
  have hpre := h.preOrdered_walk hvisits hvisited
  have hperm : (graphOf ds).walk.Perm (graphOf ds).placements := by
    rw [Graph.walk, walkMembers_graphOf hvisits hvisited, placements_eq_filterMap]
    exact hvisits.filterMap _
  have hblock : ∀ p ∈ (graphOf ds).placements, ∃ before inside after,
      (graphOf ds).walk = before ++ p :: (inside ++ after) ∧
        ∀ q, q ∈ inside ↔ Relation.TransGen (fun p c => c ∈ (graphOf ds).below p) p q := by
    intro p hp
    obtain ⟨before, inside, after, hwalk, hinside⟩ := hpre.exists_block (hperm.mem_iff.2 hp)
    refine ⟨before, inside, after, hwalk, fun q => ?_⟩
    rw [hinside.mem_iff, Relation.TransGen.head'_iff]
  constructor
  case declared =>
    rw [placements_graphOf, List.map_map, ← h.keptPaths_eq]
    rfl
  case drains =>
    rw [walkMembers_graphOf hvisits hvisited]
    exact hvisited.drains
  case perm => exact hperm
  case nodup =>
    rw [(hperm.map _).nodup_iff, placements_graphOf, List.map_map]
    exact nodup_kept_paths ds
  case preOrdered_iff => exact fun visited => ⟨fun hother => hother.unique hpre, fun e => e ▸ hpre⟩
  case children_eq =>
    intro p hp
    obtain ⟨k, -, rfl⟩ := mem_placements.1 hp
    exact children_placedAmong ds k
  case behind_parent =>
    intro c hc path hpath
    obtain ⟨p, hp, hget, hparent, hbelow⟩ := h.exists_parent_above hc hpath
    obtain ⟨before, inside, after, hwalk, hinside⟩ := hblock p hp
    -- A child stands in the block of its parent.
    obtain ⟨between, rest, rfl⟩ := List.append_of_mem ((hinside c).2 (.single hbelow))
    exact ⟨p, before, between, rest ++ after, hget, hparent, by simpa using hwalk⟩
  case exists_block => exact hblock

end Sound

/-- The walk through a graph that is built visits its forest in pre-order. -/
theorem walked_of_builds {mode : Mode} {ds : List Declaration} {g : Graph}
    (h : Builds mode ds g) : g.Walked ds := by
  rw [h.eq_graphOf]
  exact h.sound.walked

/-- Two trees whose levels are declared in no order. -/
def mixedLevels : List Declaration :=
  [.plain "a/*/c" "Second", .plain "b" "Tree", .plain "a/*/b/x/y/*/z" "Deep", .plain "a" "Root",
    .plain "a/*/b/x/y" "First", .plain "b/*/a" "Low"]

theorem walked_mixedLevels :
    Builds .failFast mixedLevels (graphOf mixedLevels) ∧
      (graphOf mixedLevels).Walked mixedLevels := by
  have h : Builds .failFast mixedLevels (graphOf mixedLevels) :=
    builds_iff.2 ⟨by decide +kernel, rfl⟩
  exact ⟨h, walked_of_builds h⟩

example : (graphOf mixedLevels).walk.map (·.pathText) =
    ["b", "b/*/a", "a", "a/*/c", "a/*/b/x/y", "a/*/b/x/y/*/z"] := by
  decide +kernel

end CollectionSchema
