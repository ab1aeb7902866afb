import CollectionSchema.Proofs.Artifact.ClassNames
import CollectionSchema.Proofs.Graph.Collections

/-!
# Code after one more declaration

A declaration that is added can change the class names of the collections that share its record
type, and it becomes a child of its parent. All other places remain what they were
(`placedIn_insert`), and so does their code, if no collection that they see changes its class name
(`code_of_builds_insert`).
-/

namespace CollectionSchema

open Survey

/-- The collections whose class names the code for a place can contain. -/
def Placement.visible (p : Placement) : List NamedCollection :=
  p.toNamedCollection :: (p.parent.toList ++ p.children)

namespace Survey

/-! ## Places after an insertion -/

section Places

variable {before after : List Collection} {c d : Collection}

theorem namedIn_insert (h : c.recordType.name ≠ d.recordType.name) :
    namedIn (before ++ d :: after) c = namedIn (before ++ after) c := by
  have hcount : ((before ++ d :: after).countP fun b => b.recordType.name = c.recordType.name) =
      (before ++ after).countP fun b => b.recordType.name = c.recordType.name := by
    rw [List.countP_append, List.countP_append, List.countP_cons_of_neg]
    simpa using h.symm
  rw [namedIn, namedIn, hcount]

theorem sublist_insert {α : Type} (before after : List α) (a : α) :
    (before ++ after).Sublist (before ++ a :: after) :=
  (List.sublist_cons_self a after).append_left before

theorem find?_insert (hpaths : ((before ++ d :: after).map (·.pathText)).Nodup) {path : String}
    {b : Collection} (h : (before ++ after).find? (·.pathText = path) = some b) :
    (before ++ d :: after).find? (·.pathText = path) = some b := by
  have hsub := sublist_insert before after d
  obtain ⟨hmem, hpath⟩ := (find?_eq_some_iff_of_nodup (hpaths.sublist (hsub.map _))).1 h
  exact (find?_eq_some_iff_of_nodup hpaths).2 ⟨hsub.subset hmem, hpath⟩

theorem parent_insert (hpaths : ((before ++ d :: after).map (·.pathText)).Nodup)
    (hfound : ∀ path, c.path.parent? = some path →
      ((before ++ after).find? (·.pathText = path)).isSome)
    (hrecord : ∀ b ∈ (placedIn (before ++ after) c).parent,
      b.collection.recordType.name ≠ d.recordType.name) :
    (placedIn (before ++ d :: after) c).parent = (placedIn (before ++ after) c).parent := by
  unfold placedIn at hrecord ⊢
  cases hpath : c.path.parent? with
  | none => rfl
  | some path =>
    obtain ⟨b, hb⟩ := Option.isSome_iff_exists.1 (hfound path hpath)
    have hname : b.recordType.name ≠ d.recordType.name := by
      apply hrecord (namedIn (before ++ after) b)
      simp only [hpath, Option.bind_some, hb, Option.map_some, Option.mem_def]
    simp only [Option.bind_some, hb, find?_insert hpaths hb, Option.map_some, namedIn_insert hname]

theorem children_insert (hparent : d.path.parent? ≠ some c.pathText)
    (hrecord : ∀ b ∈ (placedIn (before ++ after) c).children,
      b.collection.recordType.name ≠ d.recordType.name) :
    (placedIn (before ++ d :: after) c).children = (placedIn (before ++ after) c).children := by
  have hsame : ((before ++ d :: after).filter fun b => b.path.parent? = some c.pathText) =
      (before ++ after).filter fun b => b.path.parent? = some c.pathText := by
    rw [List.filter_append, List.filter_append, List.filter_cons_of_neg]
    simpa using hparent
  unfold placedIn at hrecord ⊢
  rw [hsame]
  apply List.map_congr_left
  intro b hb
  have hname : b.recordType.name ≠ d.recordType.name := hrecord _ (List.mem_map_of_mem hb)
  exact namedIn_insert hname

/-- What is inserted changes no place but its parent's and those that see its record type. -/
theorem placedIn_insert (hpaths : ((before ++ d :: after).map (·.pathText)).Nodup)
    (hfound : ∀ path, c.path.parent? = some path →
      ((before ++ after).find? (·.pathText = path)).isSome)
    (hrecord : ∀ b ∈ (placedIn (before ++ after) c).visible,
      b.collection.recordType.name ≠ d.recordType.name)
    (hparent : d.path.parent? ≠ some c.pathText) :
    placedIn (before ++ d :: after) c = placedIn (before ++ after) c := by
  rw [Placement.visible, List.forall_mem_cons, List.forall_mem_append] at hrecord
  obtain ⟨hself, habove, hbelow⟩ := hrecord
  have hname : c.recordType.name ≠ d.recordType.name := hself
  have hup := parent_insert hpaths hfound fun b hb => habove b (Option.mem_toList.2 hb)
  have hdown := children_insert hparent hbelow
  calc placedIn (before ++ d :: after) c
      = ⟨namedIn (before ++ d :: after) c, (placedIn (before ++ d :: after) c).parent,
          (placedIn (before ++ d :: after) c).children⟩ := rfl
    _ = ⟨namedIn (before ++ after) c, (placedIn (before ++ after) c).parent,
          (placedIn (before ++ after) c).children⟩ := by rw [namedIn_insert hname, hup, hdown]
    _ = placedIn (before ++ after) c := rfl

end Places

end Survey

/-! ## Graphs after an insertion -/

namespace Sound

variable {before after : List Declaration} {d : Declaration}

theorem isSome_find?_parent {ds : List Declaration} (h : Sound ds) {c : Collection}
    (hc : c ∈ collections ds) {path : String} (hpath : c.path.parent? = some path) :
    ((collections ds).find? (·.pathText = path)).isSome := by
  obtain ⟨k, hk, rfl⟩ := List.mem_map.1 hc
  rw [← map_collection_atPath?, Option.isSome_map]
  exact h.parent k hk path hpath

theorem collections_insert (h : Sound (before ++ d :: after)) :
    ∃ cs ds c, d.Yields c ∧ collections (before ++ after) = cs ++ ds ∧
      collections (before ++ d :: after) = cs ++ c :: ds := by
  obtain ⟨k, -, hyields⟩ := h.exists_kept (List.mem_append_right before List.mem_cons_self)
  refine ⟨before.filterMap (·.collection?), after.filterMap (·.collection?), k.collection, hyields,
    ?_, ?_⟩
  · rw [collections_of_nodup (h.nodup.sublist ((sublist_insert before after d).map _)),
      List.filterMap_append]
  · rw [collections_of_nodup h.nodup, List.filterMap_append,
      List.filterMap_cons_some (Declaration.collection?_eq_some.2 hyields)]

/-- A place that neither sees the record type of another declaration nor is its parent is still
there when the declaration is added. -/
theorem get?_insert (h : Sound (before ++ after)) (h' : Sound (before ++ d :: after))
    {p : Placement} (hp : p ∈ (graphOf (before ++ after)).placements)
    (hrecord : ∀ c ∈ p.visible, ∀ r ∈ d.recordType, c.collection.recordType.name ≠ r.name)
    (hparent : ∀ q, (graphOf (before ++ d :: after)).get? d.path = some q →
      q.parent.map (·.pathText) ≠ some p.pathText) :
    (graphOf (before ++ d :: after)).get? p.pathText = some p := by
  -- The collections of the longer list are those of the shorter one, with `e` inserted.
  obtain ⟨cs, ds, e, hyields, hcs, hcs'⟩ := h'.collections_insert
  obtain ⟨c, hc, rfl⟩ := mem_placements_iff.1 hp
  have hpaths := nodup_collections (before ++ d :: after)
  have hfound : ∀ path, c.path.parent? = some path →
      ((collections (before ++ after)).find? (·.pathText = path)).isSome :=
    fun _ => h.isSome_find?_parent hc
  rw [hcs] at hc hrecord hfound
  rw [hcs'] at hpaths
  have hat : ∀ b ∈ cs ++ e :: ds, (cs ++ e :: ds).find? (·.pathText = b.pathText) = some b :=
    fun b hb => (find?_eq_some_iff_of_nodup hpaths).2 ⟨hb, rfl⟩
  have hmem : c ∈ cs ++ e :: ds := (sublist_insert cs ds e).subset hc
  have hnot : e.path.parent? ≠ some c.pathText := by
    intro hchild
    refine hparent (placedIn (cs ++ e :: ds) e) ?_ ?_
    · rw [get?_eq, hcs', ← hyields.pathText_eq, hat e (by simp), Option.map_some]
    · rw [placedIn, hchild, Option.bind_some, hat c hmem]
      rfl
  have hplaced := placedIn_insert hpaths hfound
    (fun b hb => hrecord b hb e.recordType hyields.passes.record) hnot
  rw [hcs, pathText_placedIn, get?_eq, hcs', hat c hmem, Option.map_some, hplaced]

end Sound

/-- Of declarations that have a graph with and without `d`, every collection that is not the parent
of the new one has the same artifacts with the same texts in both graphs, unless the new one has the
record type of the collection, its parent or one of its children. -/
theorem code_of_builds_insert {mode : Mode} {before after : List Declaration} {d : Declaration}
    {g g' : Graph} (h : Builds mode (before ++ after) g)
    (h' : Builds mode (before ++ d :: after) g') {p : Placement} (hp : p ∈ g.placements)
    (hrecord : ∀ c ∈ p.visible, ∀ r ∈ d.recordType, c.collection.recordType.name ≠ r.name)
    (hparent : ∀ q, g'.get? d.path = some q → q.parent.map (·.pathText) ≠ some p.pathText) :
    ∃ q, g'.get? p.pathText = some q ∧ ∀ a : Artifact, a.accepts p = a.accepts q ∧
      ∃ text, a.render p = .ok text ∧ a.render q = .ok text := by
  obtain rfl := h.eq_graphOf
  obtain rfl := h'.eq_graphOf
  refine ⟨p, h.sound.get?_insert h'.sound hp hrecord hparent, fun a => ⟨rfl, ?_⟩⟩
  obtain ⟨text, htext⟩ := Graph.exists_render hp a
  exact ⟨text, htext, htext⟩

def peopleAndMovies : List Declaration :=
  [.plain "people" "Person", .plain "movies" "Movie"]

def showsAndLikes : List Declaration :=
  [.plain "shows" "Show", .plain "movies/*/likes" "Like"]

/-- More people, below shows. -/
def showCast : Declaration :=
  .plain "shows/*/cast" "Person"

/-- With the cast, people get another class name and shows get accessors, but movies stay the
same. -/
theorem code_movies_showCast :
    let ds := peopleAndMovies ++ showsAndLikes
    let es := peopleAndMovies ++ showCast :: showsAndLikes
    Builds .collecting ds (graphOf ds) ∧ Builds .collecting es (graphOf es) ∧
      ∃ p q, (graphOf ds).get? "movies" = some p ∧ (graphOf es).get? "movies" = some q ∧
        (∀ c ∈ p.visible, ∀ r ∈ showCast.recordType, c.collection.recordType.name ≠ r.name) ∧
        (∀ b, (graphOf es).get? showCast.path = some b →
          b.parent.map (·.pathText) ≠ some p.pathText) ∧
        ∀ a : Artifact, a.accepts p = a.accepts q ∧
          ∃ text, a.render p = .ok text ∧ a.render q = .ok text := by
  intro ds es
  have h : Builds .collecting ds (graphOf ds) := builds_iff.2 ⟨by decide +kernel, rfl⟩
  have h' : Builds .collecting es (graphOf es) := builds_iff.2 ⟨by decide +kernel, rfl⟩
  have hmovies : ((graphOf ds).get? "movies").map
      (·.visible.map (·.collection.recordType.name)) = some ["Movie", "Like"] := by
    decide +kernel
  have habove : ((graphOf es).get? showCast.path).map (·.parent.map (·.pathText)) =
      some (some "shows") := by
    decide +kernel
  obtain ⟨p, hp, hvisible⟩ := Option.map_eq_some_iff.1 hmovies
  obtain ⟨hmem, hpath⟩ := get?_graphOf_eq_some.1 hp
  have hrecord : ∀ c ∈ p.visible, ∀ r ∈ showCast.recordType,
      c.collection.recordType.name ≠ r.name := by
    intro c hc r hr hsame
    have hname : c.collection.recordType.name ∈ ["Movie", "Like"] :=
      hvisible ▸ List.mem_map_of_mem hc
    cases hr
    rw [hsame] at hname
    exact absurd hname (by decide +kernel)
  have hparent : ∀ q, (graphOf es).get? showCast.path = some q →
      q.parent.map (·.pathText) ≠ some p.pathText := by
    intro q hq
    rw [hq, Option.map_some, Option.some.injEq] at habove
    rw [habove, hpath]
    decide +kernel
  obtain ⟨q, hq, hcode⟩ := code_of_builds_insert h h' hmem hrecord hparent
  exact ⟨h, h', p, q, hp, hpath ▸ hq, hrecord, hparent, hcode⟩

end CollectionSchema
