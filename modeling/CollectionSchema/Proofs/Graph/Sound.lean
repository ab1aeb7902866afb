import CollectionSchema.Proofs.Graph.Places
import Mathlib.Data.List.Forall2

/-!
# Declarations that have a graph

`Builds` says that building gives a graph, in whatever mode. Then nothing was found, which makes the
declarations `Sound`: each has a collection, no path is declared twice, every nested collection has
its parent among the others, and all class names are different. The graph is that of the kept
collections, one for each declaration (`Sound.forall₂_kept`).
-/

namespace CollectionSchema

open Survey

/-- Building the declarations gives the graph `g`. -/
def Builds (mode : Mode) (ds : List Declaration) (g : Graph) : Prop :=
  ∃ r, (buildGraph mode ds).value = .ok r ∧ r.graph = some g

/-- There is a graph just when nothing is found, and the mode makes no difference. -/
theorem builds_iff {mode : Mode} {ds : List Declaration} {g : Graph} :
    Builds mode ds g ↔ findings [] ds = [] ∧ g = graphOf ds := by
  cases mode with
  | collecting =>
    rw [Builds, value_buildGraph_collecting]
    by_cases h : findings [] ds = []
    · simp [h, eq_comm]
    · simp [h]
  | failFast =>
    rw [Builds, value_buildGraph_failFast]
    cases findings [] ds with
    | nil => simp [eq_comm]
    | cons f found => simp

/-- Nothing is wrong with some declarations. -/
structure Sound (ds : List Declaration) : Prop where
  faults : ∀ d ∈ ds, d.faults = []
  nodup : (ds.map (·.path)).Nodup
  parent : ∀ k ∈ kept ds, ∀ path, k.collection.path.parent? = some path →
    (atPath? (kept ds) path).isSome
  classNames : ((kept ds).map fun k => (namedAmong (kept ds) k).className).Nodup

/-- A declaration of a record type that has a serializer and nothing else. -/
def Declaration.plain (path record : String) : Declaration where
  path := path
  recordType := some { name := record, hasStructuralSerializer := true }

/-! ## Nothing is found -/

/-- A position at which the first pass reports nothing holds a declaration without faults and with a
new path. -/
theorem of_screenFaults_eq_nil {ds : List Declaration} {i : Nat} {d : Declaration}
    (hd : ds[i]? = some d) (h : screenFaults ds i = []) :
    d.faults = [] ∧ firstSound? (ds.take i) d.path = none := by
  rw [screenFaults, hd, List.append_eq_nil_iff] at h
  refine ⟨h.1, ?_⟩
  cases hc : d.collection? with
  | none => exact absurd h.1 (Declaration.collection?_eq_none.1 hc)
  | some c =>
    cases hfirst : firstSound? (ds.take i) d.path with
    | none => rfl
    | some first =>
      rw [hc, hfirst] at h
      cases h.2

theorem of_screened {ds : List Declaration}
    (h : ∀ i ∈ List.range ds.length, screenFaults ds i = []) :
    (∀ d ∈ ds, d.faults = []) ∧ (ds.map (·.path)).Nodup := by
  have hat : ∀ i d, ds[i]? = some d → d.faults = [] ∧ firstSound? (ds.take i) d.path = none :=
    fun i d hd => of_screenFaults_eq_nil hd
      (h i (List.mem_range.2 (List.getElem?_eq_some_iff.1 hd).1))
  have hfaults : ∀ d ∈ ds, d.faults = [] := by
    intro d hd
    obtain ⟨i, hi⟩ := List.mem_iff_getElem?.1 hd
    exact (hat i d hi).1
  refine ⟨hfaults, ?_⟩
  rw [List.Nodup, List.pairwise_map, List.pairwise_iff_getElem]
  intro i j hi hj hlt hpath
  have hnew := (hat j ds[j] (List.getElem?_eq_getElem hj)).2
  have hmem : ds[i] ∈ ds.take j :=
    List.mem_iff_getElem?.2 ⟨i, by rw [List.getElem?_take_of_lt hlt, List.getElem?_eq_getElem hi]⟩
  have htaken := List.find?_eq_none.1 hnew ds[i] hmem
  simp [hpath, hfaults ds[i] (List.getElem_mem hi)] at htaken

theorem failedPaths_of_findings {failed : List String} {ds : List Declaration}
    (h : findings failed ds = []) : failedPaths ds = [] := by
  simp only [findings, List.append_eq_nil_iff, List.flatMap_eq_nil_iff, List.map_eq_nil_iff] at h
  have hfaults := (of_screened h.1).1
  simpa [failedPaths] using hfaults

theorem of_linkFaults_eq_nil {ds : List Declaration} {c : Collection} {path : String}
    (hparent : c.path.parent? = some path) (h : linkFaults (numbers ds) [] c = []) :
    (atPath? (kept ds) path).isSome := by
  rw [linkFaults, hparent] at h
  simp only [List.contains_nil, Bool.or_false] at h
  split at h
  · next hfound =>
    rw [← find?_numbers_bind]
    obtain ⟨n, hn⟩ := Option.isSome_iff_exists.1 hfound
    have hlt := find?_numbers.1 hn
    rw [keptPaths, List.getElem?_map, Option.map_eq_some_iff] at hlt
    obtain ⟨k, hk, -⟩ := hlt
    rw [hn, Option.bind_some, hk]
    rfl
  · cases h

theorem of_conflictsAfter_eq_nil {earlier : List NamedCollection}
    {cs : List (Nat × NamedCollection)} (h : conflictsAfter earlier cs = [])
    (hearlier : (earlier.map (·.className)).Nodup) :
    ((earlier ++ cs.map (·.2)).map (·.className)).Nodup := by
  induction cs generalizing earlier with
  | nil => simpa using hearlier
  | cons p cs ih =>
    obtain ⟨i, c⟩ := p
    rw [conflictsAfter, List.append_eq_nil_iff, List.map_eq_nil_iff, conflictFaults] at h
    have hnew : ∀ e ∈ earlier, e.className ≠ c.className := by
      intro e he
      split at h
      · cases h.1
      · next hfind => simpa using List.find?_eq_none.1 hfind e he
    have hnext : ((earlier ++ [c]).map (·.className)).Nodup := by
      refine nodup_map_append_singleton.2 ⟨fun hmem => ?_, hearlier⟩
      obtain ⟨e, he, hsame⟩ := List.mem_map.1 hmem
      exact hnew e he hsame
    simpa using ih h.2 hnext

theorem sound_of_findings {ds : List Declaration} (h : findings [] ds = []) : Sound ds := by
  have hfailed := failedPaths_of_findings h
  simp only [findings, List.append_eq_nil_iff, List.flatMap_eq_nil_iff, List.map_eq_nil_iff,
    List.nil_append] at h
  obtain ⟨hscreen, hlink, hconflict⟩ := h
  obtain ⟨hfaults, hnodup⟩ := of_screened hscreen
  rw [hfailed] at hlink
  have hnames := of_conflictsAfter_eq_nil hconflict List.nodup_nil
  exact ⟨hfaults, hnodup, fun k hk path hparent => of_linkFaults_eq_nil hparent (hlink k hk),
    by simpa [Function.comp_def] using hnames⟩

theorem Builds.sound {mode : Mode} {ds : List Declaration} {g : Graph} (h : Builds mode ds g) :
    Sound ds :=
  sound_of_findings (builds_iff.1 h).1

theorem Builds.eq_graphOf {mode : Mode} {ds : List Declaration} {g : Graph}
    (h : Builds mode ds g) : g = graphOf ds :=
  (builds_iff.1 h).2

/-! ## One collection for each declaration -/

theorem forall₂_kept_of_nodup {ds : List Declaration} (hfaults : ∀ d ∈ ds, d.faults = [])
    (hnodup : (ds.map (·.path)).Nodup) :
    List.Forall₂ (fun d k => d.Yields k.collection) ds (kept ds) := by
  induction ds using List.reverseRecOn with
  | nil => exact .nil
  | append_singleton ds d ih =>
    rw [nodup_map_append_singleton] at hnodup
    have hrest := ih (fun e he => hfaults e (List.mem_append_left _ he)) hnodup.2
    have hd := hfaults d (List.mem_append_right _ (List.mem_singleton_self d))
    have hnew := firstSound?_of_not_mem hnodup.1
    cases hc : d.collection? with
    | none => exact absurd hd (Declaration.collection?_eq_none.1 hc)
    | some c =>
      have hlast : keptAfter? ds d = some c := by simp [keptAfter?, hnew, hc]
      rw [kept_append_singleton, hlast]
      exact List.rel_append hrest (.cons (Declaration.collection?_eq_some.1 hc) .nil)

namespace Sound

variable {ds : List Declaration}

theorem forall₂_kept (h : Sound ds) :
    List.Forall₂ (fun d k => d.Yields k.collection) ds (kept ds) :=
  forall₂_kept_of_nodup h.faults h.nodup

theorem exists_kept (h : Sound ds) {d : Declaration} (hd : d ∈ ds) :
    ∃ k ∈ kept ds, d.Yields k.collection := by
  obtain ⟨i, hi, rfl⟩ := List.getElem_of_mem hd
  have hlength := h.forall₂_kept.length_eq
  exact ⟨(kept ds)[i], List.getElem_mem _, h.forall₂_kept.get hi (hlength ▸ hi)⟩

theorem keptPaths_eq (h : Sound ds) : keptPaths ds = ds.map (·.path) := by
  have hpaths : List.Forall₂ (· = ·) (keptPaths ds) (ds.map (·.path)) := by
    rw [keptPaths, List.forall₂_map_left_iff, List.forall₂_map_right_iff]
    exact h.forall₂_kept.flip.imp fun _ _ hyields => hyields.pathText_eq
  rwa [List.forall₂_eq_eq_eq] at hpaths

/-- Above a nested collection stands the one whose path is in front of the last wildcard. -/
theorem exists_ownedBy (h : Sound ds) {k : Kept} (hk : k ∈ kept ds) {path : String}
    (hparent : k.collection.path.parent? = some path) :
    ∃ q ∈ kept ds, atPath? (kept ds) path = some q ∧
      ∃ rest, k.collection.path.OwnedBy q.collection.path rest := by
  obtain ⟨q, hq⟩ := Option.isSome_iff_exists.1 (h.parent k hk path hparent)
  obtain ⟨hmem, hpath⟩ := atPath?_eq_some.1 hq
  obtain ⟨owner, rest, hraw, howned⟩ := (wellFormed_of_mem_kept hk).ownedBy hparent
  have hsame : q.collection.path = owner :=
    (wellFormed_of_mem_kept hmem).eq_of_raw_eq howned.wellFormed (hpath.trans hraw.symm)
  exact ⟨q, hmem, hq, rest, hsame ▸ howned⟩

end Sound

end CollectionSchema
