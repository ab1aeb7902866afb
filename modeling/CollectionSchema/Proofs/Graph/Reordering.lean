import CollectionSchema.Proofs.Graph.Collections
import Mathlib.Data.Finset.Dedup
import Mathlib.Data.Finset.Card
import Mathlib.Data.List.Perm.Basic

/-!
# Declarations in another order

A build keeps the first declaration of a path and lets the first owner of a class name have it, so
that its diagnostics depend on the order of the declarations. The verdict does not: declarations in
another order have a graph just when they have one in this order. Where no path is declared twice,
only the conflicts of class names depend on the order, and their number does not
(`buildGraph_errors_perm`).
-/

namespace CollectionSchema

open Survey

/-! ## The errors of a build and what is discovered -/

theorem filter_lt_succ_perm {α : Type} (l : List (Nat × α)) (n : Nat) :
    (l.filter (·.1 < n) ++ l.filter (·.1 = n)).Perm (l.filter (·.1 < n + 1)) := by
  have hparts := List.filter_append_perm (fun p : Nat × α => decide (p.1 < n))
    (l.filter (·.1 < n + 1))
  rw [List.filter_filter, List.filter_filter] at hparts
  have hbelow : ∀ p : Nat × α, (decide (p.1 < n) && decide (p.1 < n + 1)) = decide (p.1 < n) := by
    intro p
    by_cases h : p.1 < n
    · simp [h, Nat.lt_succ_of_lt h]
    · simp [h]
  have hat : ∀ p : Nat × α, (!decide (p.1 < n) && decide (p.1 < n + 1)) = decide (p.1 = n) := by
    intro p
    rw [Bool.eq_iff_iff]
    simp only [Bool.and_eq_true, Bool.not_eq_true', decide_eq_false_iff_not, decide_eq_true_eq]
    omega
  simpa only [hbelow, hat] using hparts

theorem flatMap_filter_perm {α : Type} (l : List (Nat × α)) (n : Nat) :
    ((List.range n).flatMap fun i => l.filter (·.1 = i)).Perm (l.filter (·.1 < n)) := by
  induction n with
  | zero => simp
  | succ n ih =>
    rw [List.range_succ, List.flatMap_append, List.flatMap_singleton]
    exact (ih.append_right _).trans (filter_lt_succ_perm l n)

namespace Survey

theorem contributions_perm (ds : List Declaration) :
    ((List.range ds.length).flatMap (contribution (ds.map (·.path)) ds)).Perm (discovered ds) := by
  have hat : ∀ i ∈ List.range ds.length, contribution (ds.map (·.path)) ds i =
      ((findings [] ds).filter (·.1 = i)).map (·.2) := by
    intro i _
    rw [findings_at, List.nil_append]
  have hall : (findings [] ds).filter (·.1 < ds.length) = findings [] ds := by
    rw [List.filter_eq_self]
    intro p hp
    exact decide_eq_true (lt_of_mem_findings hp)
  have hperm := (flatMap_filter_perm (findings [] ds) ds.length).map (·.2)
  rw [hall, map_snd_findings, List.map_flatMap] at hperm
  rwa [List.flatMap_congr hat]

end Survey

/-! ## Conflicts -/

namespace Survey

/-- Either a class name is new, or a conflict is reported for it. -/
theorem length_conflictFaults (earlier : List NamedCollection) (c : NamedCollection) :
    (conflictFaults earlier c).length + ((earlier ++ [c]).map (·.className)).toFinset.card =
      (earlier.map (·.className)).toFinset.card + 1 := by
  have hnames : ((earlier ++ [c]).map (·.className)).toFinset =
      insert c.className (earlier.map (·.className)).toFinset := by
    ext name
    simp
  rw [hnames, conflictFaults]
  cases hfind : earlier.find? (·.className = c.className) with
  | some owner =>
    have hmem : c.className ∈ (earlier.map (·.className)).toFinset := by
      rw [List.mem_toFinset, List.mem_map]
      exact ⟨owner, List.mem_of_find?_eq_some hfind, by simpa using List.find?_some hfind⟩
    rw [Finset.insert_eq_of_mem hmem, List.length_singleton, Nat.add_comm]
  | none =>
    have hmem : c.className ∉ (earlier.map (·.className)).toFinset := by
      rw [List.mem_toFinset, List.mem_map]
      rintro ⟨owner, howner, hname⟩
      simpa [hname] using List.find?_eq_none.1 hfind owner howner
    rw [Finset.card_insert_of_notMem hmem, List.length_nil, Nat.zero_add]

theorem length_conflictsAfter (earlier : List NamedCollection)
    (cs : List (Nat × NamedCollection)) :
    (conflictsAfter earlier cs).length +
      ((earlier ++ cs.map (·.2)).map (·.className)).toFinset.card =
        (earlier.map (·.className)).toFinset.card + cs.length := by
  -- Each collection either is a conflict or brings a class name that the earlier ones do not have.
  induction cs generalizing earlier with
  | nil => simp [conflictsAfter]
  | cons p cs ih =>
    obtain ⟨i, c⟩ := p
    have hhead := length_conflictFaults earlier c
    have hrest := ih (earlier ++ [c])
    rw [List.append_assoc, List.singleton_append] at hrest
    simp only [conflictsAfter, List.length_append, List.length_map, List.map_cons, List.length_cons]
    omega

theorem code_of_mem_conflictsAfter {earlier : List NamedCollection}
    {cs : List (Nat × NamedCollection)} {p : Nat × Diagnostic} (h : p ∈ conflictsAfter earlier cs) :
    p.2.code = .conflictingClassName := by
  induction cs generalizing earlier with
  | nil => cases h
  | cons q cs ih =>
    rw [conflictsAfter, List.mem_append] at h
    rcases h with h | h
    · obtain ⟨d, hd, rfl⟩ := List.mem_map.1 h
      unfold conflictFaults at hd
      split at hd
      · rw [List.mem_singleton.1 hd]
        rfl
      · cases hd
    · exact ih h

/-- The conflicts of class names among the kept collections. -/
def conflicts (ds : List Declaration) : List Diagnostic :=
  (conflictsAfter [] ((kept ds).map fun k => (k.index, namedAmong (kept ds) k))).map (·.2)

theorem code_of_mem_conflicts {ds : List Declaration} {d : Diagnostic} (h : d ∈ conflicts ds) :
    d.code = .conflictingClassName := by
  obtain ⟨p, hp, rfl⟩ := List.mem_map.1 h
  exact code_of_mem_conflictsAfter hp

theorem length_conflicts (ds : List Declaration) :
    (conflicts ds).length +
      ((collections ds).map fun c => (namedIn (collections ds) c).className).toFinset.card =
        (collections ds).length := by
  have hlength :=
    length_conflictsAfter [] ((kept ds).map fun k => (k.index, namedAmong (kept ds) k))
  have hnames : (((kept ds).map fun k => (k.index, namedAmong (kept ds) k)).map (·.2)).map
      (·.className) = (collections ds).map fun c => (namedIn (collections ds) c).className := by
    simp only [collections, List.map_map, Function.comp_def, namedAmong_eq]
  rw [List.nil_append, hnames] at hlength
  simpa [conflicts, collections] using hlength

theorem namedIn_perm {cs ds : List Collection} (h : cs.Perm ds) (c : Collection) :
    namedIn cs c = namedIn ds c := by
  rw [namedIn, namedIn, h.countP_eq]

theorem length_conflicts_perm {ds es : List Declaration}
    (h : (collections ds).Perm (collections es)) :
    (conflicts ds).length = (conflicts es).length := by
  have hd := length_conflicts ds
  have he := length_conflicts es
  have hnames : ((collections ds).map fun c => (namedIn (collections ds) c).className).toFinset =
      ((collections es).map fun c => (namedIn (collections es) c).className).toFinset := by
    simp only [namedIn_perm h]
    exact List.toFinset_eq_of_perm _ _ (h.map _)
  rw [hnames, h.length_eq] at hd
  omega

/-! ## Everything else -/

/-- What is wrong with each declaration by itself and with the parents of the collections. -/
def unordered (ds : List Declaration) : List Diagnostic :=
  ds.flatMap (·.faults) ++ (ds.filterMap (·.collection?)).flatMap (orphanFaults (ds.map (·.path)))

theorem unordered_perm {ds es : List Declaration} (h : ds.Perm es) :
    (unordered ds).Perm (unordered es) := by
  rw [unordered, unordered, orphanFaults_congr fun _ => (h.map (·.path)).mem_iff]
  exact (h.flatMap_right _).append ((h.filterMap _).flatMap_right _)

theorem screenFaults_append {before : List Declaration} {i : Nat} (h : i < before.length)
    (rest : List Declaration) : screenFaults (before ++ rest) i = screenFaults before i := by
  rw [screenFaults, screenFaults, List.getElem?_append_left h,
    List.take_append_of_le_length (Nat.le_of_lt h)]

theorem flatMap_screenFaults {ds : List Declaration} (h : (ds.map (·.path)).Nodup) :
    (List.range ds.length).flatMap (screenFaults ds) = ds.flatMap (·.faults) := by
  induction ds using List.reverseRecOn with
  | nil => rfl
  | append_singleton ds d ih =>
    rw [nodup_map_append_singleton] at h
    -- The last declaration changes nothing for the positions before it, and its path is new.
    have hbefore : ∀ i ∈ List.range ds.length, screenFaults (ds ++ [d]) i = screenFaults ds i := by
      intro i hi
      exact screenFaults_append (List.mem_range.1 hi) [d]
    rw [List.length_append, List.length_singleton, List.range_succ, List.flatMap_append,
      List.flatMap_congr hbefore, ih h.2, List.flatMap_append, List.flatMap_singleton,
      List.flatMap_singleton, screenFaults_length, firstSound?_of_not_mem h.1]
    cases d.collection? <;> simp

/-- Where no path is declared twice, only conflicts depend on the order of the declarations. -/
theorem discovered_of_nodup {ds : List Declaration} (h : (ds.map (·.path)).Nodup) :
    discovered ds = unordered ds ++ conflicts ds := by
  have hconflicts : conflicts ds = (kept ds).flatMap fun k => conflictFaults
      ((kept (ds.take k.index)).map (namedAmong (kept ds))) (namedAmong (kept ds) k) := by
    rw [conflicts, conflictsAfter_kept]
    simp only [List.map_flatMap, List.map_map, Function.comp_def, List.map_id']
  have horphans : (kept ds).flatMap (fun k => orphanFaults (ds.map (·.path)) k.collection) =
      (ds.filterMap (·.collection?)).flatMap (orphanFaults (ds.map (·.path))) := by
    rw [← collections_of_nodup h, collections, List.flatMap_map]
  rw [discovered, flatMap_screenFaults h, horphans, ← hconflicts, ← List.append_assoc, unordered]

theorem filter_discovered {ds : List Declaration} (h : (ds.map (·.path)).Nodup) :
    (discovered ds).filter (·.code ≠ .conflictingClassName) =
      (unordered ds).filter (·.code ≠ .conflictingClassName) := by
  have hnone : (conflicts ds).filter (·.code ≠ .conflictingClassName) = [] := by
    rw [List.filter_eq_nil_iff]
    intro d hd
    simp [code_of_mem_conflicts hd]
  rw [discovered_of_nodup h, List.filter_append, hnone, List.append_nil]

theorem countP_discovered {ds : List Declaration} (h : (ds.map (·.path)).Nodup) :
    (discovered ds).countP (·.code = .conflictingClassName) =
      (unordered ds).countP (·.code = .conflictingClassName) + (conflicts ds).length := by
  have hall : (conflicts ds).countP (·.code = .conflictingClassName) = (conflicts ds).length := by
    rw [List.countP_eq_length]
    intro d hd
    exact decide_eq_true (code_of_mem_conflicts hd)
  rw [discovered_of_nodup h, List.countP_append, hall]

end Survey

/-! ## Builds -/

theorem findings_eq_nil_iff (ds : List Declaration) : findings [] ds = [] ↔ discovered ds = [] := by
  rw [← map_snd_findings, List.map_eq_nil_iff]

theorem exists_buildGraph_collecting (ds : List Declaration) :
    ∃ r, (buildGraph .collecting ds).value = .ok r ∧ r.errors.Perm (discovered ds) ∧
      (r.graph.isSome ↔ discovered ds = []) := by
  refine ⟨_, value_buildGraph_collecting ds, ?_⟩
  by_cases h : findings [] ds = []
  · have hnil := (findings_eq_nil_iff ds).1 h
    simp [h, hnil]
  · have hne := mt (findings_eq_nil_iff ds).2 h
    simpa [h, hne] using contributions_perm ds

theorem discovered_eq_nil_of_perm {ds es : List Declaration} (h : ds.Perm es)
    (hds : discovered ds = []) : discovered es = [] := by
  -- Accepted declarations have distinct paths, so that their order matters for conflicts at most.
  have hpaths := (sound_of_findings ((findings_eq_nil_iff ds).2 hds)).nodup
  have hpaths' := (h.map (·.path)).nodup_iff.1 hpaths
  rw [discovered_of_nodup hpaths, List.append_eq_nil_iff] at hds
  have hunordered := unordered_perm h
  have hlength := length_conflicts_perm (collections_perm hpaths h)
  rw [hds.1] at hunordered
  rw [hds.2] at hlength
  rw [discovered_of_nodup hpaths', ← hunordered.nil_eq, List.nil_append]
  exact List.eq_nil_of_length_eq_zero hlength.symm

/-- Declarations in another order have a graph just when they have one in this order. If no path is
declared twice, the errors are the same ones in some order, but for conflicts of class names; of
these there are as many. -/
theorem buildGraph_errors_perm {ds es : List Declaration} (h : ds.Perm es) :
    ∃ r s, (buildGraph .collecting ds).value = .ok r ∧ (buildGraph .collecting es).value = .ok s ∧
      (r.graph.isSome ↔ s.graph.isSome) ∧
      ((ds.map (·.path)).Nodup →
        (r.errors.filter (·.code ≠ .conflictingClassName)).Perm
          (s.errors.filter (·.code ≠ .conflictingClassName)) ∧
        r.errors.countP (·.code = .conflictingClassName) =
          s.errors.countP (·.code = .conflictingClassName)) := by
  obtain ⟨r, hr, hrerrors, hrgraph⟩ := exists_buildGraph_collecting ds
  obtain ⟨s, hs, hserrors, hsgraph⟩ := exists_buildGraph_collecting es
  refine ⟨r, s, hr, hs, ?_, fun hpaths => ?_⟩
  · rw [hrgraph, hsgraph]
    exact ⟨discovered_eq_nil_of_perm h, discovered_eq_nil_of_perm h.symm⟩
  have hpaths' := (h.map (·.path)).nodup_iff.1 hpaths
  have hunordered := unordered_perm h
  constructor
  · have hfilter := hunordered.filter (·.code ≠ .conflictingClassName)
    rw [← filter_discovered hpaths, ← filter_discovered hpaths'] at hfilter
    exact ((hrerrors.filter _).trans hfilter).trans (hserrors.filter _).symm
  · rw [hrerrors.countP_eq, hserrors.countP_eq, countP_discovered hpaths,
      countP_discovered hpaths', hunordered.countP_eq,
      length_conflicts_perm (collections_perm hpaths h)]

/-- An orphan, two collections with one class name, and a declaration without a record type. -/
def faultyOnes : List Declaration :=
  [.plain "shows/*/cast" "Actor", .plain "movies" "Movie", .plain "films" "movie",
    { path := "people" }]

theorem errors_faultyOnes :
    faultyOnes.Perm faultyOnes.reverse ∧ (faultyOnes.map (·.path)).Nodup ∧
      ∃ r s, (buildGraph .collecting faultyOnes).value = .ok r ∧
        (buildGraph .collecting faultyOnes.reverse).value = .ok s ∧
        (r.errors.filter (·.code ≠ .conflictingClassName)).Perm
          (s.errors.filter (·.code ≠ .conflictingClassName)) ∧
        r.errors.countP (·.code = .conflictingClassName) =
          s.errors.countP (·.code = .conflictingClassName) := by
  have hperm := faultyOnes.reverse_perm.symm
  have hpaths : (faultyOnes.map (·.path)).Nodup := by decide
  obtain ⟨r, s, hr, hs, -, herrors⟩ := buildGraph_errors_perm hperm
  exact ⟨hperm, hpaths, r, s, hr, hs, herrors hpaths⟩

end CollectionSchema
