import CollectionSchema.Proofs.Survey.Linking
import CollectionSchema.Proofs.Survey.Naming
import CollectionSchema.Proofs.Survey.Screening
import CollectionSchema.Proofs.Table

/-!
# Contributions of declarations

What a build finds for one declaration can be said without the order of the three passes:
`contribution` gives the faults of the declaration, or that its path was taken, or else what is
wrong with its parent and with its class name. `arrange_enacts` puts the passes together, and
`findings_at` shows that what is found for a position is exactly its contribution.
-/

namespace CollectionSchema

namespace Survey

open Builder

/-! ## The numbers of the kept collections -/

def keptPaths (ds : List Declaration) : List String :=
  (kept ds).map (·.collection.pathText)

/-- The numbers of the kept collections by their paths. -/
def numbers (ds : List Declaration) : Table String Nat :=
  .ofList (keptPaths ds).zipIdx

theorem nodup_zipIdx_keptPaths (ds : List Declaration) :
    ((keptPaths ds).zipIdx.map (·.1)).Nodup := by
  rw [List.zipIdx_map_fst]
  exact nodup_kept_paths ds

theorem find?_numbers {ds : List Declaration} {path : String} {n : Nat} :
    (numbers ds).find? path = some n ↔ (keptPaths ds)[n]? = some path := by
  rw [numbers, Table.find?_ofList_eq_some (nodup_zipIdx_keptPaths ds),
    List.mk_mem_zipIdx_iff_getElem?]

theorem find?_numbers_eq_none {ds : List Declaration} {path : String} :
    (numbers ds).find? path = none ↔ firstSound? ds path = none := by
  rw [numbers, Table.find?_ofList_eq_none (nodup_zipIdx_keptPaths ds), List.zipIdx_map_fst,
    ← find?_kept_eq_none, List.find?_eq_none, keptPaths, List.mem_map]
  simp

/-- A path that some declaration has is kept, or the path of a faulty declaration. -/
theorem known_iff (failed : List String) (ds : List Declaration) (path : String) :
    (((numbers ds).find? path).isSome || (failed ++ failedPaths ds).contains path) =
      (failed ++ ds.map (·.path)).contains path := by
  have hkept : ((numbers ds).find? path).isSome ↔ ∃ d ∈ ds, d.faults = [] ∧ d.path = path := by
    rw [Option.isSome_iff_ne_none, ne_eq, find?_numbers_eq_none, firstSound?]
    simp
  have hfailed : path ∈ failedPaths ds ↔ ∃ d ∈ ds, d.faults ≠ [] ∧ d.path = path := by
    simp [failedPaths, and_assoc]
  rw [Bool.eq_iff_iff, Bool.or_eq_true, hkept]
  simp only [List.contains_iff_mem, List.mem_append, hfailed, List.mem_map]
  constructor
  · rintro (⟨d, hd, -, hpath⟩ | hfail | ⟨d, hd, -, hpath⟩)
    · exact .inr ⟨d, hd, hpath⟩
    · exact .inl hfail
    · exact .inr ⟨d, hd, hpath⟩
  · rintro (hfail | ⟨d, hd, hpath⟩)
    · exact .inr (.inl hfail)
    · by_cases hfaults : d.faults = []
      · exact .inl ⟨d, hd, hfaults, hpath⟩
      · exact .inr (.inr ⟨d, hd, hfaults, hpath⟩)

/-! ## Contributions -/

/-- What is wrong with the place of a collection: its path has a wildcard, but the parent path is
none of those that are known. -/
def orphanFaults (known : List String) (c : Collection) : List Diagnostic :=
  if c.path.isNested then
    ((c.path.parent?.filter fun parent => !known.contains parent).map (orphan c)).toList
  else []

theorem orphanFaults_congr {known other : List String} (h : ∀ path, path ∈ known ↔ path ∈ other) :
    orphanFaults known = orphanFaults other := by
  funext c
  have hcontains : ∀ path, known.contains path = other.contains path := by
    intro path
    rw [Bool.eq_iff_iff, List.contains_iff_mem, List.contains_iff_mem, h]
  simp only [orphanFaults, hcontains]

theorem linkFaults_numbers (failed : List String) (ds : List Declaration) {c : Collection}
    (h : c.path.WellFormed) : linkFaults (numbers ds) (failed ++ failedPaths ds) c =
      orphanFaults (failed ++ ds.map (·.path)) c := by
  rw [linkFaults, orphanFaults, ← h.parent?_isSome]
  cases c.path.parent? with
  | none => rfl
  | some parentPath =>
    simp only [known_iff]
    cases hknown : (failed ++ ds.map (·.path)).contains parentPath <;>
      simp only [Option.isSome_some, Option.filter, hknown] <;> rfl

/-- A kept collection with the class name that it has among all that are kept. -/
def namedAmong (all : List Kept) (k : Kept) : NamedCollection :=
  (entryAmong all k).named

/-- What the declaration at a position contributes to the diagnostics of all: its faults, if there
are any; or else that an earlier declaration without faults has its path; or else that its parent
path is not known, and that an earlier collection that is kept has its class name. -/
def contribution (known : List String) (ds : List Declaration) (i : Nat) : List Diagnostic :=
  match ds[i]? with
  | none => []
  | some d =>
    match d.collection?, firstSound? (ds.take i) d.path with
    | none, _ => d.faults
    | some c, some first => [duplicatePath first.site c]
    | some c, none => orphanFaults known c ++
        conflictFaults ((kept (ds.take i)).map (namedAmong (kept ds))) (namedAmong (kept ds) ⟨i, c⟩)

theorem contribution_congr {known other : List String} (h : ∀ path, path ∈ known ↔ path ∈ other) :
    contribution known = contribution other := by
  funext ds i
  rw [contribution, contribution, orphanFaults_congr h]

/-- What is said of the collection that is kept of the declaration at a position. -/
def atKept (ds : List Declaration) (f : Kept → List Diagnostic) (i : Nat) : List Diagnostic :=
  ((keptAt? ds i).map (Kept.mk i)).elim [] f

theorem flatMap_kept (ds : List Declaration) (f : Kept → List Diagnostic) :
    ((kept ds).flatMap fun k => (f k).map (k.index, ·)) =
      (List.range ds.length).flatMap fun i => (atKept ds f i).map (i, ·) := by
  unfold kept
  induction List.range ds.length with
  | nil => rfl
  | cons i positions ih =>
    rw [List.flatMap_cons, ← ih, atKept]
    cases hk : keptAt? ds i with
    | none =>
      rw [List.filterMap_cons_none (by rw [hk]; rfl)]
      rfl
    | some c =>
      rw [List.filterMap_cons_some (b := ⟨i, c⟩) (by rw [hk]; rfl)]
      rfl

theorem conflictsAfter_append (earlier : List NamedCollection) (cs : List (Nat × NamedCollection))
    (p : Nat × NamedCollection) : conflictsAfter earlier (cs ++ [p]) =
      conflictsAfter earlier cs ++
        (conflictFaults (earlier ++ cs.map (·.2)) p.2).map (p.1, ·) := by
  induction cs generalizing earlier with
  | nil => simp [conflictsAfter]
  | cons q cs ih =>
    rw [List.cons_append, conflictsAfter, conflictsAfter, ih]
    simp

theorem conflictsAfter_kept (ds : List Declaration) (name : Kept → NamedCollection) :
    conflictsAfter [] ((kept ds).map fun k => (k.index, name k)) =
      (kept ds).flatMap fun k =>
        (conflictFaults ((kept (ds.take k.index)).map name) (name k)).map (k.index, ·) := by
  induction ds using List.reverseRecOn with
  | nil => rfl
  | append_singleton ds d ih =>
    have hbefore : ((kept ds).flatMap fun k =>
        (conflictFaults ((kept (ds.take k.index)).map name) (name k)).map (k.index, ·)) =
        (kept ds).flatMap fun k =>
          (conflictFaults ((kept ((ds ++ [d]).take k.index)).map name) (name k)).map
            (k.index, ·) := by
      refine List.flatMap_congr fun k hk => ?_
      obtain ⟨e, he, -⟩ := exists_of_mem_kept hk
      have hlt : k.index < ds.length := (List.getElem?_eq_some_iff.1 he).1
      rw [List.take_append_of_le_length (Nat.le_of_lt hlt)]
    rw [kept_append_singleton, List.map_append, List.flatMap_append, ← hbefore, ← ih]
    cases keptAfter? ds d with
    | none => simp
    | some c => simp [conflictsAfter_append, Function.comp_def]

theorem contribution_eq (failed : List String) (ds : List Declaration) (i : Nat) :
    contribution (failed ++ ds.map (·.path)) ds i = screenFaults ds i ++
      (atKept ds (fun k => linkFaults (numbers ds) (failed ++ failedPaths ds) k.collection) i ++
        atKept ds (fun k => conflictFaults ((kept (ds.take k.index)).map (namedAmong (kept ds)))
          (namedAmong (kept ds) k)) i) := by
  unfold contribution screenFaults atKept keptAt?
  cases ds[i]? with
  | none => rfl
  | some d =>
    cases hc : d.collection? with
    | none =>
      have hkept : keptAfter? (ds.take i) d = none := by simp [keptAfter?, hc]
      simp [hc, hkept]
    | some c =>
      have hyields := Declaration.collection?_eq_some.1 hc
      cases hfirst : firstSound? (ds.take i) d.path with
      | some first =>
        have hkept : keptAfter? (ds.take i) d = none := by simp [keptAfter?, hfirst]
        simp [hc, hfirst, hkept, hyields.faults_eq]
      | none =>
        have hkept : keptAfter? (ds.take i) d = some c := by simp [keptAfter?, hfirst, hc]
        simp [hc, hfirst, hkept, hyields.faults_eq,
          linkFaults_numbers failed ds hyields.passes.wellFormed]

/-! ## The passes together -/

/-- The hierarchy of the kept collections, each nested one below the collection of its parent path
if that is kept. -/
def hierarchyOf (ds : List Declaration) : Hierarchy where
  entries := (kept ds).map (entryAmong (kept ds))
  links := .ofAttachments (linksFrom (numbers ds) 0 (kept ds))

/-- What a build finds, pass by pass. -/
def findings (failed : List String) (ds : List Declaration) : List (Nat × Diagnostic) :=
  ((List.range ds.length).flatMap fun i => (screenFaults ds i).map (i, ·)) ++
    (((kept ds).flatMap fun k =>
        (linkFaults (numbers ds) (failed ++ failedPaths ds) k.collection).map (k.index, ·)) ++
      conflictsAfter [] ((kept ds).map fun k => (k.index, namedAmong (kept ds) k)))

theorem arrange_enacts (known : List String) (ds : List Declaration) :
    Enacts known (arrange ds) (hierarchyOf ds) (.noted (findings known ds) (failedPaths ds)) := by
  have hscreen := screenFrom_enacts known [] ds
  rw [List.length_nil, List.nil_append, ← List.range_eq_range'] at hscreen
  have hlink := linkFrom_enacts (numbers ds) (known ++ failedPaths ds)
    (h := .ofCollections ((kept ds).map (·.collection))) (i := 0) (kept ds)
    (fun _ _ => rfl) fun _ => wellFormed_of_mem_kept
  have hqualify := value_qualifyFrom (kept ds) [] (kept ds)
    (h := attachAll (.ofCollections ((kept ds).map (·.collection)))
      (linksFrom (numbers ds) 0 (kept ds)))
    (by simp [attachAll, Hierarchy.ofCollections, Function.comp_def])
  have hconflicts := conflictsFrom_enacts (known ++ failedPaths ds) [] [] (fun _ => rfl)
    ((kept ds).map fun k => (k.index, namedAmong (kept ds) k))
  have hnamed : ((kept ds).map (·.index)).zip
      (((kept ds).map (entryAmong (kept ds))).map Entry.named) =
        (kept ds).map fun k => (k.index, namedAmong (kept ds) k) := by
    rw [List.map_map, List.zip_map']
    rfl
  have hnumbers : Table.ofList (((kept ds).map (·.collection)).map Collection.pathText).zipIdx =
      numbers ds := by
    rw [List.map_map]
    rfl
  unfold arrange
  rw [findings, Effects.noted_append, Effects.noted_append]
  refine hscreen.bind ?_
  simp only [hnumbers]
  refine hlink.bind ?_
  refine Enacts.bind_silent (Enacts.ofReport hqualify) ?_
  rw [Effects.noted, Effects.noted, List.append_nil, List.nil_append, hnamed]
  exact hconflicts.bind_pure

/-- What was found for a position among the findings for some positions. -/
theorem found_at {α : Type} (positions : List Nat) (hnodup : positions.Nodup) (f : Nat → List α)
    (i : Nat) : ((positions.flatMap fun j => (f j).map (j, ·)).filter (·.1 = i)).map (·.2) =
      if i ∈ positions then f i else [] := by
  induction positions with
  | nil => simp
  | cons j positions ih =>
    rw [List.nodup_cons] at hnodup
    rw [List.flatMap_cons, List.filter_append, List.map_append, ih hnodup.2, List.filter_map,
      List.map_map]
    by_cases hj : j = i
    · subst hj
      simp [hnodup.1, Function.comp_def]
    · simp [hj, Ne.symm hj, Function.comp_def]

theorem contribution_of_length_le (known : List String) {ds : List Declaration} {i : Nat}
    (h : ds.length ≤ i) : contribution known ds i = [] := by
  rw [contribution, List.getElem?_eq_none h]

/-- What is found for a position is its contribution. -/
theorem findings_at (failed : List String) (ds : List Declaration) (i : Nat) :
    ((findings failed ds).filter (·.1 = i)).map (·.2) =
      contribution (failed ++ ds.map (·.path)) ds i := by
  rw [findings, conflictsAfter_kept, flatMap_kept ds fun k => linkFaults _ _ k.collection,
    flatMap_kept ds fun k => conflictFaults _ _, List.filter_append, List.filter_append,
    List.map_append, List.map_append, found_at _ List.nodup_range, found_at _ List.nodup_range,
    found_at _ List.nodup_range]
  by_cases hi : i < ds.length
  · simp only [List.mem_range, hi, if_true]
    rw [contribution_eq]
  · rw [contribution_of_length_le _ (Nat.le_of_not_lt hi)]
    simp [hi]

theorem mem_contribution_of_mem_findings {failed : List String} {ds : List Declaration}
    {p : Nat × Diagnostic} (h : p ∈ findings failed ds) :
    p.2 ∈ contribution (failed ++ ds.map (·.path)) ds p.1 := by
  rw [← findings_at]
  exact List.mem_map_of_mem (List.mem_filter.2 ⟨h, by simp⟩)

theorem lt_of_mem_findings {failed : List String} {ds : List Declaration} {p : Nat × Diagnostic}
    (h : p ∈ findings failed ds) : p.1 < ds.length := by
  by_contra hge
  have hat := mem_contribution_of_mem_findings h
  rw [contribution_of_length_le _ (Nat.le_of_not_lt hge)] at hat
  cases hat

theorem findings_eq_nil (failed : List String) (ds : List Declaration) :
    findings failed ds = [] ↔
      (List.range ds.length).flatMap (contribution (failed ++ ds.map (·.path)) ds) = [] := by
  rw [List.flatMap_eq_nil_iff]
  constructor
  · intro h i _
    rw [← findings_at, h]
    rfl
  · intro h
    rw [List.eq_nil_iff_forall_not_mem]
    intro p hp
    have hat := mem_contribution_of_mem_findings hp
    rw [h p.1 (List.mem_range.2 (lt_of_mem_findings hp))] at hat
    cases hat

/-! ## The order of discovery -/

/-- The problems of some declarations in the order in which a build meets them: the faults of each
declaration and the paths that are taken, then the parents that are missing, then the class names
that are taken. -/
def discovered (ds : List Declaration) : List Diagnostic :=
  (List.range ds.length).flatMap (screenFaults ds) ++
    ((kept ds).flatMap (fun k => orphanFaults (ds.map (·.path)) k.collection) ++
      (kept ds).flatMap fun k =>
        conflictFaults ((kept (ds.take k.index)).map (namedAmong (kept ds)))
          (namedAmong (kept ds) k))

theorem map_snd_findings (ds : List Declaration) :
    (findings [] ds).map (·.2) = discovered ds := by
  have hlinks : ∀ k ∈ kept ds, linkFaults (numbers ds) ([] ++ failedPaths ds) k.collection =
      orphanFaults (ds.map (·.path)) k.collection := by
    intro k hk
    exact linkFaults_numbers [] ds (wellFormed_of_mem_kept hk)
  rw [findings, conflictsAfter_kept]
  simp only [List.map_append, List.map_flatMap, List.map_map, Function.comp_def, List.map_id']
  rw [List.flatMap_congr hlinks, discovered]

end Survey

end CollectionSchema
