import CollectionSchema.Proofs.Declaration.Faults
import CollectionSchema.Proofs.Table
import Mathlib.Data.List.Basic
import Mathlib.Data.List.Induction

/-!
# The first pass of a build

The first pass keeps the declarations without faults, but of several with one path only the first.
`keptAt?` says this of one position of the list and `kept` lists all that are kept.
`screenFrom_enacts` shows that the pass gives these and notes the paths of the faulty declarations,
and that it finds for each position its faults or that its path was taken (`screenFaults`).
-/

namespace CollectionSchema

namespace Survey

/-! ## What is kept -/

/-- The first of some declarations that has a path and no faults. -/
def firstSound? (ds : List Declaration) (path : String) : Option Declaration :=
  ds.find? fun d => d.faults.isEmpty && d.path = path

theorem firstSound?_of_not_mem {ds : List Declaration} {path : String}
    (h : path ∉ ds.map (·.path)) : firstSound? ds path = none := by
  rw [firstSound?, List.find?_eq_none]
  intro d hd
  have hne : d.path ≠ path := by
    rintro rfl
    exact h (List.mem_map_of_mem hd)
  simp [hne]

/-- The collection of a declaration that comes behind others, unless they have taken its path. -/
def keptAfter? (before : List Declaration) (d : Declaration) : Option Collection :=
  if (firstSound? before d.path).isSome then none else d.collection?

/-- The collection that is kept of the declaration at a position. -/
def keptAt? (ds : List Declaration) (i : Nat) : Option Collection :=
  ds[i]?.bind (keptAfter? (ds.take i))

/-- The collections that are kept, with the positions of their declarations. -/
def kept (ds : List Declaration) : List Kept :=
  (List.range ds.length).filterMap fun i => (keptAt? ds i).map (Kept.mk i)

def failedPaths (ds : List Declaration) : List String :=
  (ds.filter (!·.faults.isEmpty)).map (·.path)

theorem keptAt?_append {before : List Declaration} {i : Nat} (h : i < before.length)
    (rest : List Declaration) : keptAt? (before ++ rest) i = keptAt? before i := by
  rw [keptAt?, keptAt?, List.getElem?_append_left h, List.take_append_of_le_length (Nat.le_of_lt h)]

theorem keptAt?_length (before : List Declaration) (d : Declaration) (rest : List Declaration) :
    keptAt? (before ++ d :: rest) before.length = keptAfter? before d := by
  simp [keptAt?]

theorem kept_append_singleton (before : List Declaration) (d : Declaration) :
    kept (before ++ [d]) =
      kept before ++ ((keptAfter? before d).map (Kept.mk before.length)).toList := by
  have hbefore : ∀ i ∈ List.range before.length,
      (keptAt? (before ++ [d]) i).map (Kept.mk i) = (keptAt? before i).map (Kept.mk i) :=
    fun i hi => by rw [keptAt?_append (List.mem_range.1 hi)]
  rw [kept, List.length_append, List.length_singleton, List.range_succ, List.filterMap_append,
    List.filterMap_congr hbefore, ← kept]
  cases h : keptAfter? before d with
  | none => simp [keptAt?_length, h]
  | some c => simp [keptAt?_length, h]

theorem mem_kept {ds : List Declaration} {k : Kept} :
    k ∈ kept ds ↔ keptAt? ds k.index = some k.collection := by
  simp only [kept, List.mem_filterMap, List.mem_range, Option.map_eq_some_iff]
  constructor
  · rintro ⟨i, -, c, hc, rfl⟩
    exact hc
  · intro h
    have hlt : k.index < ds.length := by
      refine Classical.byContradiction fun hge => ?_
      rw [keptAt?, List.getElem?_eq_none (Nat.le_of_not_lt hge)] at h
      cases h
    exact ⟨k.index, hlt, k.collection, h, rfl⟩

theorem exists_of_mem_kept {ds : List Declaration} {k : Kept} (h : k ∈ kept ds) :
    ∃ d, ds[k.index]? = some d ∧ d.Yields k.collection := by
  rw [mem_kept, keptAt?, Option.bind_eq_some_iff] at h
  obtain ⟨d, hd, hk⟩ := h
  unfold keptAfter? at hk
  split at hk
  · cases hk
  · exact ⟨d, hd, Declaration.collection?_eq_some.1 hk⟩

theorem wellFormed_of_mem_kept {ds : List Declaration} {k : Kept} (h : k ∈ kept ds) :
    k.collection.path.WellFormed := by
  obtain ⟨d, -, hyields⟩ := exists_of_mem_kept h
  exact hyields.passes.wellFormed

end Survey

theorem Declaration.Yields.pathText_eq {d : Declaration} {c : Collection} (h : d.Yields c) :
    c.pathText = d.path :=
  (Path.validate_eq_ok.1 h.passes.path).1

theorem Declaration.Yields.faults_eq {d : Declaration} {c : Collection} (h : d.Yields c) :
    d.faults = [] :=
  Declaration.faults_eq_nil.2 ⟨_, _, h.passes⟩

namespace Survey

/-- A path is taken by what is kept just when some declaration without faults has it, and then the
first such declaration is the one that is kept. -/
theorem find?_kept (ds : List Declaration) (path : String) :
    ((kept ds).find? (·.collection.pathText = path)).map (·.collection.site) =
      (firstSound? ds path).map (·.site) := by
  induction ds using List.reverseRecOn with
  | nil => rfl
  | append_singleton ds d ih =>
    rw [kept_append_singleton, firstSound?, List.find?_append, List.find?_append, ← firstSound?]
    cases hfirst : firstSound? ds path with
    | some first =>
      rw [hfirst] at ih
      obtain ⟨k, hk, hsite⟩ := Option.map_eq_some_iff.1 ih
      simp [hk, hsite]
    | none =>
      rw [hfirst] at ih
      rw [Option.map_eq_none_iff.1 ih, Option.none_or, Option.none_or]
      cases hc : d.collection? with
      | none =>
        have hfaults := Declaration.collection?_eq_none.1 hc
        simp [keptAfter?, hc, hfaults]
      | some c =>
        have hyields := Declaration.collection?_eq_some.1 hc
        by_cases hpath : d.path = path
        · subst hpath
          simp [keptAfter?, hfirst, hc, hyields.pathText_eq, hyields.faults_eq, hyields.site]
        · rw [keptAfter?, hc]
          split <;> simp [hyields.pathText_eq, hpath]

theorem find?_kept_eq_none {ds : List Declaration} {path : String} :
    (kept ds).find? (·.collection.pathText = path) = none ↔ firstSound? ds path = none := by
  rw [← Option.map_eq_none_iff (f := fun k : Kept => k.collection.site), find?_kept,
    Option.map_eq_none_iff]

theorem nodup_kept_paths (ds : List Declaration) :
    ((kept ds).map (·.collection.pathText)).Nodup := by
  induction ds using List.reverseRecOn with
  | nil => exact List.nodup_nil
  | append_singleton ds d ih =>
    rw [kept_append_singleton]
    cases hafter : keptAfter? ds d with
    | none => simpa using ih
    | some c =>
      unfold keptAfter? at hafter
      split at hafter
      · cases hafter
      · next hfirst =>
        have hnone := find?_kept_eq_none.2 (Option.not_isSome_iff_eq_none.1 hfirst)
        have hpath := (Declaration.collection?_eq_some.1 hafter).pathText_eq
        refine nodup_map_append_singleton.2 ⟨fun hmem => ?_, ih⟩
        obtain ⟨k, hk, hsame⟩ := List.mem_map.1 hmem
        have hne := List.find?_eq_none.1 hnone k hk
        simp_all

/-! ## The pass -/

/-- What the first pass reports for a position: the faults of the declaration, or that an earlier
declaration without faults has its path. -/
def screenFaults (ds : List Declaration) (i : Nat) : List Diagnostic :=
  match ds[i]? with
  | none => []
  | some d => d.faults ++ match d.collection?, firstSound? (ds.take i) d.path with
    | some c, some first => [duplicatePath first.site c]
    | _, _ => []

theorem screenFaults_length (before : List Declaration) (d : Declaration)
    (rest : List Declaration) : screenFaults (before ++ d :: rest) before.length =
      d.faults ++ match d.collection?, firstSound? before d.path with
        | some c, some first => [duplicatePath first.site c]
        | _, _ => [] := by
  simp [screenFaults]

theorem failedPaths_cons (d : Declaration) (ds : List Declaration) :
    failedPaths (d :: ds) = failedPaths [d] ++ failedPaths ds :=
  (congrArg (List.map _) (List.filter_append [d] ds)).trans List.map_append

open Builder

/-- The path of a declaration is noted behind its diagnostics, so that a fail-fast builder, which
the first of them stops, does not note it. -/
theorem compileOne_enacts (known : List String) (d : Declaration) :
    Enacts known (compileOne d) d.collection?
      { errors := d.faults, failedPaths := failedPaths [d] } := by
  have hcompile : Enacts known (onContext d.compile) d.collection? { errors := d.faults } :=
    .onContext d.compile_reports
  unfold compileOne
  cases hc : d.collection? with
  | some c =>
    have hfaults := (Declaration.collection?_eq_some.1 hc).faults_eq
    have hfailed : failedPaths [d] = [] := by simp [failedPaths, hfaults]
    rw [hc, hfaults] at hcompile
    rw [hfaults, hfailed]
    exact hcompile.bind_silent (.pure (some c))
  | none =>
    have hfaults := Declaration.collection?_eq_none.1 hc
    have hfailed : failedPaths [d] = [d.path] := by simp [failedPaths, hfaults]
    rw [hc] at hcompile
    rw [hfailed]
    refine ⟨fun b hmode hknown => ?_, fun b hmode hknown => ?_, fun hnil => absurd hnil hfaults⟩
    · rw [Work.ends_bind_of_ok (hcompile.collecting b hmode hknown)]
      simp [Work.ends, Work.modify, Bind.bind, Work.bind, Pure.pure, Builder.after]
    · have hfirst := hcompile.failFast b hmode hknown
      obtain ⟨f, faults, hcons⟩ := List.exists_cons_of_ne_nil hfaults
      simp only [hcons, raiseFirst] at hfirst ⊢
      exact Work.ends_bind_of_error hfirst _

theorem screen_enacts (known : List String) (before : List Declaration) (d : Declaration) :
    Enacts known (screen (kept before) before.length d) (kept (before ++ [d]))
      { errors := screenFaults (before ++ [d]) before.length, failedPaths := failedPaths [d] } := by
  have hcompile := compileOne_enacts known d
  rw [screenFaults_length, kept_append_singleton]
  unfold screen keptAfter?
  cases hc : d.collection? with
  | none =>
    rw [hc] at hcompile
    simp only [ite_self, Option.map_none, Option.toList_none, List.append_nil]
    rw [← Effects.append_empty ⟨d.faults, [], failedPaths [d]⟩]
    exact hcompile.bind (.pure (kept before))
  | some c =>
    have hyields := Declaration.collection?_eq_some.1 hc
    have hfailed : failedPaths [d] = [] := by simp [failedPaths, hyields.faults_eq]
    have hfind := find?_kept before d.path
    rw [hc, hyields.faults_eq, hfailed] at hcompile
    rw [hyields.faults_eq, hfailed]
    refine hcompile.bind_silent ?_
    -- The pass looks for the path among what it has kept, and finds the first of the
    -- declarations without faults that have it.
    cases hfirst : firstSound? before d.path with
    | some first =>
      rw [hfirst] at hfind
      obtain ⟨k, hk, hsite⟩ := Option.map_eq_some_iff.1 hfind
      simpa [hyields.pathText_eq, hk, hsite] using (Enacts.addError _).bind_pure
    | none =>
      simpa [hyields.pathText_eq, find?_kept_eq_none.2 hfirst] using Enacts.pure _

theorem screenFrom_enacts (known : List String) (before rest : List Declaration) :
    Enacts known (screenFrom (kept before) before.length rest) (kept (before ++ rest))
      (.noted ((List.range' before.length rest.length).flatMap fun i =>
        (screenFaults (before ++ rest) i).map (i, ·)) (failedPaths rest)) := by
  induction rest generalizing known before with
  | nil =>
    rw [List.append_nil]
    exact .pure _
  | cons d rest ih =>
    have hstep := (screen_enacts known before d).noting before.length
    have hrest := ih (known ++ failedPaths [d]) (before ++ [d])
    rw [List.length_append, List.length_singleton, List.append_assoc,
      List.singleton_append] at hrest
    rw [screenFrom, List.length_cons, List.range'_succ, List.flatMap_cons, failedPaths_cons,
      screenFaults_length, ← screenFaults_length before d [], ← Effects.noted_append_noted]
    exact hstep.bind hrest

end Survey

end CollectionSchema
