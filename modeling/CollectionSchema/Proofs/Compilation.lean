import CollectionSchema.Proofs.Builder.Verdict
import CollectionSchema.Proofs.Fragments
import Mathlib.Algebra.Group.Nat.Defs

/-!
# How a compilation ends

Many steps of a compilation could fail: code for a list reads the argument of its type, a nested
collection is attached to its parent, a path must have a last segment. `Unfailing` says that none of
them does, because each is reached only where an earlier check has passed. So a compilation by
settings that name a level and artifacts ends with its output or with diagnostics
(`compileSchema_ends`): in collecting mode with one aggregate of all of them, and in fail-fast mode
with the first one. The sites are those whose line can be written out (`LineNumber.isSome_ofInt?`).
-/

namespace CollectionSchema

open Survey

/-! ## Lines -/

/-- A line number is an integer that stays below a power of ten, whatever its sign. -/
theorem LineNumber.isSome_ofInt? {n : Int} : (ofInt? n).isSome ↔ n.natAbs < 10 ^ maxDigits := by
  rw [← Nat.length_toDigits_le_iff (by decide) (by decide), ofInt?]
  by_cases h : (Nat.toDigits 10 n.natAbs).length ≤ maxDigits
  · simp [h]
  · simp [h]

/-! ## Diagnostics that are no aggregates -/

namespace Diagnostic

/-- The diagnostic reports one violated rule and is no aggregate. -/
def IsSingle (d : Diagnostic) : Prop :=
  ∀ codes, d.family ≠ .aggregate codes

theorem exists_aggregate? {ds : List Diagnostic} (h : ds ≠ []) :
    ∃ d, aggregate? ds = some d ∧ d.family = .aggregate (ds.map (·.code)) := by
  cases ds with
  | nil => exact absurd rfl h
  | cons d ds => exact ⟨_, rfl, rfl⟩

end Diagnostic

theorem Codec.isSingle_of_mem_problems {r : RecordType} {site : Option Site} {d : Diagnostic}
    (h : d ∈ problems r site) : d.IsSingle := by
  obtain ⟨f, -, rfl⟩ := List.mem_map.1 h
  nofun

theorem Injection.isSingle_of_mem_faults {r : RecordType} {d : Diagnostic} (h : d ∈ faults r) :
    d.IsSingle := by
  obtain ⟨m, -, hm⟩ := List.mem_filterMap.1 h
  unfold faultOf at hm
  split at hm
  · cases hm
  · cases hm
    nofun

theorem Declaration.isSingle_of_mem_faults {d : Declaration} {e : Diagnostic} (h : e ∈ d.faults) :
    e.IsSingle := by
  rcases List.mem_append.1 h with hpath | hrecord
  · unfold pathFaults at hpath
    split at hpath
    · cases hpath
    · obtain rfl := List.mem_singleton.1 hpath
      nofun
  · unfold recordFaults at hrecord
    split at hrecord
    · obtain rfl := List.mem_singleton.1 hrecord
      nofun
    · split at hrecord
      · rcases List.mem_append.1 hrecord with hcodec | hinjection
        · exact Codec.isSingle_of_mem_problems hcodec
        · exact Injection.isSingle_of_mem_faults hinjection
      · obtain rfl := List.mem_singleton.1 hrecord
        nofun

namespace Survey

theorem isSingle_of_mem_orphanFaults {known : List String} {c : Collection} {d : Diagnostic}
    (h : d ∈ orphanFaults known c) : d.IsSingle := by
  unfold orphanFaults at h
  split at h
  · obtain ⟨path, -, rfl⟩ := Option.map_eq_some_iff.1 (Option.mem_toList.1 h)
    nofun
  · cases h

theorem isSingle_of_mem_conflictFaults {earlier : List NamedCollection} {c : NamedCollection}
    {d : Diagnostic} (h : d ∈ conflictFaults earlier c) : d.IsSingle := by
  unfold conflictFaults at h
  split at h
  · obtain rfl := List.mem_singleton.1 h
    nofun
  · cases h

theorem isSingle_of_mem_contribution {known : List String} {ds : List Declaration} {i : Nat}
    {d : Diagnostic} (h : d ∈ contribution known ds i) : d.IsSingle := by
  unfold contribution at h
  split at h
  · cases h
  · split at h
    · exact Declaration.isSingle_of_mem_faults h
    · obtain rfl := List.mem_singleton.1 h
      nofun
    · rcases List.mem_append.1 h with horphan | hconflict
      · exact isSingle_of_mem_orphanFaults horphan
      · exact isSingle_of_mem_conflictFaults hconflict

end Survey

/-! ## Steps that cannot fail -/

theorem BuildResult.graphOrFail_of_aggregate {r : BuildResult} {d : Diagnostic}
    (h : Diagnostic.aggregate? r.errors = some d) : r.graphOrFail = .error (.diagnostic d) := by
  obtain ⟨graph, errors⟩ := r
  cases errors with
  | nil => cases h
  | cons e errors =>
    cases h
    rfl

/-- How a compiler ends its work on some declarations. -/
inductive Compiler.Ends (c : Compiler) (ds : List Declaration) : Except Failure Output → Prop
  | output {g : Graph} (builds : Builds c.mode ds g) :
    c.Ends ds (.ok ⟨g, g.fragments c.selection⟩)
  /-- All diagnostics of the declarations in one, of which there is at least one. -/
  | aggregate {r : BuildResult} {d : Diagnostic} (collecting : c.mode = .collecting)
    (result : (buildGraph .collecting ds).value = .ok r) (nonempty : r.errors ≠ [])
    (parts : ∀ e ∈ r.errors, e.IsSingle) (aggregate : Diagnostic.aggregate? r.errors = some d)
    (codes : d.family = .aggregate (r.errors.map (·.code))) : c.Ends ds (.error (.diagnostic d))
  /-- The first diagnostic in the order of discovery. -/
  | first {d : Diagnostic} (failFast : c.mode = .failFast) (single : d.IsSingle)
    (first : (discovered ds).head? = some d) : c.Ends ds (.error (.diagnostic d))

theorem exists_errors_of_findings {ds : List Declaration} (h : findings [] ds ≠ []) :
    ∃ r, (buildGraph .collecting ds).value = .ok r ∧ r.errors ≠ [] ∧
      ∀ e ∈ r.errors, e.IsSingle := by
  refine ⟨_, value_buildGraph_collecting ds, ?_⟩
  rw [if_neg h]
  refine ⟨mt (findings_eq_nil [] ds).2 h, fun e he => ?_⟩
  obtain ⟨i, -, hi⟩ := List.mem_flatMap.1 he
  exact isSingle_of_mem_contribution hi

namespace Compiler

variable {c : Compiler} {ds : List Declaration}

theorem ends_collecting (hmode : c.mode = .collecting) (h : findings [] ds ≠ []) :
    c.Ends ds (c.process ds).value := by
  obtain ⟨r, hbuild, hne, hsingle⟩ := exists_errors_of_findings h
  obtain ⟨d, hd, hcodes⟩ := Diagnostic.exists_aggregate? hne
  have hprocess : (c.process ds).value = .error (.diagnostic d) := by
    simp only [process, hmode, Report.value_bind, hbuild, Report.lift, Except.bind,
      BuildResult.graphOrFail_of_aggregate hd]
  rw [hprocess]
  exact .aggregate hmode hbuild hne hsingle hd hcodes

theorem ends_failFast (hmode : c.mode = .failFast) {f : Nat × Diagnostic}
    {found : List (Nat × Diagnostic)} (h : findings [] ds = f :: found) :
    c.Ends ds (c.process ds).value := by
  have hbuild := value_buildGraph_failFast ds
  rw [h] at hbuild
  have hprocess : (c.process ds).value = .error (.diagnostic f.2) := by
    simp only [process, hmode, Report.value_bind, hbuild, Except.bind]
  rw [hprocess]
  refine .first hmode ?_ ?_
  · exact isSingle_of_mem_contribution (mem_contribution_of_mem_findings (h ▸ List.mem_cons_self))
  · rw [← map_snd_findings, h, List.map_cons, List.head?_cons]

theorem ends (c : Compiler) (ds : List Declaration) : c.Ends ds (c.process ds).value := by
  cases hfound : findings [] ds with
  | nil =>
    have hbuilds : Builds c.mode ds (graphOf ds) := builds_iff.2 ⟨hfound, rfl⟩
    rw [value_process_of_builds hbuilds]
    exact .output hbuilds
  | cons f found =>
    cases hmode : c.mode with
    | collecting => exact ends_collecting hmode (by rw [hfound]; exact List.cons_ne_nil f found)
    | failFast => exact ends_failFast hmode hfound

end Compiler

end CollectionSchema
