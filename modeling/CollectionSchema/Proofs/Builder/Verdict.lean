import CollectionSchema.Proofs.Builder.History

/-!
# Verdicts after a history of calls

In collecting mode a builder remembers what all its calls met. A build gives up its graph for any
diagnostic that was ever met, but its errors are only those that builds have met: the faults of a
declaration that was compiled by itself are not among them. `Builder.Recalls` says what is
remembered of a history, and every call keeps it. From it follows when the result of a build
decides, that is, when it has a graph or errors (`decides_of_history`): unless a declaration with
faults was compiled by itself and no build finds anything. If such declarations are the builder's
own, every result decides.
-/

namespace CollectionSchema

open Survey

namespace BuildResult

/-- The result decides: it is valid just when it has a graph, and asking for the graph gives it or
fails with the aggregate of at least one diagnostic. -/
structure Decides (r : BuildResult) : Prop where
  isValid_iff : r.isValid = true ↔ r.graph.isSome
  graphOrFail : (∃ g, r.graph = some g ∧ r.graphOrFail = .ok g) ∨
    ∃ d, r.errors ≠ [] ∧ Diagnostic.aggregate? r.errors = some d ∧
      r.graphOrFail = .error (.diagnostic d)

theorem decides_iff {r : BuildResult} : r.Decides ↔ (r.errors = [] ↔ r.graph.isSome) := by
  obtain ⟨graph, errors⟩ := r
  constructor
  · intro h
    have hvalid := h.isValid_iff
    rwa [isValid, List.isEmpty_iff] at hvalid
  · intro h
    refine ⟨by rwa [isValid, List.isEmpty_iff], ?_⟩
    cases errors with
    | nil =>
      obtain ⟨g, hg⟩ := Option.isSome_iff_exists.1 (h.1 rfl)
      cases hg
      exact .inl ⟨g, rfl, rfl⟩
    | cons d errors => exact .inr ⟨_, List.cons_ne_nil d errors, rfl, rfl⟩

end BuildResult

/-! ## Known paths -/

namespace Survey

/-- The diagnostics of some declarations, one declaration after the other, where the paths of
`others` are known too. -/
def diagnosticsBeside (others ds : List Declaration) : List Diagnostic :=
  (List.range ds.length).flatMap (contribution ((others ++ ds).map (·.path)) ds)

theorem diagnosticsBeside_ne_nil (others : List Declaration) {ds : List Declaration}
    {d : Declaration} (hd : d ∈ ds) (hfaults : d.faults ≠ []) :
    diagnosticsBeside others ds ≠ [] := by
  obtain ⟨i, hi⟩ := List.mem_iff_getElem?.1 hd
  intro hnil
  rw [diagnosticsBeside, List.flatMap_eq_nil_iff] at hnil
  have hat := hnil i (List.mem_range.2 (List.getElem?_eq_some_iff.1 hi).1)
  rw [contribution, hi] at hat
  simp only [Declaration.collection?_eq_none.2 hfaults] at hat
  exact hfaults hat

end Survey

/-! ## Histories in collecting mode -/

namespace Builder

/-- The declaration that a call compiles by itself, if it has faults. -/
def Call.stray? : Call → Option Declaration
  | .compile d => if d.faults = [] then none else some d
  | .build => none

/-- The declarations with faults that a history compiles by themselves. -/
def strays (calls : List Call) : List Declaration :=
  calls.filterMap Call.stray?

/-- No build of a history finds anything. The paths of declarations with faults that were compiled
before it are known to a build. -/
def Quiet (ds : List Declaration) (calls : List Call) : Prop :=
  ∀ earlier, earlier ++ [.build] <+: calls → diagnosticsBeside (strays earlier) ds = []

theorem quiet_of_not_mem_build {ds : List Declaration} {calls : List Call}
    (h : .build ∉ calls) : Quiet ds calls :=
  fun earlier hstart => absurd (hstart.subset (List.mem_append_right earlier (by simp))) h

theorem quiet_append_compile {ds : List Declaration} {calls : List Call} {d : Declaration} :
    Quiet ds (calls ++ [.compile d]) ↔ Quiet ds calls := by
  have hstart : ∀ earlier, earlier ++ [.build] <+: calls ++ [.compile d] ↔
      earlier ++ [.build] <+: calls := by
    intro earlier
    simp [List.prefix_concat_iff]
  simp only [Quiet, hstart]

theorem quiet_append_build {ds : List Declaration} {calls : List Call} :
    Quiet ds (calls ++ [.build]) ↔ Quiet ds calls ∧ diagnosticsBeside (strays calls) ds = [] := by
  have hstart : ∀ earlier, earlier ++ [.build] <+: calls ++ [.build] ↔
      earlier = calls ∨ earlier ++ [.build] <+: calls := by
    intro earlier
    simp [List.prefix_concat_iff]
  simp only [Quiet, hstart, or_imp, forall_and, forall_eq, and_comm]

/-- What a builder remembers of a history: whether anything was met, which paths are known, and
whether a build has found anything. -/
structure Recalls (ds : List Declaration) (calls : List Call) (b : Builder) : Prop where
  declarations : b.declarations = ds
  mode : b.context.mode = .collecting
  known_iff : ∀ path, path ∈ b.failedPaths ++ ds.map (·.path) ↔
    path ∈ (strays calls ++ ds).map (·.path)
  errors_iff : b.context.errors = [] ↔ strays calls = [] ∧ b.indexed = []
  indexed_iff : b.indexed = [] ↔ Quiet ds calls
  position_lt : ∀ p ∈ b.indexed, p.1 < ds.length

theorem recalls_new (ds : List Declaration) : Recalls ds [] (new ds .collecting) where
  declarations := rfl
  mode := rfl
  known_iff _ := Iff.rfl
  errors_iff := by simp [new, strays]
  indexed_iff := by simp [new, Quiet]
  position_lt _ h := by cases h

theorem map_path_stray? (d : Declaration) :
    (Call.stray? (.compile d)).toList.map (·.path) = Survey.failedPaths [d] := by
  by_cases hnil : d.faults = [] <;> simp [Call.stray?, Survey.failedPaths, hnil]

theorem compile_collecting {b : Builder} (h : b.context.mode = .collecting) (d : Declaration) :
    (b.compile d).1 = { b with
      context := { b.context with errors := b.context.errors ++ d.faults }
      failedPaths := b.failedPaths ++ (Call.stray? (.compile d)).toList.map (·.path) } := by
  have hcompile := (compileOne_enacts b.failedPaths d).collecting b h rfl
  have hstate : (b.compile d).1 = b.after _ := congrArg Prod.fst hcompile
  rw [hstate, map_path_stray?, after, List.append_nil]

theorem strays_append_build (calls : List Call) : strays (calls ++ [.build]) = strays calls := by
  simp [strays, Call.stray?]

theorem faults_ne_nil_of_mem_strays {calls : List Call} {d : Declaration}
    (h : d ∈ strays calls) : d.faults ≠ [] := by
  obtain ⟨c, -, hc⟩ := List.mem_filterMap.1 h
  cases c with
  | compile e =>
    simp only [Call.stray?, Option.ite_none_left_eq_some, Option.some.injEq] at hc
    exact hc.2 ▸ hc.1
  | build => cases hc

theorem orderedErrors_eq_nil {b : Builder} (h : ∀ p ∈ b.indexed, p.1 < b.declarations.length) :
    b.orderedErrors = [] ↔ b.indexed = [] := by
  simp only [orderedErrors, List.flatMap_eq_nil_iff, List.map_eq_nil_iff, List.filter_eq_nil_iff,
    decide_eq_true_eq, List.mem_range]
  constructor
  · intro hnone
    exact List.eq_nil_iff_forall_not_mem.2 fun p hp => hnone p.1 (h p hp) p hp rfl
  · intro hnil
    simp [hnil]

namespace Recalls

variable {ds : List Declaration} {calls : List Call} {b : Builder}

theorem compile (h : Recalls ds calls b) (d : Declaration) :
    Recalls ds (calls ++ [.compile d]) (b.compile d).1 := by
  have hstrays : strays (calls ++ [.compile d]) =
      strays calls ++ (Call.stray? (.compile d)).toList := by
    by_cases hnil : d.faults = [] <;> simp [strays, Call.stray?, hnil]
  have hfaults : (Call.stray? (.compile d)).toList = [] ↔ d.faults = [] := by
    by_cases hnil : d.faults = [] <;> simp [Call.stray?, hnil]
  rw [compile_collecting h.mode]
  refine ⟨h.declarations, h.mode, fun path => ?_, ?_, ?_, h.position_lt⟩
  · have hknown := h.known_iff path
    simp only [hstrays, List.map_append, List.mem_append] at hknown ⊢
    rw [or_right_comm, hknown, or_right_comm]
  · rw [hstrays, List.append_eq_nil_iff, List.append_eq_nil_iff, h.errors_iff, hfaults]
    exact and_right_comm
  · rw [quiet_append_compile]
    exact h.indexed_iff

theorem build (h : Recalls ds calls b) : Recalls ds (calls ++ [.build]) b.build.1 := by
  have hfound : findings b.failedPaths ds = [] ↔ diagnosticsBeside (strays calls) ds = [] := by
    rw [findings_eq_nil, contribution_congr h.known_iff, diagnosticsBeside]
  have hfailed : ∀ path, path ∈ Survey.failedPaths ds → path ∈ ds.map (·.path) :=
    (List.filter_sublist.map _).subset
  rw [(build_collecting h.mode).1, afterBuild, h.declarations]
  refine ⟨rfl, h.mode, fun path => ?_, ?_, ?_, fun p hp => ?_⟩
  · rw [strays_append_build, ← h.known_iff, List.mem_append, List.mem_append, List.mem_append,
      or_assoc, or_iff_right_of_imp (hfailed path)]
  · rw [strays_append_build, List.append_eq_nil_iff, List.append_eq_nil_iff, List.map_eq_nil_iff,
      h.errors_iff, and_assoc]
  · rw [quiet_append_build, List.append_eq_nil_iff, h.indexed_iff, hfound]
  · rcases List.mem_append.1 hp with hp | hp
    · exact h.position_lt p hp
    · exact lt_of_mem_findings hp

theorem call (h : Recalls ds calls b) (c : Call) : Recalls ds (calls ++ [c]) (b.call c) := by
  cases c with
  | compile d => exact h.compile d
  | build => exact h.build

/-- A build ends with a graph if nothing was met in its history or by itself, and otherwise with the
errors of all builds. -/
theorem value_build (h : Recalls ds calls b) : ∃ r, b.build.2.value = .ok r ∧
    (r.graph.isSome ↔ strays calls = [] ∧ Quiet ds (calls ++ [.build])) ∧
    (r.errors = [] ↔ Quiet ds (calls ++ [.build])) := by
  have hafter := h.build
  rw [(build_collecting h.mode).1] at hafter
  have herrors := hafter.errors_iff
  have hquiet := hafter.indexed_iff
  have hordered := orderedErrors_eq_nil (hafter.declarations ▸ hafter.position_lt)
  rw [hquiet, strays_append_build] at herrors
  refine ⟨_, (build_collecting h.mode).2.trans (value_conclude _ _), ?_⟩
  by_cases hnone : b.afterBuild.context.errors = []
  · simp [hnone, herrors.1 hnone]
  · rw [if_neg hnone, hordered, hquiet]
    simp [mt herrors.2 hnone]

end Recalls

theorem recalls_run (ds : List Declaration) (calls : List Call) :
    Recalls ds calls ((new ds .collecting).run calls) := by
  induction calls using List.reverseRecOn with
  | nil => exact recalls_new ds
  | append_singleton calls c ih =>
    rw [run, List.foldl_append]
    exact ih.call c

theorem strays_subset_of_prefix {earlier calls : List Call} (h : earlier <+: calls) :
    strays earlier ⊆ strays calls :=
  (h.sublist.filterMap _).subset

theorem quiet_of_strays_eq_nil {ds : List Declaration} {calls : List Call}
    (h : strays calls = []) :
    Quiet ds (calls ++ [.build]) ↔ diagnosticsBeside [] ds = [] := by
  constructor
  · intro hquiet
    rw [← h]
    exact (quiet_append_build.1 hquiet).2
  · intro hnil earlier hstart
    have hearlier : strays earlier = [] := by
      have hsub := strays_subset_of_prefix ((List.prefix_append earlier [.build]).trans hstart)
      rw [strays_append_build, h] at hsub
      exact List.subset_nil.1 hsub
    rw [hearlier]
    exact hnil

theorem not_quiet_of_stray_mem {ds : List Declaration} {calls : List Call} {d : Declaration}
    (hd : d ∈ strays calls) (hown : d ∈ ds) : ¬Quiet ds (calls ++ [.build]) := by
  intro hquiet
  exact diagnosticsBeside_ne_nil _ hown (faults_ne_nil_of_mem_strays hd)
    (quiet_append_build.1 hquiet).2

end Builder

/-- A build after any history in collecting mode ends with a result. It has a graph just when no
declaration with faults was compiled by itself and nothing is wrong with the builder's own
declarations, and it has errors just when some build has found something. So it decides unless a
declaration with faults was compiled by itself and no build has found anything, which cannot be if
all such declarations are the builder's own. -/
theorem decides_of_history (ds : List Declaration) (calls : List Builder.Call) :
    ∃ r, ((Builder.new ds .collecting).run calls).build.2.value = .ok r ∧
      (r.graph.isSome ↔ Builder.strays calls = [] ∧ diagnosticsBeside [] ds = []) ∧
      (r.errors = [] ↔ Builder.Quiet ds (calls ++ [.build])) ∧
      (r.Decides ↔ Builder.strays calls = [] ∨ ¬Builder.Quiet ds (calls ++ [.build])) ∧
      (Builder.strays calls ⊆ ds → r.Decides) := by
  obtain ⟨r, hr, hgraph, herrors⟩ := (Builder.recalls_run ds calls).value_build
  have hdecides : r.Decides ↔
      Builder.strays calls = [] ∨ ¬Builder.Quiet ds (calls ++ [.build]) := by
    rw [BuildResult.decides_iff, herrors, hgraph, iff_and_self, imp_iff_or_not]
  refine ⟨r, hr, ?_, herrors, hdecides, fun hown => hdecides.2 ?_⟩
  · rw [hgraph]
    exact and_congr_right Builder.quiet_of_strays_eq_nil
  · cases hstrays : Builder.strays calls with
    | nil => exact .inl rfl
    | cons d strays =>
      have hd : d ∈ Builder.strays calls := hstrays ▸ List.mem_cons_self
      exact .inr (Builder.not_quiet_of_stray_mem hd (hown hd))

/-- A declaration without a record type is compiled by itself, and then one without faults. -/
def strayFault : List Builder.Call :=
  [.compile { path := "people" }, .compile (.plain "shows" "Show")]

/-- The builder's own declarations are sound, but after a declaration with faults a build gives
neither a graph nor errors. The result counts as valid, and asking for its graph fails without a
diagnostic. -/
theorem strayFault_undecided :
    ∃ r, ((Builder.new [.plain "movies" "Movie"] .collecting).run strayFault).build.2.value =
        .ok r ∧
      r.isValid = true ∧ r.graph.isSome = false ∧ r.graphOrFail = .error .emptyAggregate ∧
      ¬r.Decides := by
  obtain ⟨⟨graph, errors⟩, hr, hgraph, herrors⟩ :=
    (Builder.recalls_run [.plain "movies" "Movie"] strayFault).value_build
  have hnone : diagnosticsBeside (Builder.strays strayFault) [.plain "movies" "Movie"] = [] := by
    decide
  have hstrays : (Builder.strays strayFault).isEmpty = false := by decide
  have hquiet : Builder.Quiet [.plain "movies" "Movie"] (strayFault ++ [.build]) :=
    Builder.quiet_append_build.2 ⟨Builder.quiet_of_not_mem_build (by simp [strayFault]), hnone⟩
  cases herrors.2 hquiet
  cases graph with
  | none => exact ⟨_, hr, rfl, rfl, rfl, fun h => by simpa using BuildResult.decides_iff.1 h⟩
  | some g =>
    rw [(hgraph.1 rfl).1] at hstrays
    cases hstrays

end CollectionSchema
