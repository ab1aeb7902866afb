import CollectionSchema.Builder
import CollectionSchema.Proofs.Survey.Contributions

/-!
# Builds

A build in collecting mode adds what it finds to what the builder remembers
(`Builder.build_collecting`), and a build in fail-fast mode ends with the first finding and leaves
the builder as it was (`Builder.build_failFast`). A new builder remembers nothing, so it gives a
graph if nothing is found; in collecting mode the diagnostics are otherwise the contributions of the
declarations, in order (`buildGraph_errors`).
-/

namespace CollectionSchema

open Survey

/-! ## One build -/

namespace Builder

theorem value_conclude (b : Builder) (h : Hierarchy) : (b.conclude h).value =
    .ok (if b.context.errors = [] then
        { graph := some (.ofMembers h (List.range h.entries.length)) }
      else { errors := b.orderedErrors }) := by
  unfold conclude Context.isValid
  cases b.context.errors <;> rfl

/-- What a builder remembers after a build in collecting mode. -/
def afterBuild (b : Builder) : Builder :=
  let found := findings b.failedPaths b.declarations
  { b with
    context := { b.context with errors := b.context.errors ++ found.map (·.2) }
    failedPaths := b.failedPaths ++ Survey.failedPaths b.declarations
    indexed := b.indexed ++ found }

theorem build_collecting {b : Builder} (h : b.context.mode = .collecting) :
    b.build.1 = b.afterBuild ∧
      b.build.2.value = (b.afterBuild.conclude (hierarchyOf b.declarations)).value := by
  have harrange := (arrange_enacts b.failedPaths b.declarations).collecting b h rfl
  exact Prod.mk.inj (Work.ends_bind_of_ok harrange fun h b => (b, b.conclude h))

theorem build_failFast {b : Builder} (h : b.context.mode = .failFast) :
    b.build.1 = b ∧ b.build.2.value = match findings b.failedPaths b.declarations with
      | [] => (b.conclude (hierarchyOf b.declarations)).value
      | f :: _ => .error (.diagnostic f.2) := by
  have harrange := (arrange_enacts b.failedPaths b.declarations).failFast b h rfl
  cases hfound : findings b.failedPaths b.declarations with
  | nil =>
    rw [hfound] at harrange
    exact Prod.mk.inj (Work.ends_bind_of_ok harrange fun h b => (b, b.conclude h))
  | cons f found =>
    rw [hfound] at harrange
    exact Prod.mk.inj (Work.ends_bind_of_error harrange fun h b => (b, b.conclude h))

end Builder

/-! ## New builders -/

def graphOf (ds : List Declaration) : Graph :=
  .ofMembers (hierarchyOf ds) (List.range (kept ds).length)

theorem length_entries_hierarchyOf (ds : List Declaration) :
    (hierarchyOf ds).entries.length = (kept ds).length :=
  List.length_map _

theorem Builder.orderedErrors_afterBuild {b : Builder} (h : b.indexed = []) :
    b.afterBuild.orderedErrors = (List.range b.declarations.length).flatMap
      (contribution (b.failedPaths ++ b.declarations.map (·.path)) b.declarations) := by
  simp only [orderedErrors, afterBuild, h, List.nil_append, findings_at]

/-- In collecting mode the graph is given up for the diagnostics, if there are any. -/
theorem value_buildGraph_collecting (ds : List Declaration) :
    (buildGraph .collecting ds).value = .ok (if findings [] ds = [] then
        { graph := some (graphOf ds) }
      else
        { errors := (List.range ds.length).flatMap (contribution (ds.map (·.path)) ds) }) := by
  have hbuild := (Builder.build_collecting (b := .new ds .collecting) rfl).2
  have hempty : (Builder.new ds .collecting).afterBuild.context.errors = [] ↔
      findings [] ds = [] := List.map_eq_nil_iff
  rw [buildGraph, hbuild, Builder.value_conclude, Builder.orderedErrors_afterBuild rfl,
    length_entries_hierarchyOf]
  simp only [hempty]
  rfl

theorem value_buildGraph_failFast (ds : List Declaration) :
    (buildGraph .failFast ds).value = match findings [] ds with
      | [] => .ok { graph := some (graphOf ds) }
      | f :: _ => .error (.diagnostic f.2) := by
  have hbuild := (Builder.build_failFast (b := .new ds .failFast) rfl).2
  rw [Builder.value_conclude, length_entries_hierarchyOf] at hbuild
  exact hbuild

end CollectionSchema
