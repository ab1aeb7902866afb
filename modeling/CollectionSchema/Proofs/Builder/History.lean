import CollectionSchema.Proofs.Graph.Sound

/-!
# Histories of a builder

A builder is called any number of times: to compile a declaration, of its own or not, or to build.
`Builder.run` is what a history of calls makes of it. In fail-fast mode a history makes nothing of
it (`Builder.run_failFast`), because a call either finds no problem or is stopped by the first one
before anything is written. So a build after any history ends like that of a new builder, which
`build_failFast_of_history` compares with collecting mode: the first problem that is recorded there
is the failure here, and without problems the graphs are the same.
-/

namespace CollectionSchema

open Survey

/-! ## Calls -/

namespace Builder

/-- A call on a builder. A declaration that is compiled need not be one of the builder's own. -/
inductive Call where
  | compile (d : Declaration)
  | build

/-- The builder after a call, also after one that fails. -/
def call (b : Builder) : Call → Builder
  | .compile d => (b.compile d).1
  | .build => b.build.1

/-- The builder after a history of calls. -/
def run (b : Builder) (calls : List Call) : Builder :=
  calls.foldl call b

end Builder

/-! ## Fail-fast builders -/

namespace Builder

variable {b : Builder}

theorem compile_failFast (h : b.context.mode = .failFast) (d : Declaration) :
    (b.compile d).1 = b :=
  congrArg Prod.fst ((compileOne_enacts b.failedPaths d).failFast b h rfl)

theorem call_failFast (h : b.context.mode = .failFast) (c : Call) : b.call c = b := by
  cases c with
  | compile d => exact compile_failFast h d
  | build => exact (build_failFast h).1

theorem run_failFast (h : b.context.mode = .failFast) (calls : List Call) : b.run calls = b := by
  induction calls with
  | nil => rfl
  | cons c calls ih =>
    rw [run, List.foldl_cons, call_failFast h]
    exact ih

end Builder

/-- No history of calls changes a fail-fast builder, and no further call does. A build fails on it
just when a new builder in collecting mode records errors, with the first of these in the order of
discovery, and otherwise both have the same graph. -/
theorem build_failFast_of_history (ds : List Declaration) (calls : List Builder.Call) :
    let b := (Builder.new ds .failFast).run calls
    let fresh := (Builder.new ds .collecting).build
    (∀ c : Builder.Call, b.call c = b) ∧ b = .new ds .failFast ∧
      (∃ r, fresh.2.value = .ok r) ∧ fresh.1.context.errors = discovered ds ∧
      ((∃ d, b.build.2.value = .error (.diagnostic d)) ↔ fresh.1.context.errors ≠ []) ∧
      (∀ d, fresh.1.context.errors.head? = some d → b.build.2.value = .error (.diagnostic d)) ∧
      (fresh.1.context.errors = [] →
        ∃ g, b.build.2.value = .ok { graph := some g } ∧
          fresh.2.value = .ok { graph := some g }) := by
  intro b fresh
  have hb : b = .new ds .failFast := Builder.run_failFast rfl calls
  have hfast : b.build.2.value = _ :=
    (congrArg (fun b => b.build.2.value) hb).trans (value_buildGraph_failFast ds)
  have hcollect : fresh.2.value = _ := value_buildGraph_collecting ds
  have hafter := (Builder.build_collecting (b := .new ds .collecting) rfl).1
  have herrors : fresh.1.context.errors = (findings [] ds).map (·.2) :=
    congrArg (fun b => b.context.errors) hafter
  refine ⟨fun c => ?_, hb, ⟨_, hcollect⟩, herrors.trans (map_snd_findings ds), ?_⟩
  · rw [hb]
    exact Builder.call_failFast rfl c
  rw [herrors]
  cases hfound : findings [] ds with
  | nil =>
    rw [hfound] at hfast hcollect
    simp [hfast, hcollect]
  | cons f found =>
    rw [hfound] at hfast hcollect
    simp [hfast]

end CollectionSchema
