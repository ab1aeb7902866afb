import CollectionSchema.Compilation
import CollectionSchema.Proofs.Artifact.ClassNames

/-!
# Fragments of a compilation

`Artifact.fragment?` is the fragment of an artifact for a place, if the artifact is generated there.
A graph whose artifacts all have texts gives these fragments place by place, behind the preamble
(`Graph.value_generate`), and declarations that have a graph are compiled to the fragments of all
artifacts (`value_compileSchema`). No two of them are of one artifact and one collection
(`Graph.nodup_keys`).
-/

namespace CollectionSchema

open Survey

/-! ## Outcomes of reports -/

namespace Report

variable {ε δ α β : Type}

/-- The report ends with the value `a`, and `found` is what the view shows of its events. -/
structure Gives (view : ε → Option δ) (r : Report ε α) (a : α) (found : List δ) : Prop where
  value : r.value = .ok a
  events : r.events.filterMap view = found

namespace Gives

variable {view : ε → Option δ}

theorem pure (a : α) : (Pure.pure a : Report ε α).Gives view a [] :=
  ⟨rfl, rfl⟩

theorem bind {r : Report ε α} {f : α → Report ε β} {a : α} {b : β} {found more : List δ}
    (hr : r.Gives view a found) (hf : (f a).Gives view b more) :
    (r >>= f).Gives view b (found ++ more) := by
  rw [bind_of_value hr.value]
  refine ⟨hf.value, ?_⟩
  rw [List.filterMap_append, hr.events, hf.events]

theorem bind_silent {r : Report ε α} {f : α → Report ε β} {a : α} {b : β} {found : List δ}
    (hr : r.Gives view a []) (hf : (f a).Gives view b found) : (r >>= f).Gives view b found :=
  hr.bind hf

theorem lift (a : α) : (Report.lift (.ok a) : Report ε α).Gives view a [] :=
  ⟨rfl, rfl⟩

theorem emit (e : ε) : (Report.emit e).Gives view () (view e).toList := by
  refine ⟨rfl, ?_⟩
  cases h : view e <;> simp [Report.emit, h]

theorem forM {f : α → Report ε Unit} {found : α → List δ} {l : List α}
    (h : ∀ a ∈ l, (f a).Gives view () (found a)) : (l.forM f).Gives view () (l.flatMap found) := by
  induction l with
  | nil => exact pure ()
  | cons a l ih =>
    rw [List.forall_mem_cons] at h
    exact h.1.bind (ih h.2)

end Gives

end Report

/-! ## Artifacts by name -/

theorem Artifact.exists_names {names : List String}
    (h : ∀ name ∈ names, name ∈ Vocabulary.words Artifact) :
    ∃ artifacts : List Artifact, artifacts.map (·.name) = names := by
  induction names with
  | nil => exact ⟨[], rfl⟩
  | cons name names ih =>
    rw [List.forall_mem_cons] at h
    obtain ⟨a, -, rfl⟩ := List.mem_map.1 h.1
    obtain ⟨artifacts, rfl⟩ := ih h.2
    exact ⟨a :: artifacts, rfl⟩

theorem Artifact.resolve_names (artifacts : List Artifact) :
    resolve (some (artifacts.map (·.name))) = .ok artifacts := by
  rw [resolve]
  induction artifacts with
  | nil => rfl
  | cons a artifacts ih =>
    have ha : ofName a.name = .ok a := by
      rw [ofName, name, Vocabulary.ofWord?_word]
    rw [List.map_cons, List.mapM_cons, ih, ha]
    rfl

/-! ## One artifact of one collection -/

/-- The fragment of an artifact for a place, if the artifact is generated there. -/
def Artifact.fragment? (p : Placement) (a : Artifact) : Option Fragment :=
  if a.accepts p then (a.render p).toOption.map (⟨a.name, some p.pathText, ·⟩) else none

theorem Artifact.fragment?_eq_some {p : Placement} {a : Artifact} {f : Fragment} :
    a.fragment? p = some f ↔ a.accepts p = true ∧
      ∃ text, a.render p = .ok text ∧ ⟨a.name, some p.pathText, text⟩ = f := by
  unfold fragment?
  split
  · next haccepts =>
    rw [Option.map_eq_some_iff, and_iff_right haccepts]
    simp only [Except.toOption_eq_some]
  · next haccepts => simp [haccepts]

theorem Artifact.visit_gives {p : Placement} {a : Artifact} {text : String}
    (h : a.render p = .ok text) :
    (a.visit p).Gives Visit.fragment? () (a.fragment? p).toList := by
  unfold visit fragment?
  split
  · rw [h]
    exact (Report.Gives.lift text).bind_silent (.emit _)
  · exact .emit (Visit.skipped a p.pathText)

/-! ## All artifacts of a graph -/

namespace Graph

/-- The fragments of a selection: the preamble, if it is wanted, and then place by place those of
the artifacts. -/
def fragments (g : Graph) (s : Selection) : List Fragment :=
  (if s.withPreamble then [.preamble] else []) ++
    g.placements.flatMap fun p => s.artifacts.filterMap (Artifact.fragment? p)

theorem mem_fragments {g : Graph} {s : Selection} {f : Fragment} : f ∈ g.fragments s ↔
    (s.withPreamble = true ∧ f = .preamble) ∨
      ∃ p ∈ g.placements, ∃ a ∈ s.artifacts, a.fragment? p = some f := by
  rw [fragments, List.mem_append, List.mem_flatMap]
  simp only [List.mem_filterMap]
  cases s.withPreamble <;> simp

/-- All artifacts have a text at all places of the graph. -/
def Renders (g : Graph) : Prop :=
  ∀ p ∈ g.placements, ∀ a : Artifact, ∃ text, a.render p = .ok text

theorem visits_gives {g : Graph} (h : g.Renders) (s : Selection) :
    (g.visits s).Gives Visit.fragment? () (g.fragments s) := by
  have hplaces : (g.placements.forM fun p => s.artifacts.forM (Artifact.visit p)).Gives
      Visit.fragment? () (g.placements.flatMap fun p =>
        s.artifacts.filterMap (Artifact.fragment? p)) := by
    refine .forM fun p hp => ?_
    rw [List.filterMap_eq_flatMap_toList]
    refine .forM fun a _ => ?_
    obtain ⟨text, htext⟩ := h p hp a
    exact Artifact.visit_gives htext
  unfold visits fragments
  cases s.withPreamble with
  | false => exact hplaces
  | true => exact (Report.Gives.emit (Visit.rendered .preamble)).bind hplaces

theorem value_generate {g : Graph} (h : g.Renders) (s : Selection) :
    (g.generate s).value = .ok (g.fragments s) := by
  have hvisits := visits_gives h s
  simp only [generate, Report.value_bind, hvisits.value, hvisits.events]
  rfl

end Graph

/-! ## One fragment for each artifact and collection -/

/-- What a fragment is about: its collection, if it has one, and its artifact. -/
def Fragment.key (f : Fragment) : Option String × String :=
  (f.path, f.artifact)

theorem Artifact.key_eq {p : Placement} {a : Artifact} {f : Fragment} (h : a.fragment? p = some f) :
    f.key = (some p.pathText, a.name) := by
  obtain ⟨-, text, -, rfl⟩ := fragment?_eq_some.1 h
  rfl

theorem Artifact.nodup_keys (p : Placement) {artifacts : List Artifact} (h : artifacts.Nodup) :
    ((artifacts.filterMap (fragment? p)).map (·.key)).Nodup := by
  rw [List.map_filterMap]
  refine h.filterMap fun a b key ha hb => ?_
  obtain ⟨e, he, rfl⟩ := Option.map_eq_some_iff.1 ha
  obtain ⟨f, hf, hkey⟩ := Option.map_eq_some_iff.1 hb
  rw [key_eq he, key_eq hf, Prod.mk.injEq] at hkey
  exact (Vocabulary.word_injective hkey.2).symm

theorem Graph.nodup_keys {g : Graph} (hpaths : (g.placements.map (·.pathText)).Nodup)
    {s : Selection} (hartifacts : s.artifacts.Nodup) : ((g.fragments s).map (·.key)).Nodup := by
  have hkeys : ∀ p, ∀ key ∈ (s.artifacts.filterMap (Artifact.fragment? p)).map (·.key),
      key.1 = some p.pathText := by
    intro p key hkey
    obtain ⟨f, hf, rfl⟩ := List.mem_map.1 hkey
    obtain ⟨a, -, ha⟩ := List.mem_filterMap.1 hf
    rw [Artifact.key_eq ha]
  have hplaces : (g.placements.flatMap fun p =>
      (s.artifacts.filterMap (Artifact.fragment? p)).map (·.key)).Nodup := by
    refine List.nodup_flatMap.2 ⟨fun p _ => Artifact.nodup_keys p hartifacts, ?_⟩
    refine (List.pairwise_map.1 hpaths).imp fun {p q} hpq key hp hq => hpq ?_
    exact Option.some.inj ((hkeys p key hp).symm.trans (hkeys q key hq))
  rw [fragments, List.map_append, List.map_flatMap]
  refine List.nodup_append.2 ⟨?_, hplaces, fun first hfirst key hkey heq => ?_⟩
  · cases s.withPreamble <;> simp
  · obtain ⟨p, -, hp⟩ := List.mem_flatMap.1 hkey
    have hnone : first.1 = none := by
      cases hpreamble : s.withPreamble with
      | false => simp [hpreamble] at hfirst
      | true =>
        rw [hpreamble] at hfirst
        obtain rfl := List.mem_singleton.1 hfirst
        rfl
    rw [heq, hkeys p key hp] at hnone
    cases hnone

/-! ## Compilations -/

theorem Builds.renders {mode : Mode} {ds : List Declaration} {g : Graph} (h : Builds mode ds g) :
    g.Renders := by
  obtain rfl := h.eq_graphOf
  exact fun p hp => Graph.exists_render hp

/-- Where one mode gives a graph, any mode gives it, and no diagnostics. -/
theorem Builds.value_buildGraph {mode : Mode} {ds : List Declaration} {g : Graph}
    (h : Builds mode ds g) (mode' : Mode) :
    (buildGraph mode' ds).value = .ok { graph := some g } := by
  obtain ⟨hfindings, rfl⟩ := builds_iff.1 h
  cases mode' with
  | collecting => rw [value_buildGraph_collecting, if_pos hfindings]
  | failFast => rw [value_buildGraph_failFast, hfindings]

/-- The selection of all artifacts, with the preamble. -/
def Selection.everything : Selection :=
  ⟨Vocabulary.members, true⟩

/-- Declarations that have a graph are compiled to it and to the fragments of what is selected. -/
theorem Compiler.value_process_of_builds {c : Compiler} {ds : List Declaration} {g : Graph}
    (h : Builds c.mode ds g) : (c.process ds).value = .ok ⟨g, g.fragments c.selection⟩ := by
  have hgraph : ({ graph := some g } : BuildResult).graphOrFail = .ok g := rfl
  simp only [process, Report.value_bind, Report.lift, h.value_buildGraph, hgraph,
    Graph.value_generate h.renders, Except.bind]
  rfl

/-- Declarations that have a graph are compiled to it and to the fragments of all artifacts, unless
the settings name a level that is unknown or choose among the artifacts. -/
theorem value_compileSchema {mode : Mode} {ds : List Declaration} {g : Graph}
    (h : Builds mode ds g) {settings : Settings} (hartifacts : settings.artifacts = none) {n : Nat}
    (hlevel : Log.levelNumber settings.logLevel = .ok n) :
    (compileSchema ds none settings).value = .ok ⟨g, g.fragments .everything⟩ := by
  have hcreate : Compiler.create settings none = .ok ⟨settings.mode, .everything, n⟩ := by
    rw [Compiler.create, hlevel, hartifacts]
    rfl
  have hbuilds : Builds settings.mode ds g := ⟨_, h.value_buildGraph settings.mode, rfl⟩
  rw [compileSchema, hcreate]
  exact Compiler.value_process_of_builds (c := ⟨settings.mode, .everything, n⟩) hbuilds

end CollectionSchema
