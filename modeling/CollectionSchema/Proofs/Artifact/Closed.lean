import CollectionSchema.Proofs.Artifact.Accessors
import CollectionSchema.Proofs.Artifact.Mentions
import CollectionSchema.Proofs.Fragments
import CollectionSchema.Proofs.Graph.Collections

/-!
# Closed output

Every name in the fragments of a compilation is accounted for: it is the same in all code, or it
stands in the declaration of the collection, or it is the name of a generated class, which one of
the fragments defines. A class that is needed while the code is loaded, as a base class or as the
target of an assignment, is defined by an earlier fragment (`closed_of_builds`). This rests on the
names that places allow, on the order of the artifacts, and on every collection of the graph having
all its classes.
-/

namespace CollectionSchema

open Layout Survey

/-! ## What fragments define and need -/

namespace Fragment

/-- The fragment begins with the definition of a class of this name. -/
def Defines (f : Fragment) (name : String) : Prop :=
  ∃ s : Script, f.content = s.render ∧ Artifact.DefinesClass s name

/-- The fragment begins with the definition of a class that is made from a base class. -/
def Extends (f : Fragment) (name base : String) : Prop :=
  ∃ body : Script, f.content =
    Script.render (.line ("class " ++ name ++ "(" ++ base ++ "):") :: body)

/-- The statements of the fragment assign the accessors to some collections to a class. -/
def Assigns (f : Fragment) (owner : String) (children : List NamedCollection) : Prop :=
  ∃ s : Script, f.content = s.render ∧ statements s = children.map (Artifact.assignment owner)

end Fragment

/-- The fragments define all classes that they name, and define them before they are needed. -/
structure Output.Closed (out : Output) : Prop where
  /-- The names that are the same in all code are not those of generated classes. -/
  template : ∀ name ∈ templateNames, ∀ a : Artifact, ∀ suffix ∈ a.suffix?,
    ¬suffix.toList <:+ name.toList
  /-- A name in the lines of a fragment is the same in all code, or it stands in the declaration of
  the collection, or it is that of a class that the place of the fragment sees. -/
  names : ∀ f ∈ out.fragments,
    (f = .preamble ∧ ∀ name, Artifact.preamble.Mentions name → name ∈ templateNames) ∨
      ∃ p ∈ out.graph.placements, ∃ (a : Artifact) (s : Script), a.script p = .ok s ∧
        f = ⟨a.name, some p.pathText, s.render⟩ ∧ ∀ name, s.Mentions name → p.Allows name
  /-- Every class that a place sees is defined by a fragment. -/
  defined : ∀ p ∈ out.graph.placements, ∀ c a, p.Sees c a → ∀ className ∈ a.className? c,
    ∃ f ∈ out.fragments, f.Defines className
  /-- The base of a collection reference comes first. -/
  base : ∀ p ∈ out.graph.placements, ∀ before f after, out.fragments = before ++ f :: after →
    Artifact.collectionReference.fragment? p = some f →
      f.Extends p.collectionReferenceName p.queryName ∧ ∃ e ∈ before, e.Defines p.queryName
  /-- The class to which accessors are assigned comes first. -/
  target : ∀ p ∈ out.graph.placements, ∀ before f after, out.fragments = before ++ f :: after →
    Artifact.subcollectionAccessors.fragment? p = some f →
      f.Assigns p.documentReferenceName p.children ∧
        ∃ e ∈ before, e.Defines p.documentReferenceName

/-! ## Neighbours -/

theorem Survey.exists_of_sees {ds : List Declaration} {p : Placement}
    (hp : p ∈ (graphOf ds).placements) {c : NamedCollection} {a : Artifact} (h : p.Sees c a) :
    ∃ q ∈ (graphOf ds).placements, q.toNamedCollection = c := by
  obtain ⟨b, hb, rfl⟩ := mem_placements_iff.1 hp
  have hplace : ∀ d ∈ collections ds, ∃ q ∈ (graphOf ds).placements,
      q.toNamedCollection = namedIn (collections ds) d :=
    fun d hd => ⟨_, mem_placements_iff.2 ⟨d, hd, rfl⟩, rfl⟩
  cases h with
  | own a => exact hplace b hb
  | parent hparent =>
    obtain ⟨owner, howner, rfl⟩ := Option.map_eq_some_iff.1 hparent
    obtain ⟨path, -, hfind⟩ := Option.bind_eq_some_iff.1 howner
    exact hplace owner (List.mem_of_find?_eq_some hfind)
  | child hchild =>
    obtain ⟨d, hd, rfl⟩ := List.mem_map.1 hchild
    exact hplace d (List.mem_filter.1 hd).1

/-! ## Definitions -/

theorem Graph.exists_defines {ds : List Declaration} {p : Placement}
    (hp : p ∈ (graphOf ds).placements) {a : Artifact} {name : String}
    (ha : a.className? p.toNamedCollection = some name) :
    ∃ f, a.fragment? p = some f ∧ f.Defines name := by
  obtain ⟨s, hs, hdefines⟩ := Graph.definesOwnClass hp a
  have haccepts : a.accepts p = true := by
    cases a with
    | subcollectionAccessors => cases ha
    | _ => rfl
  have hrender : a.render p = .ok s.render := by
    rw [Artifact.render, hs]
    rfl
  exact ⟨_, Artifact.fragment?_eq_some.2 ⟨haccepts, _, hrender, rfl⟩, s, rfl, hdefines name ha⟩

/-! ## Order -/

theorem mem_of_sublist {α : Type} {before after : List α} {e f : α}
    (hnodup : (before ++ f :: after).Nodup) (h : [e, f].Sublist (before ++ f :: after)) :
    e ∈ before := by
  have hlater : f ∉ after := (List.nodup_cons.1 (List.nodup_append.1 hnodup).2.1).1
  obtain ⟨first, last, hsplit, hfirst, hlast⟩ := List.sublist_append_iff.1 h
  cases first with
  | nil =>
    obtain rfl : [e, f] = last := hsplit
    exact absurd (hlast.of_cons_cons.subset List.mem_cons_self) hlater
  | cons a first =>
    obtain ⟨rfl, -⟩ := List.cons.inj hsplit
    exact hfirst.subset List.mem_cons_self

/-- Two artifacts of one collection are generated in the order in which artifacts are listed. -/
theorem Graph.sublist_fragments {g : Graph} {p : Placement} (hp : p ∈ g.placements)
    {s : Selection} {a b : Artifact} (hab : [a, b].Sublist s.artifacts) {e f : Fragment}
    (he : a.fragment? p = some e) (hf : b.fragment? p = some f) :
    [e, f].Sublist (g.fragments s) := by
  have hpair : [a, b].filterMap (Artifact.fragment? p) = [e, f] := by simp [he, hf]
  have hplace : [e, f].Sublist (s.artifacts.filterMap (Artifact.fragment? p)) :=
    hpair ▸ hab.filterMap _
  have hall := List.sublist_flatten_of_mem
    (List.mem_map_of_mem (f := fun q => s.artifacts.filterMap (Artifact.fragment? q)) hp)
  exact (hplace.trans hall).trans (List.sublist_append_right _ _)

namespace Builds

variable {mode : Mode} {ds : List Declaration} {g : Graph}

theorem nodup_fragments (h : Builds mode ds g) : (g.fragments .everything).Nodup := by
  have hpaths : (g.placements.map (·.pathText)).Nodup := by
    obtain rfl := h.eq_graphOf
    rw [placements_graphOf, List.map_map]
    exact nodup_kept_paths ds
  exact (Graph.nodup_keys hpaths (s := .everything) (by decide)).of_map _

/-- The class of an artifact is defined before the fragments of the artifacts that come later. -/
theorem exists_defines_before (h : Builds mode ds g) {p : Placement} (hp : p ∈ g.placements)
    {a b : Artifact} (hab : [a, b].Sublist (Vocabulary.members : List Artifact)) {name : String}
    (ha : a.className? p.toNamedCollection = some name) {before after : List Fragment}
    {f : Fragment} (hall : g.fragments .everything = before ++ f :: after)
    (hf : b.fragment? p = some f) : ∃ e ∈ before, e.Defines name := by
  have hnodup := h.nodup_fragments
  obtain rfl := h.eq_graphOf
  obtain ⟨e, he, hdefines⟩ := Graph.exists_defines hp ha
  have hsublist := Graph.sublist_fragments (s := .everything) hp hab he hf
  rw [hall] at hnodup hsublist
  exact ⟨e, mem_of_sublist hnodup hsublist, hdefines⟩

/-- Every class that a place sees is defined by a fragment. -/
theorem exists_defines_of_sees (h : Builds mode ds g) {p : Placement} (hp : p ∈ g.placements)
    {c : NamedCollection} {a : Artifact} (hsees : p.Sees c a) {name : String}
    (ha : a.className? c = some name) : ∃ f ∈ g.fragments .everything, f.Defines name := by
  obtain rfl := h.eq_graphOf
  obtain ⟨q, hq, rfl⟩ := exists_of_sees hp hsees
  obtain ⟨f, hf, hdefines⟩ := Graph.exists_defines hq ha
  exact ⟨f, Graph.mem_fragments.2 (.inr ⟨q, hq, a, Vocabulary.mem_members a, hf⟩), hdefines⟩

theorem closed (h : Builds mode ds g) : Output.Closed ⟨g, g.fragments .everything⟩ := by
  constructor
  case template => exact fun name hname a suffix hs => not_isSuffix_of_mem_templateNames hname hs
  case names =>
    intro f hf
    rcases Graph.mem_fragments.1 hf with ⟨-, hpreamble⟩ | ⟨p, hp, a, -, ha⟩
    · exact .inl ⟨hpreamble, fun name => Artifact.mem_templateNames_of_mentions_preamble⟩
    · obtain ⟨-, text, htext, rfl⟩ := Artifact.fragment?_eq_some.1 ha
      rw [Artifact.render] at htext
      cases hscript : a.script p with
      | error e =>
        rw [hscript] at htext
        cases htext
      | ok s =>
        rw [hscript] at htext
        cases htext
        refine .inr ⟨p, hp, a, s, hscript, rfl, fun name hname => ?_⟩
        exact Artifact.allows_of_mentions hscript hname
  case defined => exact fun p hp c a hsees name hname => h.exists_defines_of_sees hp hsees hname
  case base =>
    intro p hp before f after hall hf
    refine ⟨?_, h.exists_defines_before (a := .query) hp (by decide) rfl hall hf⟩
    have hpath : p.collection.path.WellFormed := by
      obtain rfl := h.eq_graphOf
      exact (Graph.generable_of_mem hp).2
    obtain ⟨body, hscript⟩ := Artifact.exists_script_collectionReference hpath
    obtain ⟨-, text, htext, rfl⟩ := Artifact.fragment?_eq_some.1 hf
    rw [Artifact.render, hscript] at htext
    exact ⟨_, (Except.ok.inj htext).symm⟩
  case target =>
    intro p hp before f after hall hf
    refine ⟨?_, h.exists_defines_before (a := .documentReference) hp (by decide) rfl hall hf⟩
    obtain ⟨-, text, htext, rfl⟩ := Artifact.fragment?_eq_some.1 hf
    exact ⟨_, (Except.ok.inj htext).symm, Artifact.statements_accessors p⟩

end Builds

/-- Declarations that have a graph are compiled, with all artifacts, to the preamble and to the
fragments of every collection in order, and these are closed: a name of a generated class, wherever
it occurs in a fragment, is that of a class that the place of the fragment sees, and is defined by
some fragment; a base class and the class to which accessors are assigned are defined by an earlier
one. -/
theorem closed_of_builds {mode : Mode} {ds : List Declaration} {g : Graph} (h : Builds mode ds g)
    {settings : Settings} (hartifacts : settings.artifacts = none) {n : Nat}
    (hlevel : Log.levelNumber settings.logLevel = .ok n) :
    ∃ out, (compileSchema ds none settings).value = .ok out ∧ out.graph = g ∧
      out.fragments = .preamble :: g.placements.flatMap (fun p =>
        Vocabulary.members.filterMap (Artifact.fragment? p)) ∧
      out.Closed :=
  ⟨⟨g, g.fragments .everything⟩, value_compileSchema h hartifacts hlevel, rfl, rfl, h.closed⟩

/-- A collection that is declared in front of its parent. -/
def castAndMovies : List Declaration :=
  [.plain "movies/*/cast" "Role", .plain "movies" "Movie"]

theorem builds_castAndMovies : Builds .collecting castAndMovies (graphOf castAndMovies) :=
  builds_iff.2 ⟨by decide +kernel, rfl⟩

theorem closed_castAndMovies :
    ∃ out, (compileSchema castAndMovies none {}).value = .ok out ∧
      out.graph = graphOf castAndMovies ∧ out.Closed := by
  have hlevel : Log.levelNumber ({} : Settings).logLevel = .ok 20 := rfl
  obtain ⟨out, hout, hgraph, -, hclosed⟩ :=
    @closed_of_builds _ _ _ builds_castAndMovies {} rfl _ hlevel
  exact ⟨out, hout, hgraph, hclosed⟩

end CollectionSchema
