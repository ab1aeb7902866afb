import CollectionSchema.Proofs.Artifact.ClassNames
import CollectionSchema.Proofs.Graph.Reordering

/-!
# Code for declarations in another order

Declarations in another order have a graph with the same places, but for the order of the children
of a place (`Placement.Alike`). Only the accessors read the children, and their text consists of one
piece for each child (`Artifact.render_subcollectionAccessors`). So all code is the same, up to the
order of these pieces (`code_of_builds_perm`).
-/

namespace CollectionSchema

open Layout Survey

/-! ## Scripts in a row -/

namespace Layout

/-- A script that has a line and returns to the margin at which it starts. -/
structure Script.Piece (s : Script) : Prop where
  level : levelAfter 0 s = 0
  lines : linesFrom standardIndent 0 s ≠ []

theorem Script.Piece.lines_append {s : Script} (hs : s.Piece) (t : Script) :
    linesFrom standardIndent 0 (s ++ t) =
      linesFrom standardIndent 0 s ++ linesFrom standardIndent 0 t := by
  rw [linesFrom_append, hs.level]

/-- The two empty lines between scripts are an empty line between their texts, of which the first
one ends with a newline. -/
theorem Script.Piece.render_append {s t : Script} (hs : s.Piece)
    (ht : linesFrom standardIndent 0 t ≠ []) :
    (s ++ [blank, blank] ++ t : Script).render = s.render ++ "\n\n" ++ t.render := by
  have hblank : linesFrom standardIndent 0 ([blank, blank] ++ t) =
      "" :: "" :: linesFrom standardIndent 0 t := rfl
  rw [Script.render, Script.render, Script.render, List.append_assoc, hs.lines_append, hblank,
    String.intercalate_append_of_ne_nil hs.lines (List.cons_ne_nil _ _),
    String.intercalate_cons_cons, String.intercalate_cons_of_ne_nil ht]
  simp only [String.append_assoc, String.empty_append]
  rfl

end Layout

namespace Artifact

theorem lines_spaced {s : Script} (hs : s.Piece) (ss : List Script) :
    linesFrom standardIndent 0 (spaced (s :: ss)) ≠ [] := by
  cases ss with
  | nil => exact hs.lines
  | cons t ss =>
    rw [spaced, List.append_assoc, hs.lines_append]
    exact List.append_ne_nil_of_left_ne_nil hs.lines _

theorem render_spaced {s : Script} {ss : List Script} (h : ∀ t ∈ s :: ss, t.Piece) :
    (spaced (s :: ss)).render = "\n\n".intercalate ((s :: ss).map (·.render)) := by
  induction ss generalizing s with
  | nil => exact String.intercalate_singleton.symm
  | cons t ss ih =>
    rw [List.forall_mem_cons] at h
    have hlines := lines_spaced (h.2 t List.mem_cons_self) ss
    rw [spaced, h.1.render_append hlines, ih h.2]
    simp only [List.map_cons, String.intercalate_cons_cons]

/-! ## Accessors -/

theorem accessor_piece (owner : String) (child : NamedCollection) : (accessor owner child).Piece :=
  ⟨rfl, List.cons_ne_nil _ _⟩

/-- The texts of the accessors to the children, each by itself. -/
def accessorTexts (p : Placement) : List String :=
  p.children.map fun child => (accessor p.documentReferenceName child).render

theorem render_subcollectionAccessors {p : Placement} (h : p.children ≠ []) :
    render .subcollectionAccessors p = .ok ("\n\n".intercalate (accessorTexts p)) := by
  obtain ⟨child, rest, hchildren⟩ := List.exists_cons_of_ne_nil h
  have hpieces : ∀ t ∈ (child :: rest).map (accessor p.documentReferenceName), t.Piece := by
    rw [List.forall_mem_map]
    exact fun c _ => accessor_piece _ c
  have htext : render .subcollectionAccessors p = .ok (accessors p).render := rfl
  rw [htext, accessors, accessorTexts, hchildren, List.map_cons, render_spaced hpieces,
    ← List.map_cons, List.map_map]
  rfl

end Artifact

/-! ## Places that are alike -/

/-- Two places of one collection, with one class name and one parent, and with the same children,
which may come in another order. -/
structure Placement.Alike (p q : Placement) : Prop where
  named : p.toNamedCollection = q.toNamedCollection
  parent : p.parent = q.parent
  children : p.children.Perm q.children

/-- The same artifacts are generated for two places, and each has a text, which is the same for
both. Only the texts of the accessors to the children may come in another order. -/
structure Placement.SameCode (p q : Placement) : Prop where
  accepts : ∀ a : Artifact, a.accepts p = a.accepts q
  render : ∀ a : Artifact, a ≠ .subcollectionAccessors →
    ∃ text, a.render p = .ok text ∧ a.render q = .ok text
  accessors : Artifact.subcollectionAccessors.accepts p = true →
    (Artifact.accessorTexts p).Perm (Artifact.accessorTexts q) ∧
      Artifact.subcollectionAccessors.render p =
        .ok ("\n\n".intercalate (Artifact.accessorTexts p)) ∧
      Artifact.subcollectionAccessors.render q =
        .ok ("\n\n".intercalate (Artifact.accessorTexts q))

/-- Nothing but the accessors reads the children. -/
theorem Artifact.render_eq {p q : Placement} (hnamed : p.toNamedCollection = q.toNamedCollection)
    (hparent : p.parent = q.parent) {a : Artifact} (ha : a ≠ .subcollectionAccessors) :
    a.render p = a.render q := by
  obtain ⟨c, parent, children⟩ := p
  obtain ⟨c', parent', children'⟩ := q
  obtain rfl : c = c' := hnamed
  obtain rfl : parent = parent' := hparent
  cases a with
  | subcollectionAccessors => exact absurd rfl ha
  | _ => rfl

namespace Placement.Alike

variable {p q : Placement}

theorem accepts_eq (h : p.Alike q) (a : Artifact) : a.accepts p = a.accepts q := by
  cases a with
  | subcollectionAccessors => rw [Artifact.accepts, Artifact.accepts, h.children.isEmpty_eq]
  | _ => rfl

theorem sameCode (h : p.Alike q) (hrender : ∀ a : Artifact, ∃ text, a.render p = .ok text) :
    p.SameCode q := by
  refine ⟨h.accepts_eq, fun a ha => ?_, fun haccepts => ?_⟩
  · obtain ⟨text, htext⟩ := hrender a
    exact ⟨text, htext, Artifact.render_eq h.named h.parent ha ▸ htext⟩
  · have hp : p.children ≠ [] := by simpa [Artifact.accepts] using haccepts
    have hq : q.children ≠ [] := fun hnil => hp (hnil ▸ h.children).eq_nil
    refine ⟨?_, Artifact.render_subcollectionAccessors hp,
      Artifact.render_subcollectionAccessors hq⟩
    rw [Artifact.accessorTexts, Artifact.accessorTexts, h.named]
    exact h.children.map _

end Placement.Alike

/-! ## Graphs -/

namespace Survey

theorem placedIn_alike {cs ds : List Collection} (hpaths : (cs.map (·.pathText)).Nodup)
    (h : cs.Perm ds) (c : Collection) : (placedIn cs c).Alike (placedIn ds c) := by
  have hnamed : namedIn cs = namedIn ds := funext (namedIn_perm h)
  have hfind : ∀ path, cs.find? (·.pathText = path) = ds.find? (·.pathText = path) :=
    find?_eq_of_perm hpaths h
  refine ⟨namedIn_perm h c, ?_, ?_⟩
  · simp only [placedIn, hnamed, hfind]
  · rw [placedIn, placedIn, hnamed]
    exact (h.filter _).map _

theorem get?_alike {ds es : List Declaration} (hpaths : (ds.map (·.path)).Nodup) (h : ds.Perm es)
    (path : String) :
    Option.Rel Placement.Alike ((graphOf ds).get? path) ((graphOf es).get? path) := by
  have hperm := collections_perm hpaths h
  rw [get?_eq, get?_eq, ← find?_eq_of_perm (nodup_collections ds) hperm path]
  cases (collections ds).find? (·.pathText = path) with
  | none => exact .none
  | some c => exact .some (placedIn_alike (nodup_collections ds) hperm c)

end Survey

theorem Builds.perm {mode : Mode} {ds es : List Declaration} {g : Graph} (h : Builds mode ds g)
    (hperm : ds.Perm es) : Builds mode es (graphOf es) := by
  have hfound := (findings_eq_nil_iff ds).1 (builds_iff.1 h).1
  exact builds_iff.2 ⟨(findings_eq_nil_iff es).2 (discovered_eq_nil_of_perm hperm hfound), rfl⟩

/-- Declarations in another order have a graph with the same collections. At each path, the
collection, its class name, its parent and the set of its children are the same, and so is the code,
but for the order of the accessors to the children. -/
theorem code_of_builds_perm {mode : Mode} {ds es : List Declaration} {g : Graph}
    (h : Builds mode ds g) (hperm : ds.Perm es) :
    ∃ g', Builds mode es g' ∧ ∀ path,
      Option.Rel (fun p q => p.Alike q ∧ p.SameCode q) (g.get? path) (g'.get? path) := by
  refine ⟨graphOf es, h.perm hperm, fun path => ?_⟩
  obtain rfl := h.eq_graphOf
  have halike := get?_alike h.sound.nodup hperm path
  generalize hp : (graphOf ds).get? path = p?, (graphOf es).get? path = q? at halike
  cases halike with
  | none => exact .none
  | some hpq =>
    exact .some ⟨hpq, hpq.sameCode (Graph.exists_render (get?_graphOf_eq_some.1 hp).1)⟩

/-- A collection with two others below it. -/
def twoBelow : List Declaration :=
  [.plain "movies" "Movie", .plain "movies/*/comments" "Comment", .plain "movies/*/likes" "Like"]

theorem code_twoBelow :
    Builds .collecting twoBelow (graphOf twoBelow) ∧ twoBelow.Perm twoBelow.reverse ∧
      ∃ g p q, Builds .collecting twoBelow.reverse g ∧
        (graphOf twoBelow).get? "movies" = some p ∧ g.get? "movies" = some q ∧
        p.children.map (·.pathText) = (q.children.map (·.pathText)).reverse ∧
        p.Alike q ∧ p.SameCode q := by
  have hbuilds : Builds .collecting twoBelow (graphOf twoBelow) :=
    builds_iff.2 ⟨by decide +kernel, rfl⟩
  have hperm := twoBelow.reverse_perm.symm
  obtain ⟨g, hg, hcode⟩ := code_of_builds_perm hbuilds hperm
  obtain rfl := hg.eq_graphOf
  have hchildren : ((graphOf twoBelow).get? "movies").map (·.children.map (·.pathText)) =
      some ["movies/*/comments", "movies/*/likes"] := by decide +kernel
  have hreversed : ((graphOf twoBelow.reverse).get? "movies").map (·.children.map (·.pathText)) =
      some ["movies/*/likes", "movies/*/comments"] := by decide +kernel
  obtain ⟨p, hp, hpchildren⟩ := Option.map_eq_some_iff.1 hchildren
  obtain ⟨q, hq, hqchildren⟩ := Option.map_eq_some_iff.1 hreversed
  have hmovies := hcode "movies"
  rw [hp, hq] at hmovies
  cases hmovies with
  | some hpq =>
    exact ⟨hbuilds, hperm, _, p, q, hg, hp, hq, by rw [hpchildren, hqchildren]; rfl, hpq⟩

end CollectionSchema
