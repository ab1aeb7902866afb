import CollectionSchema.Proofs.Graph.Sound

/-!
# Names of collections

A collection has the name that was declared for it, or the last part of its path in camel case.
Both are seen from the declaration alone (`Declaration.Yields.name_eq`), and so are the names of the
collections below a path (`Sound.names_children`).
-/

namespace CollectionSchema

open Survey Text

namespace Declaration

/-- The last part of the path. -/
def lastPart (d : Declaration) : String :=
  .ofList ((pieces (· == '/') d.path.toList).getLastD [])

/-- The name that the collection gets: the declared one unless it is empty, or else the last part of
the path in camel case. -/
def shownName (d : Declaration) : String :=
  (d.name.filter (!·.isEmpty)).getD (camelCase d.lastPart)

theorem Yields.last?_eq {d : Declaration} {c : Collection} (h : d.Yields c) :
    c.path.last? = some d.lastPart := by
  have hraw : c.path.raw = d.path := Path.raw_of_validate h.passes.path
  obtain ⟨last, hlast⟩ := h.passes.wellFormed.exists_last?
  obtain ⟨s, hs, rfl⟩ := Option.map_eq_some_iff.1 hlast
  rw [hlast, lastPart, ← hraw, h.passes.wellFormed.pieces_raw, List.getLastD_eq_getLast?,
    List.getLast?_map, hs]
  exact congrArg some String.ofList_toList.symm

theorem Yields.name_eq {d : Declaration} {c : Collection} (h : d.Yields c) :
    c.name = d.shownName := by
  have hname := h.name
  rw [Collection.nameFor, h.last?_eq] at hname
  unfold shownName
  cases hdeclared : d.name.filter (!·.isEmpty) with
  | none =>
    rw [hdeclared] at hname
    exact (Except.ok.inj hname).symm
  | some name =>
    rw [hdeclared] at hname
    exact (Except.ok.inj hname).symm

end Declaration

/-- The declarations whose path has this one as its parent path. -/
def declaredBelow (ds : List Declaration) (path : String) : List Declaration :=
  ds.filter fun d => parentPathOf? d.path = some path

/-- The children of a collection have the names of the declarations below its path. -/
theorem Sound.names_children {ds : List Declaration} (h : Sound ds) (k : Kept) :
    (placedAmong (kept ds) k).children.map (·.collection.name) =
      (declaredBelow ds k.collection.pathText).map (·.shownName) := by
  have hpairs : (kept ds).map (fun j => (j.collection.path.parent?, j.collection.name)) =
      ds.map fun d => (parentPathOf? d.path, d.shownName) := by
    rw [← List.forall₂_eq_eq_eq, List.forall₂_map_left_iff, List.forall₂_map_right_iff]
    refine h.forall₂_kept.flip.imp fun j d hyields => ?_
    rw [Path.parent?, Path.raw_of_validate hyields.passes.path, hyields.name_eq]
  have hbelow := congrArg (fun pairs => (pairs.filter fun pair =>
    pair.1 = some k.collection.pathText).map (·.2)) hpairs
  simp only [List.filter_map, List.map_map, Function.comp_def] at hbelow
  rw [placedAmong, declaredBelow, List.map_map]
  exact hbelow

end CollectionSchema
