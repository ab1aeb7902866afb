import CollectionSchema.Proofs.Hierarchy.Attachments
import CollectionSchema.Proofs.Path.Owner
import CollectionSchema.Proofs.Work

/-!
# The second pass of a build

The second pass goes through the kept collections and attaches each nested one to the collection
that has its parent path. No collection is met twice, so the attachment never fails:
`linkFrom_enacts` shows that the pass makes one attachment for each collection whose parent is known
(`ownerOf?`), in order, and that it finds exactly those whose parent is neither known nor faulty
(`linkFaults`). Both memories of the links then tell of these attachments (`records_linksFrom`).
-/

namespace CollectionSchema

namespace Survey

open Builder

/-- The number of the collection that owns a collection by their paths. -/
def ownerOf? (byPath : Table String Nat) (c : Collection) : Option Nat :=
  c.path.parent?.bind byPath.find?

/-- What the second pass reports for a collection: that its parent is unknown. -/
def linkFaults (byPath : Table String Nat) (failed : List String) (c : Collection) :
    List Diagnostic :=
  match c.path.parent? with
  | none => []
  | some parentPath =>
    if (byPath.find? parentPath).isSome || failed.contains parentPath then []
    else [orphan c parentPath]

/-- The link to an owner, if there is one. -/
def linkTo (owner : Option Nat) (i : Nat) : List (Nat × Nat) :=
  (owner.map (·, i)).toList

/-- The links of some collections, numbered from `i` on. -/
def linksFrom (byPath : Table String Nat) (i : Nat) (ks : List Kept) : List (Nat × Nat) :=
  (ks.zipIdx i).flatMap fun p => linkTo (ownerOf? byPath p.1.collection) p.2

theorem linksFrom_cons (byPath : Table String Nat) (i : Nat) (k : Kept) (ks : List Kept) :
    linksFrom byPath i (k :: ks) =
      linkTo (ownerOf? byPath k.collection) i ++ linksFrom byPath (i + 1) ks := by
  rw [linksFrom, List.zipIdx_cons, List.flatMap_cons, linksFrom]

/-- The hierarchy after some attachments. -/
def attachAll (h : Hierarchy) (made : List (Nat × Nat)) : Hierarchy :=
  { h with links := made.foldl Links.attached h.links }

theorem link_enacts {h : Hierarchy} {i : Nat} {c : Collection} (byPath : Table String Nat)
    (known : List String) (howner : h.links.owner? i = none) (hnested : c.path.parent? ≠ none) :
    Enacts known (link h byPath i c) (attachAll h (linkTo (ownerOf? byPath c) i))
      { errors := linkFaults byPath known c } := by
  unfold link linkFaults ownerOf?
  cases hparent : c.path.parent? with
  | none => exact absurd hparent hnested
  | some parentPath =>
    cases hfind : byPath.find? parentPath with
    | some p =>
      have hattach := Work.value_exec (Hierarchy.ends_attach_of_free p howner)
      simp only [hfind, Option.bind_some, Option.isSome_some, Bool.true_or, if_true]
      exact .ofReport hattach
    | none =>
      simp only [hfind, Option.bind_some, Option.isSome_none, Bool.false_or]
      refine .get_bind fun b hknown => ?_
      rw [hknown]
      split
      · exact (Enacts.ofReport rfl).bind_pure
      · exact (Enacts.addError _).bind_pure

theorem linkFaults_of_root {c : Collection} (byPath : Table String Nat) (known : List String)
    (h : c.path.parent? = none) : linkFaults byPath known c = [] := by
  rw [linkFaults, h]

/-- One step of the pass: a root stays unlinked. -/
def linkStep (byPath : Table String Nat) (h : Hierarchy) (i : Nat) (k : Kept) :
    Work Builder Hierarchy :=
  if k.collection.isRoot then pure h else noting k.index (link h byPath i k.collection)

theorem linkFrom_cons (byPath : Table String Nat) (h : Hierarchy) (i : Nat) (k : Kept)
    (ks : List Kept) : linkFrom byPath h i (k :: ks) =
      linkStep byPath h i k >>= fun linked => linkFrom byPath linked (i + 1) ks := by
  rw [linkFrom, linkStep]
  split <;> rfl

theorem linkStep_enacts {h : Hierarchy} {i : Nat} {k : Kept} (byPath : Table String Nat)
    (known : List String) (howner : h.links.owner? i = none)
    (hpath : k.collection.path.WellFormed) :
    Enacts known (linkStep byPath h i k) (attachAll h (linkTo (ownerOf? byPath k.collection) i))
      (.noted ((linkFaults byPath known k.collection).map (k.index, ·))) := by
  have hparent := hpath.parent?_isSome
  cases hroot : k.collection.isRoot with
  | false =>
    have hnested : k.collection.path.parent? ≠ none := by
      rw [← Option.isSome_iff_ne_none, hparent]
      simpa [Collection.isRoot] using hroot
    simpa [linkStep, hroot] using (link_enacts byPath known howner hnested).noting k.index
  | true =>
    have hnone : k.collection.path.parent? = none := by
      rw [← Option.not_isSome_iff_eq_none, hparent]
      simpa [Collection.isRoot] using hroot
    rw [linkStep, if_pos hroot, ownerOf?, hnone, linkFaults_of_root byPath known hnone]
    exact .pure h

/-- Only the attached collection has another owner than before. -/
theorem owner?_attachAll_linkTo {h : Hierarchy} {owner : Option Nat} {i j : Nat} (hne : i ≠ j) :
    (attachAll h (linkTo owner i)).links.owner? j = h.links.owner? j := by
  cases owner with
  | none => rfl
  | some p => simp [attachAll, linkTo, Links.attached, hne]

theorem linkFrom_enacts (byPath : Table String Nat) (known : List String) {h : Hierarchy} {i : Nat}
    (ks : List Kept) (hfree : ∀ j, i ≤ j → h.links.owner? j = none)
    (hpaths : ∀ k ∈ ks, k.collection.path.WellFormed) :
    Enacts known (linkFrom byPath h i ks) (attachAll h (linksFrom byPath i ks))
      (.noted (ks.flatMap fun k =>
        (linkFaults byPath known k.collection).map (k.index, ·))) := by
  -- What is attached so far comes before `i`, so that `i` has no owner yet.
  induction ks generalizing h i with
  | nil => exact .pure h
  | cons k ks ih =>
    have hstep := linkStep_enacts byPath known (hfree i (Nat.le_refl i))
      (hpaths k List.mem_cons_self)
    have hrest := ih (h := attachAll h (linkTo (ownerOf? byPath k.collection) i)) (i := i + 1)
      (fun j hj => ?_) fun j hj => hpaths j (List.mem_cons_of_mem k hj)
    · rw [linkFrom_cons, List.flatMap_cons, linksFrom_cons, attachAll, List.foldl_append,
        Effects.noted_append]
      refine hstep.bind ?_
      rw [Effects.noted, List.append_nil]
      exact hrest
    · rw [owner?_attachAll_linkTo (Nat.ne_of_lt hj)]
      exact hfree j (Nat.le_of_lt hj)

/-! ## Reading the links -/

theorem mem_linkTo {owner : Option Nat} {i p j : Nat} :
    (p, j) ∈ linkTo owner i ↔ owner = some p ∧ i = j := by
  rw [linkTo, Option.mem_toList, Option.map_eq_some_iff]
  constructor
  · rintro ⟨q, howner, hpair⟩
    cases hpair
    exact ⟨howner, rfl⟩
  · rintro ⟨howner, rfl⟩
    exact ⟨p, howner, rfl⟩

theorem mem_linksFrom {byPath : Table String Nat} {i p n : Nat} {ks : List Kept} :
    (p, n) ∈ linksFrom byPath i ks ↔
      ∃ k, (k, n) ∈ ks.zipIdx i ∧ ownerOf? byPath k.collection = some p := by
  rw [linksFrom, List.mem_flatMap]
  constructor
  · rintro ⟨⟨k, m⟩, hmem, hlink⟩
    obtain ⟨howner, rfl⟩ := mem_linkTo.1 hlink
    exact ⟨k, hmem, howner⟩
  · rintro ⟨k, hmem, howner⟩
    exact ⟨(k, n), hmem, mem_linkTo.2 ⟨howner, rfl⟩⟩

theorem map_snd_linkTo (owner : Option Nat) (i : Nat) :
    ((linkTo owner i).map (·.2)).Sublist [i] := by
  cases owner <;> simp [linkTo]

theorem nodup_linksFrom (byPath : Table String Nat) (i : Nat) (ks : List Kept) :
    ((linksFrom byPath i ks).map (·.2)).Nodup := by
  have hsub : ∀ qs : List (Kept × Nat), ((qs.flatMap fun q =>
      linkTo (ownerOf? byPath q.1.collection) q.2).map (·.2)).Sublist (qs.map (·.2)) := by
    intro qs
    induction qs with
    | nil => exact .slnil
    | cons q qs ih =>
      rw [List.flatMap_cons, List.map_append, List.map_cons, ← List.singleton_append]
      exact (map_snd_linkTo _ q.2).append ih
  refine (hsub (ks.zipIdx i)).nodup ?_
  rw [List.zipIdx_map_snd]
  exact List.nodup_range'

theorem records_linksFrom (byPath : Table String Nat) (i : Nat) (ks : List Kept) :
    (Links.ofAttachments (linksFrom byPath i ks)).Records (linksFrom byPath i ks) :=
  Links.records_ofAttachments (nodup_linksFrom byPath i ks)

theorem children_linksFrom (byPath : Table String Nat) (i : Nat) (ks : List Kept) (p : Nat) :
    (Links.ofAttachments (linksFrom byPath i ks)).children p =
      ((ks.zipIdx i).filter fun q => ownerOf? byPath q.1.collection = some p).map (·.2) := by
  rw [(records_linksFrom byPath i ks).children_eq]
  unfold linksFrom
  induction ks.zipIdx i with
  | nil => rfl
  | cons q qs ih =>
    rw [List.flatMap_cons, List.filter_append, List.map_append, ih]
    cases howner : ownerOf? byPath q.1.collection with
    | none => simp [linkTo, howner]
    | some n => by_cases hn : n = p <;> simp [linkTo, howner, hn]

theorem owner?_linksFrom (byPath : Table String Nat) {i : Nat} {ks : List Kept} {k : Kept} {n : Nat}
    (h : (k, n) ∈ ks.zipIdx i) :
    (Links.ofAttachments (linksFrom byPath i ks)).owner? n = ownerOf? byPath k.collection := by
  refine Option.ext fun p => ?_
  rw [(records_linksFrom byPath i ks).owner?_eq_some_iff, mem_linksFrom]
  refine ⟨fun ⟨j, hj, howner⟩ => ?_, fun howner => ⟨k, h, howner⟩⟩
  rw [List.mk_mem_zipIdx_iff_le_and_getElem?_sub] at h hj
  rwa [Option.some.inj (h.2.symm.trans hj.2)]

end Survey

end CollectionSchema
