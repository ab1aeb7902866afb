import CollectionSchema.Proofs.Work

/-!
# The third pass of a build

The third pass marks the collections that share a record type (`value_qualifyFrom`) and then finds
each collection whose class name an earlier one has. It remembers only the first owner of each name;
`conflictsFrom_enacts` shows that it nevertheless finds the first of all earlier collections with
the name.
-/

namespace CollectionSchema

namespace Survey

open Builder

/-! ## Qualified names -/

/-- The entry of a kept collection after the third pass. -/
def entryAmong (all : List Kept) (k : Kept) : Entry :=
  ⟨k.collection, sharesRecordType all k.collection⟩

theorem modify_length {α : Type} (f : α → α) (before : List α) (a : α) (rest : List α) :
    (before ++ a :: rest).modify before.length f = before ++ f a :: rest := by
  induction before with
  | nil => rw [List.nil_append, List.length_nil, List.modify_zero_cons, List.nil_append]
  | cons b before ih =>
    rw [List.cons_append, List.length_cons, List.modify_succ_cons, ih, List.cons_append]

theorem value_qualifyFrom (all : List Kept) {h : Hierarchy} (before : List Entry) (ks : List Kept)
    (hentries : h.entries = before ++ ks.map fun k => { collection := k.collection }) :
    (qualifyFrom all h before.length ks).value =
      .ok { h with entries := before ++ ks.map (entryAmong all) } := by
  induction ks generalizing h before with
  | nil =>
    rw [List.map_nil, ← List.map_nil (f := fun k : Kept => Entry.mk k.collection false), ← hentries]
    rfl
  | cons k ks ih =>
    rw [qualifyFrom]
    cases hshares : sharesRecordType all k.collection with
    | true =>
      have hnext : (h.qualify before.length).entries =
          (before ++ [entryAmong all k]) ++ ks.map fun k => { collection := k.collection } := by
        rw [Hierarchy.qualify, hentries, List.map_cons, modify_length, entryAmong, hshares]
        simp
      have hrest := ih _ hnext
      rw [List.length_append, List.length_singleton, List.append_assoc,
        List.singleton_append] at hrest
      exact hrest
    | false =>
      have hnext : h.entries =
          (before ++ [entryAmong all k]) ++ ks.map fun k => { collection := k.collection } := by
        rw [hentries, List.map_cons, entryAmong, hshares]
        simp
      have hrest := ih _ hnext
      rw [List.length_append, List.length_singleton, List.append_assoc,
        List.singleton_append] at hrest
      exact hrest

/-! ## Conflicts -/

/-- What the third pass reports for a collection behind others. -/
def conflictFaults (earlier : List NamedCollection) (c : NamedCollection) : List Diagnostic :=
  match earlier.find? (·.className = c.className) with
  | some owner => [conflictingClassName owner c]
  | none => []

/-- What the third pass reports for collections behind others. -/
def conflictsAfter (earlier : List NamedCollection) :
    List (Nat × NamedCollection) → List (Nat × Diagnostic)
  | [] => []
  | (i, c) :: rest =>
    (conflictFaults earlier c).map (i, ·) ++ conflictsAfter (earlier ++ [c]) rest

theorem conflictsFrom_enacts (known : List String) (owners earlier : List NamedCollection)
    (h : ∀ name, owners.find? (·.className = name) = earlier.find? (·.className = name))
    (cs : List (Nat × NamedCollection)) :
    Enacts known (conflictsFrom owners cs) () (.noted (conflictsAfter earlier cs)) := by
  -- The owners are fewer than the earlier collections, but a search by name cannot tell them apart.
  induction cs generalizing known owners earlier with
  | nil => exact .pure ()
  | cons p cs ih =>
    obtain ⟨i, c⟩ := p
    rw [conflictsFrom, conflictsAfter, conflictFaults, h]
    cases hfind : earlier.find? (·.className = c.className) with
    | some owner =>
      have hnext : ∀ name, owners.find? (·.className = name) =
          (earlier ++ [c]).find? (·.className = name) := by
        intro name
        rw [h, List.find?_append]
        by_cases hname : c.className = name
        · rw [← hname, hfind, Option.some_or]
        · simp [hname]
      rw [Effects.noted_append]
      exact ((Enacts.addError _).noting i).bind (ih _ _ _ hnext)
    | none =>
      have hnext : ∀ name, (owners ++ [c]).find? (·.className = name) =
          (earlier ++ [c]).find? (·.className = name) := by
        intro name
        rw [List.find?_append, List.find?_append, h]
      exact ih _ _ _ hnext

end Survey

end CollectionSchema
