import CollectionSchema.Proofs.Artifact.Blocks
import CollectionSchema.Proofs.Artifact.Methods

/-!
# Injected members in generated code

Members that are filled with metadata are never stored, and queries and updates leave them alone.
`Placement.InjectionsApart` says so of the code for a collection: decoding assigns just these
members, encoding drops just their keys, and the methods for updates, filters and orders are made
for the query fields, none of which has the name of such a member. All collections of a graph have
this property (`injectionsApart_of_builds`), whatever their members are called.
-/

namespace CollectionSchema

open Layout Survey Artifact

/-- In the code for a collection, members that are filled with metadata are kept apart from stored
data. -/
structure Placement.InjectionsApart (p : Placement) : Prop where
  /-- There is one injection for each member with a directive, properties before fields. -/
  injections : List.Forall₂ (fun m i => Injection.Fills i m) p.collection.recordType.directed
    p.collection.injections
  /-- One method decodes and assigns the targets, and one encodes and drops them. -/
  conversions : ∃ s decode encode, collectionReference.script p = .ok s ∧
    collectionReference.render p = .ok s.render ∧
    definitions decodeStart s = [decode] ∧ definitions encodeStart s = [encode] ∧
    assigned decode.body = p.collection.injections.map (·.target) ∧
    popped encode.body = p.collection.injections.map (·.target)
  queryFields : p.collection.queryFields =
    (p.collection.recordType.members.filter (·.IsQueried p.collection.recordType)).map
      fun m => ⟨m.name, m.type⟩
  /-- The parameters of the method for updates are those of the query fields. -/
  updates : ∃ s, documentReference.script p = .ok s ∧ documentReference.render p = .ok s.render ∧
    definitions updateStart s = updates p.collection.queryFields
  /-- There are one filter and one order for each query field, and no others. -/
  queries : ∃ s, query.script p = .ok s ∧ query.render p = .ok s.render ∧
    List.Forall₂ Filters p.collection.queryFields (definitions filterStart s) ∧
    List.Forall₂ (Orders p.queryName) p.collection.queryFields (definitions orderStart s)
  apart : ∀ i ∈ p.collection.injections, ∀ f ∈ p.collection.queryFields, f.name ≠ i.target

namespace Artifact

theorem render_of_script {a : Artifact} {p : Placement} {s : Script} (h : a.script p = .ok s) :
    a.render p = .ok s.render := by
  rw [render, h]
  rfl

theorem conversions_of_script {p : Placement} {s : Script}
    (h : collectionReference.script p = .ok s) : ∃ decode encode,
      definitions decodeStart s = [decode] ∧ definitions encodeStart s = [encode] ∧
      assigned decode.body = p.collection.injections.map (·.target) ∧
      popped encode.body = p.collection.injections.map (·.target) := by
  obtain ⟨hdecode, hdecode'⟩ := holds_decodeMethod p
  obtain ⟨hencode, hencode'⟩ := holds_encodeMethod p
  have hfirst := holds_collectionReferenceClass p (.inl rfl) h hdecode hencode'
  have hsecond := holds_collectionReferenceClass p (.inr rfl) h hdecode' hencode
  exact ⟨_, _, hfirst.definitions_eq, hsecond.definitions_eq, assigned_decodeBody p,
    popped_encodeBody p⟩

end Artifact

theorem Declaration.Yields.injectionsApart {d : Declaration} {c : Collection} (h : d.Yields c)
    (cs : List Collection) : (placedIn cs c).InjectionsApart := by
  have hfaults := h.passes.injections
  have hinjections : List.Forall₂ (fun m i => Injection.Fills i m) c.recordType.directed
      c.injections := h.injections ▸ Injection.forall₂_sound hfaults
  constructor
  case injections => exact hinjections
  case conversions =>
    obtain ⟨body, hscript⟩ :=
      exists_script_collectionReference (p := placedIn cs c) h.passes.wellFormed
    obtain ⟨decode, encode, hconversions⟩ := conversions_of_script hscript
    exact ⟨_, decode, encode, hscript, render_of_script hscript, hconversions⟩
  case queryFields => exact h.queryFields_eq
  case updates => exact ⟨_, rfl, rfl, definitions_documentReferenceClass _⟩
  case queries =>
    obtain ⟨s, hscript, hqueries⟩ := definitions_queryClass (p := placedIn cs c) h.comparable
    exact ⟨s, hscript, render_of_script (a := .query) hscript, hqueries⟩
  case apart =>
    intro i hi f hf
    obtain ⟨m, -, hm, rfl⟩ := h.exists_isQueried hf
    have htarget : i.target ∈ c.recordType.directed.map (·.name) := by
      rw [← Injection.targets_sound hfaults, ← h.injections]
      exact List.mem_map_of_mem hi
    obtain ⟨other, hother, hname⟩ := List.mem_map.1 htarget
    obtain ⟨hmember, hdirective⟩ := RecordType.mem_directed.1 hother
    exact fun heq => hm.stored other hmember hdirective (hname.trans heq.symm)

/-- In the code for every collection of a graph, members that are filled with metadata are kept
apart from stored data: decoding assigns them, encoding drops them, and no method updates them,
filters by them or orders by them. -/
theorem injectionsApart_of_builds {mode : Mode} {ds : List Declaration} {g : Graph}
    (h : Builds mode ds g) : ∀ p ∈ g.placements, p.InjectionsApart := by
  obtain rfl := h.eq_graphOf
  intro p hp
  obtain ⟨c, hc, rfl⟩ := mem_placements_iff.1 hp
  obtain ⟨d, -, hyields⟩ := exists_yields hc
  exact hyields.injectionsApart (collections ds)

/-- A record type whose property for the id has the name of a field, with members of types that
queries can and cannot compare, and with a private one. -/
def loanRecord : RecordType where
  name := "Loan"
  members := [
    { name := "id", type := { kind := .string } },
    { name := "reader", type := { kind := .string }, injections := [.parentDocumentId] },
    { name := "tags", type := { kind := .list, arguments := [{ kind := .string }] } },
    { name := "note", type := { kind := .string }, isPublic := false },
    { name := "items", type := { kind := .list } },
    { name := "days", type := { kind := .int, nullable := true } },
    { name := "id", type := { kind := .string }, kind := .property, injections := [.documentId] }]
  hasStructuralSerializer := true

def loans : List Declaration :=
  [.plain "readers" "Reader", { path := "readers/*/loans", recordType := some loanRecord }]

theorem injectionsApart_loans :
    Builds .collecting loans (graphOf loans) ∧
      (graphOf loans).placements.map (fun p => (p.collection.injections.map (·.target),
        p.collection.queryFields.map (·.name))) = [([], []), (["id", "reader"], ["tags", "days"])] ∧
      ∀ p ∈ (graphOf loans).placements, p.InjectionsApart := by
  have h : Builds .collecting loans (graphOf loans) := builds_iff.2 ⟨by decide +kernel, rfl⟩
  exact ⟨h, by decide +kernel, injectionsApart_of_builds h⟩

end CollectionSchema
