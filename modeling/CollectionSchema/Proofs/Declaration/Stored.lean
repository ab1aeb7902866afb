import CollectionSchema.Proofs.Declaration.Injections

/-!
# Stored members

A member with a directive is filled with metadata of the document, so it is no stored data. In a
record type without faults each such member has one injection, properties before fields
(`Injection.forall₂_sound`). The query fields are the public fields of a comparable type whose names
are those of stored data (`QueryField.among_sound`): a field is left out also where a property of
its name is injected.
-/

namespace CollectionSchema

namespace Injection

/-- A record type without faults has one injection for each member with a directive. -/
theorem forall₂_sound {r : RecordType} (h : faults r = []) :
    List.Forall₂ (fun m i => Fills i m) r.directed (sound r) := by
  have hall : r.directed.filter (·.Fillable) = r.directed := by
    rw [List.filter_eq_self]
    exact fun m hm => decide_eq_true (faults_eq_nil_iff.1 h m hm)
  have hfilled := forall₂_filled r
  rwa [hall] at hfilled

theorem targets_sound {r : RecordType} (h : faults r = []) :
    (sound r).map (·.target) = r.directed.map (·.name) := by
  rw [← List.forall₂_eq_eq_eq, List.forall₂_map_left_iff, List.forall₂_map_right_iff]
  exact (forall₂_sound h).flip.imp fun m i hfills => hfills.target

end Injection

/-! ## Query fields -/

/-- Queries can compare values of the type: a primitive, or a list with exactly one argument, which
is a primitive. -/
def ValueType.Comparable (t : ValueType) : Prop :=
  t.isPrimitive = true ∨
    t.kind = .list ∧ ∃ element, t.arguments = [element] ∧ element.isPrimitive = true

theorem ValueType.isQueryable_iff {t : ValueType} :
    t.isQueryable = true ↔ t.Comparable := by
  rw [isQueryable, Bool.or_eq_true, Bool.and_eq_true, decide_eq_true_iff]
  refine or_congr_right (and_congr_right fun _ => ?_)
  split
  · next element harguments => simp [harguments]
  · next hother =>
    constructor
    · intro h
      cases h
    · rintro ⟨element, harguments, -⟩
      exact absurd harguments (hother element)

/-- A public field of a comparable type that no member with a directive shares its name with. -/
structure Member.IsQueried (m : Member) (r : RecordType) : Prop where
  field : m.kind = .field
  isPublic : m.isPublic = true
  comparable : m.type.Comparable
  stored : ∀ other ∈ r.members, other.injections ≠ [] → other.name ≠ m.name

theorem QueryField.isCandidate_sound {r : RecordType} (h : Injection.faults r = []) (m : Member) :
    isCandidate (Injection.sound r) m = true ↔ m.isPublic = true ∧
      ∀ other ∈ r.members, other.injections ≠ [] → other.name ≠ m.name := by
  have htargets : (∃ i ∈ Injection.sound r, i.target = m.name) ↔
      ∃ other ∈ r.directed, other.name = m.name := by
    rw [← List.mem_map, ← List.mem_map, Injection.targets_sound h]
  simp only [RecordType.mem_directed, and_assoc] at htargets
  rw [isCandidate, Bool.and_eq_true, Bool.not_eq_true', Bool.eq_false_iff, ne_eq, List.any_eq_true]
  simp only [decide_eq_true_iff, htargets, not_exists, not_and, ne_eq]

instance (t : ValueType) : Decidable t.Comparable :=
  decidable_of_iff (t.isQueryable = true) ValueType.isQueryable_iff

instance (m : Member) (r : RecordType) : Decidable (m.IsQueried r) :=
  decidable_of_iff (m.kind = .field ∧ m.isPublic = true ∧ m.type.Comparable ∧
      ∀ other ∈ r.members, other.injections ≠ [] → other.name ≠ m.name)
    ⟨fun h => ⟨h.1, h.2.1, h.2.2.1, h.2.2.2⟩,
      fun h => ⟨h.field, h.isPublic, h.comparable, h.stored⟩⟩

theorem QueryField.among_sound {r : RecordType} (h : Injection.faults r = []) :
    among (Injection.sound r) r.fields =
      (r.members.filter (·.IsQueried r)).map fun m => ⟨m.name, m.type⟩ := by
  rw [among, RecordType.fields, List.filter_filter]
  refine congrArg _ (List.filter_congr fun m _ => ?_)
  rw [Bool.eq_iff_iff, Bool.and_eq_true, Bool.and_eq_true, isCandidate_sound h,
    ValueType.isQueryable_iff, decide_eq_true_iff, decide_eq_true_iff]
  constructor
  · rintro ⟨⟨⟨hpublic, hstored⟩, hcomparable⟩, hfield⟩
    exact ⟨hfield, hpublic, hcomparable, hstored⟩
  · intro hm
    exact ⟨⟨⟨hm.isPublic, hm.stored⟩, hm.comparable⟩, hm.field⟩

namespace Declaration.Yields

variable {d : Declaration} {c : Collection} (h : d.Yields c)

include h

theorem queryFields_eq : c.queryFields =
    (c.recordType.members.filter (·.IsQueried c.recordType)).map fun m => ⟨m.name, m.type⟩ := by
  rw [h.queryFields, h.injections, QueryField.among_sound h.passes.injections]

theorem exists_isQueried {f : QueryField} (hf : f ∈ c.queryFields) :
    ∃ m ∈ c.recordType.members, m.IsQueried c.recordType ∧ ⟨m.name, m.type⟩ = f := by
  rw [h.queryFields_eq] at hf
  obtain ⟨m, hm, rfl⟩ := List.mem_map.1 hf
  obtain ⟨hmember, hqueried⟩ := List.mem_filter.1 hm
  exact ⟨m, hmember, decide_eq_true_iff.1 hqueried, rfl⟩

theorem comparable : ∀ f ∈ c.queryFields, f.type.Comparable := by
  intro f hf
  obtain ⟨m, -, hm, rfl⟩ := h.exists_isQueried hf
  exact hm.comparable

end Declaration.Yields

end CollectionSchema
