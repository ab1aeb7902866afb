import CollectionSchema.Proofs.Artifact.Accessors
import CollectionSchema.Proofs.Graph.Collections
import CollectionSchema.Proofs.Text.Words

/-!
# Identifiers in generated code

Names of collections and class names may come from paths, whose parts may begin with digits or have
no words at all. Where declared names and the names of record types are identifiers,
`identifiers_of_builds` says which names and class names are identifiers. A generated class has an
identifier for its name just when the class name of its collection is one.
-/

namespace CollectionSchema

open Survey Text

/-! ## Names of one collection -/

theorem Collection.isIdentifier_className {c : Collection}
    (hrecord : isIdentifier c.recordType.name = true) (qualified : Bool) :
    isIdentifier (c.className qualified) = true ↔
      (qualified = true → (initial? (wordsOfAll c.path.literals)).all Char.isAlpha = true) := by
  have hplain : isIdentifier c.plainClassName = true := isIdentifier_capitalized hrecord
  have hpath : isIdentifier c.pathClassName = true ↔
      (initial? (wordsOfAll c.path.literals)).any Char.isAlpha = true :=
    isIdentifier_titleJoin c.path.literals
  have hempty : c.pathClassName = "" ↔ initial? (wordsOfAll c.path.literals) = none :=
    titleJoin_eq_empty c.path.literals
  unfold Collection.className
  cases qualified with
  | false => simp [hplain]
  | true =>
    cases hinitial : initial? (wordsOfAll c.path.literals) with
    | none =>
      have : c.pathClassName = "" := hempty.2 hinitial
      simp [this, hplain]
    | some a =>
      have hne : c.pathClassName ≠ "" := by
        rw [ne_eq, hempty, hinitial]
        exact Option.some_ne_none a
      rw [hinitial] at hpath
      simp [hne, hpath]

theorem Collection.className_ne_empty {c : Collection}
    (hrecord : isIdentifier c.recordType.name = true) (qualified : Bool) :
    c.className qualified ≠ "" := by
  unfold Collection.className
  split
  · next h => simpa using (Bool.and_eq_true_iff.1 h).2
  · exact ne_empty_of_isIdentifier (isIdentifier_capitalized hrecord)

namespace Declaration

theorem isIdentifier_shownName {d : Declaration}
    (hname : ∀ name ∈ d.name, isIdentifier name = true) :
    isIdentifier d.shownName = true ↔
      d.name.isSome ∨ (initial? (wordsOf d.lastPart.toList)).any Char.isAlpha = true := by
  unfold shownName
  cases hdeclared : d.name with
  | none => simp [isIdentifier_camelCase]
  | some name =>
    have hidentifier := hname name hdeclared
    have hne := ne_empty_of_isIdentifier hidentifier
    simp [Option.filter, hne, hidentifier]

theorem isNamePart_of_mem_shownName {d : Declaration}
    (hname : ∀ name ∈ d.name, isIdentifier name = true) :
    ∀ c ∈ d.shownName.toList, isNamePart c = true := by
  unfold shownName
  cases hdeclared : d.name.filter (!·.isEmpty) with
  | none => exact fun c hc => isNamePart_of_isAlphanum (isAlphanum_of_mem_camelCase _ c hc)
  | some name =>
    exact (isIdentifier_iff.1 (hname name (Option.filter_eq_some_iff.1 hdeclared).1)).2

/-- Another declaration has a record type of the same name. -/
def SharesRecord (ds : List Declaration) (d : Declaration) : Prop :=
  1 < ds.countP fun e => e.recordType.map (·.name) = d.recordType.map (·.name)

end Declaration

/-! ## Generated names -/

theorem Artifact.isIdentifier_className? {c : NamedCollection} (hne : c.className ≠ "")
    {a : Artifact} {name : String} (ha : a.className? c = some name) :
    isIdentifier name = true ↔ isIdentifier c.className = true := by
  have hsuffixes : classSuffixes.all (·.toList.all isNamePart) = true := by decide
  obtain ⟨suffix, hsuffix, rfl⟩ := Option.map_eq_some_iff.1 ha
  have hparts := List.all_eq_true.1 hsuffixes suffix (mem_classSuffixes.2 ⟨a, hsuffix⟩)
  rw [isIdentifier_append hne (List.all_eq_true.1 hparts)]

theorem Artifact.isIdentifier_getter (owner : String) {child : NamedCollection}
    (hchild : ∀ c ∈ child.collection.name.toList, isNamePart c = true) :
    isIdentifier (getter owner child) = true := by
  have howner : ∀ c ∈ (camelCase owner).toList, isNamePart c = true :=
    fun c hc => isNamePart_of_isAlphanum (isAlphanum_of_mem_camelCase owner c hc)
  have hunderscore : isIdentifier "_" = true := by decide
  have hrest : ∀ c ∈ (camelCase owner ++ ("_" ++ child.collection.name)).toList,
      isNamePart c = true := by
    simp only [String.toList_append, List.forall_mem_append]
    exact ⟨howner, (isIdentifier_iff.1 hunderscore).2, hchild⟩
  rw [getter, String.append_assoc, String.append_assoc, isIdentifier_append (by decide) hrest,
    hunderscore]

/-! ## Names in a graph -/

/-- Which of the generated names of a place are identifiers, for its declaration among others. -/
structure Placement.IdentifiedBy (p : Placement) (ds : List Declaration) (d : Declaration) :
    Prop where
  name_iff : isIdentifier p.collection.name = true ↔
    d.name.isSome ∨ (initial? (wordsOf d.lastPart.toList)).any Char.isAlpha = true
  className_iff : isIdentifier p.className = true ↔ (d.SharesRecord ds →
    (initial? (wordsOfAll p.collection.path.literals)).all Char.isAlpha = true)
  /-- The names of all generated classes are identifiers if the class name is one. -/
  class_iff : ∀ (a : Artifact) name, a.className? p.toNamedCollection = some name →
    (isIdentifier name = true ↔ isIdentifier p.className = true)
  getter : ∀ child ∈ p.children,
    isIdentifier (Artifact.getter p.documentReferenceName child) = true

namespace Sound

variable {ds : List Declaration}

theorem forall₂_collections (h : Sound ds) :
    List.Forall₂ Declaration.Yields ds (collections ds) := by
  rw [collections, List.forall₂_map_right_iff]
  exact h.forall₂_kept

/-- Collections share a record type just when their declarations do. -/
theorem sharesRecord_iff (h : Sound ds) {d : Declaration} {c : Collection} (hd : d.Yields c) :
    d.SharesRecord ds ↔
      1 < (collections ds).countP fun b => b.recordType.name = c.recordType.name := by
  have hrecords : ds.map (fun e => e.recordType.map (·.name)) =
      (collections ds).map fun b => some b.recordType.name := by
    rw [← List.forall₂_eq_eq_eq, List.forall₂_map_left_iff, List.forall₂_map_right_iff]
    refine h.forall₂_collections.imp fun e b hyields => ?_
    rw [hyields.passes.record, Option.map_some]
  have hcount := congrArg (List.countP fun name => name = some c.recordType.name) hrecords
  simp only [List.countP_map, Function.comp_def, Option.some.injEq] at hcount
  rw [Declaration.SharesRecord, hd.passes.record, Option.map_some, hcount]

theorem identifiedBy (h : Sound ds)
    (hrecords : ∀ d ∈ ds, ∀ r ∈ d.recordType, isIdentifier r.name = true)
    (hnames : ∀ d ∈ ds, ∀ name ∈ d.name, isIdentifier name = true) {d : Declaration}
    (hd : d ∈ ds) {c : Collection} (hyields : d.Yields c) :
    (placedIn (collections ds) c).IdentifiedBy ds d := by
  have hrecord : isIdentifier c.recordType.name = true :=
    hrecords d hd _ hyields.passes.record
  refine ⟨?_, ?_, fun a name => ?_, fun child hchild => ?_⟩
  · rw [← d.isIdentifier_shownName (hnames d hd), ← hyields.name_eq]
    rfl
  · have hqualified := Collection.isIdentifier_className hrecord
      (1 < (collections ds).countP fun b => b.recordType.name = c.recordType.name)
    rw [decide_eq_true_iff] at hqualified
    rw [h.sharesRecord_iff hyields]
    exact hqualified
  · exact Artifact.isIdentifier_className? (Collection.className_ne_empty hrecord _)
  · obtain ⟨b, hb, rfl⟩ := List.mem_map.1 hchild
    obtain ⟨k, hk, rfl⟩ := List.mem_map.1 (List.mem_filter.1 hb).1
    obtain ⟨e, he, hchild⟩ := exists_of_mem_kept hk
    refine Artifact.isIdentifier_getter _ ?_
    have hparts := e.isNamePart_of_mem_shownName (hnames e (List.mem_of_getElem? he))
    rw [← hchild.name_eq] at hparts
    exact hparts

end Sound

/-- The names of record types and the declared names are identifiers. Then the name of a collection
is an identifier just when it was declared or the first word of the last part of the path begins
with a letter. A class name is an identifier unless the record type is shared and the first word of
the path begins with a digit. Names of generated classes go by the class name, and those of the
functions behind accessors are always identifiers. -/
theorem identifiers_of_builds {mode : Mode} {ds : List Declaration} {g : Graph}
    (h : Builds mode ds g) (hrecords : ∀ d ∈ ds, ∀ r ∈ d.recordType, isIdentifier r.name = true)
    (hnames : ∀ d ∈ ds, ∀ name ∈ d.name, isIdentifier name = true) :
    List.Forall₂ (fun d p => p.pathText = d.path ∧ p.IdentifiedBy ds d) ds g.placements := by
  obtain rfl := h.eq_graphOf
  have hmembers : List.Forall₂ (fun d c => d ∈ ds ∧ d.Yields c) ds (collections ds) :=
    (List.forall₂_and_left ..).2 ⟨fun _ hd => hd, h.sound.forall₂_collections⟩
  rw [placements_eq, List.forall₂_map_right_iff]
  refine hmembers.imp fun d c hdc => ⟨hdc.2.pathText_eq, ?_⟩
  exact h.sound.identifiedBy hrecords hnames hdc.1 hdc.2

/-- Two collections of one record type, which are called by their years, and one without words. -/
def years : List Declaration :=
  [.plain "2020" "Movie", .plain "2021" "Movie", .plain "-" "Actor"]

theorem builds_years : Builds .collecting years (graphOf years) :=
  builds_iff.2 ⟨by decide +kernel, rfl⟩

theorem years_declared : (∀ d ∈ years, ∀ r ∈ d.recordType, isIdentifier r.name = true) ∧
    ∀ d ∈ years, ∀ name ∈ d.name, isIdentifier name = true := by
  decide

theorem identifiers_years :
    Builds .collecting years (graphOf years) ∧
      List.Forall₂ (fun d p => p.pathText = d.path ∧ p.IdentifiedBy years d) years
        (graphOf years).placements :=
  ⟨builds_years, identifiers_of_builds builds_years years_declared.1 years_declared.2⟩

/-- The record type is called by an identifier, but no collection is, and two class names are not
identifiers either. -/
theorem years_not_identifiers :
    Builds .collecting years (graphOf years) ∧
      (∀ d ∈ years, ∀ r ∈ d.recordType, isIdentifier r.name = true) ∧
      (∀ d ∈ years, ∀ name ∈ d.name, isIdentifier name = true) ∧
      (graphOf years).placements.map (fun p => (p.collection.name, p.className)) =
        [("2020", "2020"), ("2021", "2021"), ("", "Actor")] ∧
      isIdentifier "2020" = false ∧ isIdentifier "" = false :=
  ⟨builds_years, years_declared.1, years_declared.2, by decide +kernel, by decide +kernel,
    by decide⟩

end CollectionSchema
