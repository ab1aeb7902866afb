import CollectionSchema.Proofs.Artifact.Identifiers
import CollectionSchema.Proofs.Declaration.Stored
import CollectionSchema.Proofs.Layout.Blocks

/-!
# Block structure of generated code

The code of every artifact is a suite that begins with a line (`Artifact.exists_body`), whatever
fields, injections and children the collection has, as long as no name in the code breaks a line
(`Placement.Legible`). This is so where record types, their members and collections are called by
identifiers, and then all generated code is block structured (`blockStructured_of_builds`).

A script is taken apart twice: by the rules of `Body` and `Suite` into its lines, and each line by
the rules of `IsLine` into fixed texts and names. What is left is computed on the characters of the
fixed texts.
-/

namespace CollectionSchema

open Layout Survey Text

/-! ## Names without newlines -/

theorem plain_of_forall {text : String} {p : Char → Bool} (hp : p '\n' = false)
    (h : ∀ c ∈ text.toList, p c = true) : Plain text := by
  refine ⟨fun hmem => ?_⟩
  rw [h _ hmem] at hp
  cases hp

theorem plain_of_isIdentifier {text : String} (h : isIdentifier text = true) : Plain text :=
  plain_of_forall (p := isNamePart) (by decide) (isIdentifier_iff.1 h).2

/-- No character of an identifier opens a block. -/
theorem closing_of_isIdentifier {text : String} (h : isIdentifier text = true) : Closing text where
  plain := plain_of_isIdentifier h
  ne_empty := ne_empty_of_isIdentifier h
  closed := by
    have hparts := (isIdentifier_iff.1 h).2
    cases hlast : text.toList.getLast? with
    | none => rw [opensBlock, hlast]; rfl
    | some c =>
      have hc := hparts c (List.mem_of_getLast? hlast)
      rw [opensBlock, hlast, Option.any_some, Bool.or_eq_false_iff, beq_eq_false_iff_ne,
        beq_eq_false_iff_ne]
      constructor
      · rintro rfl
        exact absurd hc (by decide)
      · rintro rfl
        exact absurd hc (by decide)

theorem plain_camelCase (text : String) : Plain (camelCase text) :=
  plain_of_forall (p := Char.isAlphanum) (by decide) (isAlphanum_of_mem_camelCase text)

/-! ## Type hints -/

/-- A text of letters, blanks, bars and brackets, as hints for types that queries can compare. -/
structure IsHint (text : String) : Prop where
  chars : ∀ c ∈ text.toList, c.isAlpha = true ∨ c ∈ [' ', '|', '[', ']']

theorem IsHint.ofList {cs : List Char}
    (h : (cs.all fun c => c.isAlpha || [' ', '|', '[', ']'].contains c) = true) :
    IsHint (.ofList cs) := by
  refine ⟨?_⟩
  rw [String.toList_ofList]
  simpa using h

theorem IsHint.append {text rest : String} (h : IsHint text) (hrest : IsHint rest) :
    IsHint (text ++ rest) := by
  refine ⟨?_⟩
  rw [String.toList_append, List.forall_mem_append]
  exact ⟨h.chars, hrest.chars⟩

theorem IsHint.not_mem {text : String} (h : IsHint text) {c : Char}
    (hc : ¬(c.isAlpha = true ∨ c ∈ [' ', '|', '[', ']'])) : c ∉ text.toList :=
  fun hmem => hc (h.chars c hmem)

theorem isHint_admitting {written : String} (h : IsHint written) (nullable : Bool) :
    IsHint (ValueType.admitting nullable written) := by
  unfold ValueType.admitting
  split
  · exact h.append (.ofList rfl)
  · exact h

theorem isHint_of_isPrimitive {t : ValueType} (h : t.isPrimitive = true) : IsHint t.hint := by
  obtain ⟨kind, name, nullable, arguments⟩ := t
  cases kind with
  | string => exact isHint_admitting (.ofList rfl : IsHint "str") nullable
  | bool => exact isHint_admitting (.ofList rfl : IsHint "bool") nullable
  | int => exact isHint_admitting (.ofList rfl : IsHint "int") nullable
  | float => exact isHint_admitting (.ofList rfl : IsHint "float") nullable
  | number => exact isHint_admitting (.ofList rfl : IsHint "int | float") nullable
  | list | map | object | dynamic => cases h

theorem ValueType.Comparable.isHint {t : ValueType} (h : t.Comparable) : IsHint t.hint := by
  rcases h with hprimitive | ⟨hlist, element, harguments, helement⟩
  · exact isHint_of_isPrimitive hprimitive
  · obtain ⟨kind, name, nullable, arguments⟩ := t
    cases hlist
    cases harguments
    have hinner : IsHint ("list[" ++ element.hint ++ "]") :=
      (IsHint.append (.ofList rfl) (isHint_of_isPrimitive helement)).append (.ofList rfl)
    exact isHint_admitting hinner nullable

theorem ValueType.plain_hint {t : ValueType} (h : t.isQueryable = true) : Plain t.hint :=
  ⟨(isQueryable_iff.1 h).isHint.not_mem (by decide)⟩

/-! ## Places -/

/-- No name of a collection breaks a line, and its class name may begin a line. -/
structure NamedCollection.Legible (c : NamedCollection) : Prop where
  className : IsLine c.className
  pathText : Plain c.pathText
  record : Plain c.collection.recordType.name
  name : Plain c.collection.name

/-- No name in the code for a place breaks a line. -/
structure Placement.Legible (p : Placement) : Prop where
  own : p.toNamedCollection.Legible
  parent : ∀ c, p.parent = some c → c.Legible
  children : ∀ c ∈ p.children, c.Legible
  last : ∃ last, p.collection.path.last? = some last ∧ Plain last
  codec : Plain p.collection.codec.typeName
  injections : ∀ i ∈ p.collection.injections, Plain i.target
  queryFields : ∀ f ∈ p.collection.queryFields, Closing f.name ∧ f.type.isQueryable = true

/-- The names of all generated classes may begin a line. -/
theorem NamedCollection.Legible.class {c : NamedCollection} (h : c.Legible) {suffix : String}
    (hsuffix : Plain suffix) : IsLine (c.className ++ suffix) :=
  h.className.append hsuffix

namespace Layout

/-! ## Bodies -/

/-- A suite that begins with a line. -/
structure Body (s : Script) : Prop where
  suite : Suite s
  begun : Begun s

section

variable {s t : Script} {text header : String}

theorem Suite.under (hheader : IsHeader header) (hs : Body s) : Suite (Layout.block header s) :=
  .block hheader hs.suite hs.begun

theorem Body.line (htext : IsStatement text) (hs : Suite s) : Body (.line text :: s) :=
  ⟨.line htext hs, text, s, rfl, htext.toIsLine⟩

theorem Body.under (hheader : IsHeader header) (hs : Body s) : Body (Layout.block header s) :=
  ⟨.under hheader hs, header, .indent :: s ++ [.dedent], rfl, hheader.toIsLine⟩

theorem Body.append (hs : Body s) (ht : Suite t) : Body (s ++ t) := by
  obtain ⟨text, rest, rfl, htext⟩ := hs.begun
  exact ⟨hs.suite.append ht, text, rest ++ t, rfl, htext⟩

theorem Suite.flatten {ss : List Script} (h : ∀ s ∈ ss, Suite s) : Suite ss.flatten := by
  induction ss with
  | nil => exact .nil
  | cons s ss ih =>
    rw [List.forall_mem_cons] at h
    exact .append h.1 (ih h.2)

theorem Suite.flatMap {α : Type} {l : List α} {f : α → Script} (h : ∀ a ∈ l, Suite (f a)) :
    Suite (l.flatMap f) :=
  .flatten (List.forall_mem_map.2 h)

theorem Suite.map {α : Type} {l : List α} {text : α → String}
    (h : ∀ a ∈ l, IsStatement (text a)) : Suite (l.map fun a => .line (text a)) := by
  induction l with
  | nil => exact .nil
  | cons a l ih =>
    rw [List.forall_mem_cons] at h
    exact .line h.1 (ih h.2)

end

end Layout

namespace Artifact

/-! ## Preamble -/

theorem body_preamble : Body preamble := by
  unfold preamble
  apply_rules [Body.under, Body.append, Body.line, Suite.under, Suite.append, Suite.blank,
    Suite.nil, Suite.line]
  all_goals exact .ofList rfl

/-! ## Queries -/

theorem plain_filterParameter {name type : String} (hname : Plain name) (htype : Plain type) :
    Plain (filterParameter name type) :=
  ((hname.append (.ofList rfl)).append htype).append (.ofList rfl)

section

variable {query : String} (hquery : Plain query)

include hquery

theorem suite_filterMethod {field parameters : String} {operators : List (String × String)}
    (hfield : Plain field) (hparameters : Plain parameters)
    (hoperators : ∀ o ∈ operators, Plain o.1 ∧ Plain o.2) :
    Suite (filterMethod query field parameters operators) := by
  have hsteps : ∀ o ∈ operators, Suite (filterStep field o.2 o.1) := by
    intro o ho
    obtain ⟨hargument, hoperator⟩ := hoperators o ho
    refine .under ?_ (.line ?_ .nil)
    all_goals
      apply_rules [IsLine.header, IsLine.statement, IsLine.append]
      all_goals exact .ofList rfl
  refine .under ?_ (.append (.line ?_ (.flatMap hsteps)) (.line ?_ .nil))
  case refine_2 => exact .ofList rfl
  all_goals
    apply_rules [IsLine.header, IsLine.statement, IsLine.append]
    all_goals exact .ofList rfl

theorem suite_fieldOrder {f : QueryField} (hfield : Plain f.name) :
    Suite (fieldOrder query f) := by
  refine .under ?_ (.line (.ofList rfl) (.line ?_ .nil))
  all_goals
    apply_rules [IsLine.header, IsLine.statement, IsLine.append]
    all_goals exact .ofList rfl

theorem exists_suite_fieldFilter {f : QueryField} (hfield : Plain f.name)
    (htype : f.type.isQueryable = true) :
    ∃ s, fieldFilter query f = .ok s ∧ Suite s := by
  have hhint := f.type.plain_hint htype
  unfold fieldFilter
  split
  · next hlist =>
    have hnot : f.type.isPrimitive ≠ true := by
      rw [ValueType.isPrimitive, hlist]
      decide
    obtain ⟨-, element, harguments, helement⟩ :=
      (ValueType.isQueryable_iff.1 htype).resolve_left hnot
    have hinner := element.plain_hint (ValueType.isQueryable_iff.2 (.inl helement))
    rw [harguments]
    refine ⟨_, rfl, suite_filterMethod hquery hfield ?_ (by decide)⟩
    exact ((plain_filterParameter (.ofList rfl) hinner).append (.ofList rfl)).append
      (plain_filterParameter (.ofList rfl) hhint)
  · refine ⟨_, rfl, suite_filterMethod hquery hfield ?_ (by decide)⟩
    have hnames : ∀ c ∈ comparisons, Plain c.1 := by decide
    refine Plain.intercalate (.ofList rfl) (List.forall_mem_map.2 fun c hc => ?_)
    exact plain_filterParameter (hnames c hc) hhint

theorem exists_suite_fieldMethods {f : QueryField} (hfield : Plain f.name)
    (htype : f.type.isQueryable = true) :
    ∃ s, fieldMethods query f = .ok s ∧ Suite s := by
  obtain ⟨filter, hfilter, hsuite⟩ := exists_suite_fieldFilter hquery hfield htype
  refine ⟨blank :: filter ++ blank :: fieldOrder query f, ?_, ?_⟩
  · rw [fieldMethods, hfilter]
    rfl
  · exact .append (.blank hsuite) (.blank (suite_fieldOrder hquery hfield))

theorem exists_suite_methods {fields : List QueryField}
    (h : ∀ f ∈ fields, Closing f.name ∧ f.type.isQueryable = true) :
    ∃ methods, fields.mapM (fieldMethods query) = .ok methods ∧ Suite methods.flatten := by
  induction fields with
  | nil => exact ⟨[], rfl, .nil⟩
  | cons f fields ih =>
    rw [List.forall_mem_cons] at h
    obtain ⟨first, hfirst, hsuite⟩ := exists_suite_fieldMethods hquery h.1.1.plain h.1.2
    obtain ⟨rest, hrest, hsuites⟩ := ih h.2
    refine ⟨first :: rest, ?_, .append hsuite hsuites⟩
    rw [List.mapM_cons, hfirst, hrest]
    rfl

end

section

variable {p : Placement} (h : p.Legible)

include h

theorem exists_body_queryClass : ∃ s, queryClass p = .ok s ∧ Body s := by
  have hquery : Plain p.queryName := (h.own.class (.ofList rfl)).plain
  have hsnapshot : Plain p.querySnapshotName := (h.own.class (.ofList rfl)).plain
  have hpath := h.own.pathText
  obtain ⟨methods, hmethods, hsuite⟩ := exists_suite_methods hquery h.queryFields
  rw [queryClass, hmethods]
  refine ⟨_, rfl, ?_⟩
  apply_rules [Body.under, Body.append, Body.line, Suite.under, Suite.append, Suite.blank,
    Suite.nil, Suite.line]
  all_goals
    first
    | exact .ofList rfl
    | apply_rules [IsLine.header, IsLine.statement, IsLine.append]
      all_goals exact .ofList rfl

theorem body_querySnapshotClass : Body (querySnapshotClass p) := by
  have hquery : Plain p.queryName := (h.own.class (.ofList rfl)).plain
  have hsnapshot : Plain p.querySnapshotName := (h.own.class (.ofList rfl)).plain
  have hdocument : IsLine p.queryDocumentSnapshotName := h.own.class (.ofList rfl)
  have hdocuments := hdocument.plain
  have hpath := h.own.pathText
  unfold querySnapshotClass
  apply_rules [Body.under, Body.append, Body.line, Suite.under, Suite.append, Suite.blank,
    Suite.nil, Suite.line]
  all_goals
    first
    | exact .ofList rfl
    | apply_rules [IsLine.header, IsLine.statement, IsLine.append]
      all_goals exact .ofList rfl

theorem body_queryDocumentSnapshotClass : Body (queryDocumentSnapshotClass p) := by
  have hdocument : Plain p.queryDocumentSnapshotName := (h.own.class (.ofList rfl)).plain
  have hcollection : Plain p.collectionReferenceName := (h.own.class (.ofList rfl)).plain
  have hpath := h.own.pathText
  have hrecord := h.own.record
  unfold queryDocumentSnapshotClass
  apply_rules [Body.under, Body.append, Body.line, Suite.under, Suite.append, Suite.blank,
    Suite.nil, Suite.line]
  all_goals
    first
    | exact .ofList rfl
    | apply_rules [IsLine.header, IsLine.statement, IsLine.append]
      all_goals exact .ofList rfl

/-! ## References -/

theorem body_documentSnapshotClass : Body (documentSnapshotClass p) := by
  have hclass : Plain p.documentSnapshotName := (h.own.class (.ofList rfl)).plain
  have hdocument : Plain p.documentReferenceName := (h.own.class (.ofList rfl)).plain
  have hcollection : Plain p.collectionReferenceName := (h.own.class (.ofList rfl)).plain
  have hrecord := h.own.record
  have hwrapped : Plain p.wrappedSnapshotName :=
    (Plain.append (.ofList rfl) hrecord).append (.ofList rfl)
  unfold documentSnapshotClass
  apply_rules [Body.under, Body.append, Body.line, Suite.under, Suite.append, Suite.blank,
    Suite.nil, Suite.line]
  all_goals
    first
    | exact .ofList rfl
    | apply_rules [IsLine.header, IsLine.statement, IsLine.append]
      all_goals exact .ofList rfl

end

theorem suite_updateMethod {fields : List QueryField}
    (h : ∀ f ∈ fields, Closing f.name ∧ f.type.isQueryable = true) :
    Suite (updateMethod fields) := by
  have hparameters : Plain (", ".intercalate (fields.map updateParameter)) := by
    refine Plain.intercalate (.ofList rfl) (List.forall_mem_map.2 fun f hf => ?_)
    obtain ⟨hname, htype⟩ := h f hf
    exact ((hname.plain.append (.ofList rfl)).append (f.type.plain_hint htype)).append (.ofList rfl)
  have hsteps : ∀ f ∈ fields, Suite (block ("if " ++ f.name ++ " is not _sentinel:") [
      .line ("data[\"" ++ f.name ++ "\"] = " ++ f.name)]) := by
    intro f hf
    have hname := (h f hf).1
    have hplain := hname.plain
    refine .under ?_ (.line ?_ .nil)
    all_goals
      apply_rules [IsLine.header, IsLine.statement, IsLine.append]
      all_goals exact .ofList rfl
  unfold updateMethod
  split
  · exact .nil
  · have hbody : Suite (fields.flatMap _) := .flatMap hsteps
    refine .blank (.under ?_ (.append (.line (.ofList rfl) hbody) (.line (.ofList rfl) .nil)))
    apply_rules [IsLine.header, IsLine.append]
    all_goals exact .ofList rfl

theorem body_documentReferenceClass {p : Placement} (h : p.Legible) :
    Body (documentReferenceClass p) := by
  have hclass : Plain p.documentReferenceName := (h.own.class (.ofList rfl)).plain
  have hsnapshot : Plain p.documentSnapshotName := (h.own.class (.ofList rfl)).plain
  have hcollection : Plain p.collectionReferenceName := (h.own.class (.ofList rfl)).plain
  have hpath := h.own.pathText
  have hrecord := h.own.record
  have hupdate := suite_updateMethod h.queryFields
  unfold documentReferenceClass
  refine .under ?_ (.append (.append ?_ (.under (.ofList rfl) (.line (.ofList rfl) .nil))) hupdate)
  rotate_left
  apply_rules [Body.under, Body.append, Body.line, Suite.under, Suite.append, Suite.blank,
    Suite.nil, Suite.line]
  all_goals
    first
    | exact .ofList rfl
    | apply_rules [IsLine.header, IsLine.statement, IsLine.append]
      all_goals exact .ofList rfl

theorem suite_injectionSteps {record : String} {i : Injection} (hrecord : Plain record)
    (htarget : Plain i.target) : Suite (injectionSteps record i) := by
  have hsource : ∀ kind : Metadata, Closing (metadataSource kind) := by
    intro kind
    cases kind <;> exact .ofList rfl
  unfold injectionSteps
  split
  · refine .append (.append (.line ?_ .nil) (.under ?_ (.line ?_ .nil))) (.line ?_ .nil)
    · exact IsLine.statement (.ofList rfl) (hsource _)
    · exact .ofList rfl
    · apply_rules [IsLine.statement, IsLine.append]
      all_goals exact .ofList rfl
    · apply_rules [IsLine.statement, IsLine.append]
      all_goals exact .ofList rfl
  · refine .line ?_ .nil
    exact IsLine.statement (.append (.append (.ofList rfl) htarget) (.ofList rfl)) (hsource _)

theorem exists_suite_referenceConstructor {p : Placement} (h : p.Legible) :
    ∃ s, referenceConstructor p = .ok s ∧ Suite s := by
  obtain ⟨last, hlast, hplain⟩ := h.last
  have hpath := h.own.pathText
  unfold referenceConstructor
  rw [hlast]
  cases hparent : p.parent with
  | none =>
    refine ⟨_, rfl, .under (.ofList rfl) (.line ?_ .nil)⟩
    apply_rules [IsLine.statement, IsLine.append]
    all_goals exact .ofList rfl
  | some parent =>
    have hdocument : Plain parent.documentReferenceName :=
      ((h.parent parent hparent).class (.ofList rfl)).plain
    refine ⟨_, rfl, .under ?_ (.line (.ofList rfl) (.line ?_ .nil))⟩
    all_goals
      apply_rules [IsLine.header, IsLine.statement, IsLine.append]
      all_goals exact .ofList rfl

theorem closing_decode {c : Codec} {expression : String} (hname : Plain c.typeName)
    (hexpression : Plain expression) : Closing (c.decode expression) := by
  unfold Codec.decode
  split
  all_goals
    apply_rules [Closing.append, Plain.append]
    all_goals exact .ofList rfl

theorem closing_encode {c : Codec} {expression : String} (hname : Plain c.typeName)
    (hexpression : Plain expression) : Closing (c.encode expression) := by
  unfold Codec.encode
  split
  all_goals
    apply_rules [Closing.append, Plain.append]
    all_goals exact .ofList rfl

theorem suite_decodeMethod {p : Placement} (h : p.Legible) : Suite (decodeMethod p) := by
  have hrecord := h.own.record
  have hdecode := closing_decode h.codec (.ofList rfl : Plain "snapshot.to_dict()")
  have hinjections : Suite (p.collection.injections.flatMap
      (injectionSteps p.collection.recordType.name)) :=
    .flatMap fun i hi => suite_injectionSteps hrecord (h.injections i hi)
  refine .line (.ofList rfl) (.under ?_ (.append (.line ?_ hinjections) (.line (.ofList rfl) .nil)))
  · apply_rules [IsLine.header, IsLine.append]
    all_goals exact .ofList rfl
  · exact IsLine.statement (.ofList rfl) hdecode

theorem suite_encodeMethod {p : Placement} (h : p.Legible) : Suite (encodeMethod p) := by
  have hrecord := h.own.record
  have hencode := closing_encode h.codec (.ofList rfl : Plain "value")
  have hinjections : Suite (p.collection.injections.map fun i =>
      .line ("data.pop(\"" ++ i.target ++ "\", None)")) := by
    refine .map fun i hi => ?_
    have htarget := h.injections i hi
    apply_rules [IsLine.statement, IsLine.append]
    all_goals exact .ofList rfl
  refine .line (.ofList rfl) (.under ?_ (.append (.line ?_ hinjections) (.line (.ofList rfl) .nil)))
  · apply_rules [IsLine.header, IsLine.append]
    all_goals exact .ofList rfl
  · exact IsLine.statement (.ofList rfl) hencode

theorem exists_body_collectionReferenceClass {p : Placement} (h : p.Legible) :
    ∃ s, collectionReferenceClass p = .ok s ∧ Body s := by
  have hclass : Plain p.collectionReferenceName := (h.own.class (.ofList rfl)).plain
  have hquery : Plain p.queryName := (h.own.class (.ofList rfl)).plain
  have hdocument : Plain p.documentReferenceName := (h.own.class (.ofList rfl)).plain
  have hpath := h.own.pathText
  have hrecord := h.own.record
  have hdecode := suite_decodeMethod h
  have hencode := suite_encodeMethod h
  obtain ⟨constructor, hconstructor, hsuite⟩ := exists_suite_referenceConstructor h
  rw [collectionReferenceClass, hconstructor]
  refine ⟨_, rfl, .under ?_ ?_⟩
  rotate_left
  apply_rules [Body.under, Body.append, Body.line, Suite.under, Suite.append, Suite.blank,
    Suite.nil, Suite.line]
  all_goals
    first
    | exact .ofList rfl
    | apply_rules [IsLine.header, IsLine.statement, IsLine.append]
      all_goals exact .ofList rfl

/-! ## Accessors -/

theorem body_accessor {owner : String} {child : NamedCollection} (howner : IsLine owner)
    (h : child.Legible) : Body (accessor owner child) := by
  have hclass : Plain child.collectionReferenceName := (h.class (.ofList rfl)).plain
  have hpath := h.pathText
  have hname := h.name
  have hplain := howner.plain
  have hgetter : Plain ("_" ++ camelCase owner ++ "_" ++ child.collection.name) :=
    ((Plain.append (.ofList rfl) (plain_camelCase owner)).append (.ofList rfl)).append hname
  simp only [accessor]
  apply_rules [Body.under, Body.append, Body.line, Suite.under, Suite.append, Suite.blank,
    Suite.nil, Suite.line]
  all_goals
    apply_rules [IsLine.header, IsLine.statement, IsLine.append]
    all_goals exact .ofList rfl

theorem body_spaced {ss : List Script} (hne : ss ≠ []) (h : ∀ s ∈ ss, Body s) :
    Body (spaced ss) := by
  induction ss with
  | nil => exact absurd rfl hne
  | cons s ss ih =>
    rw [List.forall_mem_cons] at h
    cases ss with
    | nil => exact h.1
    | cons t ss =>
      have hrest := ih (List.cons_ne_nil t ss) h.2
      exact .append (.append h.1 (.blank (.blank .nil))) hrest.suite

/-! ## All artifacts -/

/-- The code of an artifact that is generated for a place is a suite that begins with a line. -/
theorem exists_body {p : Placement} (h : p.Legible) {a : Artifact} (ha : a.accepts p = true) :
    ∃ s, a.script p = .ok s ∧ Body s := by
  cases a with
  | query => exact exists_body_queryClass h
  | querySnapshot => exact ⟨_, rfl, body_querySnapshotClass h⟩
  | queryDocumentSnapshot => exact ⟨_, rfl, body_queryDocumentSnapshotClass h⟩
  | documentSnapshot => exact ⟨_, rfl, body_documentSnapshotClass h⟩
  | documentReference => exact ⟨_, rfl, body_documentReferenceClass h⟩
  | collectionReference => exact exists_body_collectionReferenceClass h
  | subcollectionAccessors =>
    refine ⟨_, rfl, body_spaced ?_ (List.forall_mem_map.2 fun child hchild => ?_)⟩
    · simpa [accepts] using ha
    · exact body_accessor (h.own.class (.ofList rfl)) (h.children child hchild)

end Artifact

/-! ## Names in a graph -/

theorem toNat_of_isNamePart {c : Char} (h : isNamePart c = true) :
    48 ≤ c.toNat ∧ c.toNat ≤ 122 := by
  rw [isNamePart, Char.isAlphanum, Bool.or_eq_true, Bool.or_eq_true, isAlpha_iff, beq_iff_eq] at h
  rcases h with (halpha | hdigit) | rfl
  · simp only [Char.toNat_val] at halpha
    omega
  · rw [Char.isDigit, Bool.and_eq_true, decide_eq_true_iff, decide_eq_true_iff, ge_iff_le,
      UInt32.le_iff_toNat_le, UInt32.le_iff_toNat_le] at hdigit
    simp only [Char.toNat_val, Char.reduceVal, UInt32.reduceToNat] at hdigit
    omega
  · decide

theorem isBlank_eq_false {c : Char} (h : isNamePart c = true) : isBlank c = false := by
  obtain ⟨hlow, hhigh⟩ := toNat_of_isNamePart h
  simp only [isBlank, isSpace, Bool.or_eq_false_iff, Bool.and_eq_false_iff,
    decide_eq_false_iff_not, beq_eq_false_iff_ne]
  omega

theorem isLine_of_forall {text : String} (hne : text ≠ "")
    (h : ∀ c ∈ text.toList, isNamePart c = true) : IsLine text := by
  refine ⟨plain_of_forall (by decide) h, ?_⟩
  cases htext : text.toList with
  | nil => exact absurd (String.toList_eq_nil_iff.1 htext) hne
  | cons c rest =>
    have hc := h c (htext ▸ List.mem_cons_self)
    rw [List.head?_cons, Option.any_some, isBlank_eq_false hc]
    rfl

theorem Collection.isLine_className {c : Collection}
    (hrecord : isIdentifier c.recordType.name = true) (qualified : Bool) :
    IsLine (c.className qualified) := by
  refine isLine_of_forall (c.className_ne_empty hrecord qualified) ?_
  unfold Collection.className
  split
  · exact fun a ha => isNamePart_of_isAlphanum (isAlphanum_of_mem_titleJoin c.path.literals a ha)
  · exact (isIdentifier_iff.1 (isIdentifier_capitalized hrecord)).2

theorem Codec.typeName_eq {r : RecordType} {site : Option Site} {c : Codec}
    (h : (Codec.resolve r site).value = .ok c) : c.typeName = r.name := by
  unfold Codec.resolve at h
  split at h
  · cases h
  · cases h
  · cases h
    rfl

theorem Path.WellFormed.plain_raw {path : Path} (h : path.WellFormed) : Plain path.raw :=
  plain_of_forall (p := Path.isPathChar) (by decide) (List.all_eq_true.1 h.all_raw)

theorem Path.WellFormed.plain_last {path : Path} (h : path.WellFormed) {last : String}
    (hlast : path.last? = some last) : Plain last := by
  obtain ⟨s, hs, rfl⟩ := Option.map_eq_some_iff.1 hlast
  exact plain_of_forall (p := Path.isPathChar) (by decide) fun c hc =>
    (h.isPathChar s (List.mem_of_getLast? hs) c hc).1

theorem Injection.target_of_soundOf {m : Member} {i : Injection} (h : soundOf m = some i) :
    i.target = m.name := by
  have hmember : ofMember m = .ok (some i) := by
    unfold soundOf at h
    split at h
    · next hm => rw [hm, h]
    · cases h
  unfold ofMember at hmember
  split at hmember
  · cases hmember
  · split at hmember
    · cases hmember
    · split at hmember
      · cases hmember
      · cases hmember
        rfl
  · cases hmember

namespace Declaration

/-- The record type, its members and the collection are called by identifiers, as far as there are
names. -/
structure Named (d : Declaration) : Prop where
  record : ∀ r ∈ d.recordType, isIdentifier r.name = true
  members : ∀ r ∈ d.recordType, ∀ m ∈ r.members, isIdentifier m.name = true
  name : ∀ name ∈ d.name, isIdentifier name = true

instance (d : Declaration) : Decidable d.Named :=
  decidable_of_iff ((∀ r ∈ d.recordType, isIdentifier r.name = true) ∧
      (∀ r ∈ d.recordType, ∀ m ∈ r.members, isIdentifier m.name = true) ∧
      ∀ name ∈ d.name, isIdentifier name = true)
    ⟨fun h => ⟨h.1, h.2.1, h.2.2⟩, fun h => ⟨h.record, h.members, h.name⟩⟩

variable {d : Declaration} {c : Collection}

theorem Yields.plain_target (h : d.Yields c) (hd : d.Named) :
    ∀ i ∈ c.injections, Plain i.target := by
  intro i hi
  rw [h.injections] at hi
  obtain ⟨m, hm, hsound⟩ := List.mem_filterMap.1 hi
  have hmember : m ∈ c.recordType.members := by
    rcases List.mem_append.1 hm with hm | hm
    · exact (List.mem_filter.1 hm).1
    · exact (List.mem_filter.1 hm).1
  rw [Injection.target_of_soundOf hsound]
  exact plain_of_isIdentifier (hd.members _ h.passes.record m hmember)

theorem Yields.forall_queryFields (h : d.Yields c) (hd : d.Named) :
    ∀ f ∈ c.queryFields, Closing f.name ∧ f.type.isQueryable = true := by
  intro f hf
  rw [h.queryFields] at hf
  obtain ⟨m, hm, rfl⟩ := List.mem_map.1 hf
  obtain ⟨hmember, hqueryable⟩ := List.mem_filter.1 hm
  refine ⟨closing_of_isIdentifier (hd.members _ h.passes.record m ?_), ?_⟩
  · exact (List.mem_filter.1 hmember).1
  · exact (Bool.and_eq_true_iff.1 hqueryable).2

theorem Yields.legible (h : d.Yields c) (hd : d.Named) (cs : List Collection) :
    (namedIn cs c).Legible where
  className := c.isLine_className (hd.record _ h.passes.record) _
  pathText := h.passes.wellFormed.plain_raw
  record := plain_of_isIdentifier (hd.record _ h.passes.record)
  name := by
    have hname := d.isNamePart_of_mem_shownName hd.name
    rw [← h.name_eq] at hname
    exact plain_of_forall (by decide) hname

end Declaration

namespace Survey

variable {ds : List Declaration}

theorem exists_yields {c : Collection} (hc : c ∈ collections ds) :
    ∃ d ∈ ds, d.Yields c := by
  obtain ⟨k, hk, rfl⟩ := List.mem_map.1 hc
  obtain ⟨d, hd, hyields⟩ := exists_of_mem_kept hk
  exact ⟨d, List.mem_of_getElem? hd, hyields⟩

/-- No name in the code for a place of a graph breaks a line. -/
theorem legible (hds : ∀ d ∈ ds, d.Named) :
    ∀ p ∈ (graphOf ds).placements, p.Legible := by
  have hnamed : ∀ c ∈ collections ds, (namedIn (collections ds) c).Legible := by
    intro c hc
    obtain ⟨d, hd, hyields⟩ := exists_yields hc
    exact hyields.legible (hds d hd) _
  intro p hp
  obtain ⟨c, hc, rfl⟩ := mem_placements_iff.1 hp
  obtain ⟨d, hd, hyields⟩ := exists_yields hc
  have hpath := hyields.passes.wellFormed
  constructor
  case own => exact hnamed c hc
  case parent =>
    intro owner howner
    obtain ⟨b, hb, rfl⟩ := Option.map_eq_some_iff.1 howner
    obtain ⟨path, -, hfind⟩ := Option.bind_eq_some_iff.1 hb
    exact hnamed b (List.mem_of_find?_eq_some hfind)
  case children =>
    intro child hchild
    obtain ⟨b, hb, rfl⟩ := List.mem_map.1 hchild
    exact hnamed b (List.mem_filter.1 hb).1
  case last =>
    obtain ⟨last, hlast⟩ := hpath.exists_last?
    exact ⟨last, hlast, hpath.plain_last hlast⟩
  case codec =>
    have hcodec : c.codec.typeName = c.recordType.name := Codec.typeName_eq hyields.codec
    have hplain := plain_of_isIdentifier ((hds d hd).record _ hyields.passes.record)
    rwa [← hcodec] at hplain
  case injections => exact hyields.plain_target (hds d hd)
  case queryFields => exact hyields.forall_queryFields (hds d hd)

end Survey

/-- Where record types, their members and collections are called by identifiers, all generated code
is block structured, and laying it out never tries to move the margin left of column zero. -/
theorem blockStructured_of_builds {mode : Mode} {ds : List Declaration} {g : Graph}
    (h : Builds mode ds g) (hds : ∀ d ∈ ds, d.Named) :
    (NeverClamps 0 Artifact.preamble ∧ BlockStructured Artifact.preamble.render) ∧
      ∀ p ∈ g.placements, ∀ a : Artifact, a.accepts p = true →
        ∃ s, a.script p = .ok s ∧ a.render p = .ok s.render ∧ NeverClamps 0 s ∧
          BlockStructured s.render := by
  have hbody : ∀ {s : Script}, Body s → NeverClamps 0 s ∧ BlockStructured s.render :=
    fun hs => ⟨hs.suite.neverClamps 0, hs.suite.blockStructured hs.begun⟩
  refine ⟨hbody Artifact.body_preamble, fun p hp a ha => ?_⟩
  rw [h.eq_graphOf] at hp
  obtain ⟨s, hscript, hs⟩ := Artifact.exists_body (legible hds p hp) ha
  refine ⟨s, hscript, ?_, hbody hs⟩
  rw [Artifact.render, hscript]
  rfl

/-- A record type with an id, the id of the document above, a list, and a number that may miss. -/
def storyRecord : RecordType where
  name := "Story"
  members := [
    { name := "id", type := { kind := .string }, injections := [.documentId] },
    { name := "shelf", type := { kind := .string }, injections := [.parentDocumentId] },
    { name := "tags", type := { kind := .list, arguments := [{ kind := .string }] } },
    { name := "pages", type := { kind := .int, nullable := true } }]
  hasStructuralSerializer := true

/-- Stories on shelves. -/
def shelves : List Declaration :=
  [.plain "shelves" "Shelf",
    { path := "shelves/*/stories", recordType := some storyRecord, name := some "tales" }]

theorem named_shelves : ∀ d ∈ shelves, d.Named := by
  decide +kernel

theorem blockStructured_shelves :
    Builds .collecting shelves (graphOf shelves) ∧ (∀ d ∈ shelves, d.Named) ∧
      (NeverClamps 0 Artifact.preamble ∧ BlockStructured Artifact.preamble.render) ∧
        ∀ p ∈ (graphOf shelves).placements, ∀ a : Artifact, a.accepts p = true →
          ∃ s, a.script p = .ok s ∧ a.render p = .ok s.render ∧ NeverClamps 0 s ∧
            BlockStructured s.render := by
  have h : Builds .collecting shelves (graphOf shelves) := builds_iff.2 ⟨by decide +kernel, rfl⟩
  exact ⟨h, named_shelves, blockStructured_of_builds h named_shelves⟩

end CollectionSchema
