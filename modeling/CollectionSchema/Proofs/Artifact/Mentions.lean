import CollectionSchema.Proofs.Artifact.ClassNames
import CollectionSchema.Proofs.Text.Words

/-!
# Names in generated code

`Text.namesIn` cuts a line into the names in it, whatever stands between them, and
`Layout.Script.Mentions` says that a name is in some line of a script that is not prose. So a name
is mentioned wherever it occurs, be it as a base class, in an annotation, in a call or in an
assignment.

The code of an artifact for a place mentions no names but those that are the same in all code
(`templateNames`), those in texts of the collection's own declaration (`Placement.Quotes`), and
those of the classes that the place sees (`Placement.Sees`): the classes of the collection itself,
the document references of its parent and the collection references of its children
(`Artifact.admits_script`).
-/

namespace CollectionSchema

open Layout

/-! ## Names in a text -/

namespace Text

/-- A character of a name. Of the characters outside ASCII all count. -/
def isInName (c : Char) : Bool :=
  isNamePart c || 0x7f < c.toNat

/-- The names among characters: what stands between characters that are not in names. -/
def namesOf (cs : List Char) : List String :=
  ((pieces (!isInName ·) cs).filter (!·.isEmpty)).map String.ofList

def namesIn (text : String) : List String :=
  namesOf text.toList

/-- What comes behind the characters is not part of a name that they end with. -/
def endsOutside (cs : List Char) : Bool :=
  cs.getLast?.any (!isInName ·)

/-- What comes in front of the characters is not part of a name that they begin with. -/
def beginsOutside (cs : List Char) : Bool :=
  cs.head?.any (!isInName ·)

theorem namesOf_append_of_endsOutside {cs : List Char} (h : endsOutside cs = true)
    (ds : List Char) : namesOf (cs ++ ds) = namesOf cs ++ namesOf ds := by
  rcases List.eq_nil_or_concat cs with rfl | ⟨init, c, rfl⟩
  · simp [namesOf, pieces]
  · have hc : (!isInName c) = true := by simpa [endsOutside] using h
    rw [List.concat_eq_append, List.append_assoc, List.singleton_append, namesOf, namesOf,
      pieces_append_separator (p := (!isInName ·)) hc,
      pieces_append_separator (p := (!isInName ·)) hc]
    simp [namesOf, pieces]

theorem namesOf_append_of_beginsOutside (cs : List Char) {ds : List Char}
    (h : beginsOutside ds = true) : namesOf (cs ++ ds) = namesOf cs ++ namesOf ds := by
  cases ds with
  | nil => simp [namesOf, pieces]
  | cons d ds =>
    have hd : (!isInName d) = true := by simpa [beginsOutside] using h
    rw [namesOf, namesOf, namesOf, pieces_append_separator (p := (!isInName ·)) hd, pieces,
      if_pos hd]
    simp

theorem endsOutside_append (cs : List Char) {ds : List Char} (h : endsOutside ds = true) :
    endsOutside (cs ++ ds) = true := by
  have hne : ds ≠ [] := by
    rintro rfl
    cases h
  rwa [endsOutside, List.getLast?_append_of_ne_nil _ hne]

end Text

open Text

/-- The first characters of a comment, or of a text that describes a class or a function. -/
def Layout.opensProse (cs : List Char) : Bool :=
  cs.take 1 == ['#'] || cs.take 3 == ['"', '"', '"']

def Layout.isProse (text : String) : Bool :=
  opensProse text.toList

/-- The name is in a line of the script that is no prose. -/
def Layout.Script.Mentions (s : Script) (name : String) : Prop :=
  ∃ text, .line text ∈ s ∧ isProse text = false ∧ name ∈ namesIn text

/-! ## The names for a place -/

/-- The names that are the same in all generated code: words of the language, what it has built in,
what the store offers, and the members and parameters of the generated classes. Those that occur
often come first. -/
def templateNames : List String := [
  "self", "reference", "def", "None", "snapshot", "return", "parent", "__init__", "value",
  "collection", "id", "data", "class", "if", "str", "query", "is", "document", "get", "else", "not",
  "property", "direction", "exists", "_", "_Sentinel", "_sentinel", "a", "from_firestore",
  "parent_id", "to_firestore", "Any", "bool", "from", "import", "int", "staticmethod", "super",
  "add", "delete", "firestore", "limit", "path", "set", "update", "_parent_id", "array_contains",
  "array_contains_any", "count", "descending", "docs", "snapshots", "False", "ValueError",
  "__future__", "__len__", "annotations", "dict", "for", "in", "len", "list", "raise", "typing",
  "ASCENDING", "DESCENDING", "doc", "order_by", "pop", "to_dict", "where", "is_equal_to",
  "is_greater_than", "is_greater_than_or_equal_to", "is_less_than", "is_less_than_or_equal_to",
  "is_not_equal_to", "requires"]

/-- The texts of its own declaration, and of the names of its children, with which the code for a
place is filled. -/
inductive Placement.Quotes (p : Placement) : String → Prop
  | path : p.Quotes p.pathText
  | segment {last : String} (h : p.collection.path.last? = some last) : p.Quotes last
  | record : p.Quotes p.collection.recordType.name
  | decode : p.Quotes (p.collection.codec.decode "snapshot.to_dict()")
  | encode : p.Quotes (p.collection.codec.encode "value")
  | target {i : Injection} (h : i ∈ p.collection.injections) : p.Quotes i.target
  | field {f : QueryField} (h : f ∈ p.collection.queryFields) : p.Quotes f.name
  | filter {f : QueryField} (h : f ∈ p.collection.queryFields) : p.Quotes ("where_" ++ f.name)
  | order {f : QueryField} (h : f ∈ p.collection.queryFields) : p.Quotes ("order_by_" ++ f.name)
  | type {f : QueryField} (h : f ∈ p.collection.queryFields) : p.Quotes f.type.hint
  | element {f : QueryField} {t : ValueType} (h : f ∈ p.collection.queryFields)
    (ht : t ∈ f.type.arguments) : p.Quotes t.hint
  | child {c : NamedCollection} (h : c ∈ p.children) : p.Quotes c.collection.name
  /-- The function behind the accessor to a child. -/
  | getter {c : NamedCollection} (h : c ∈ p.children) :
    p.Quotes ("_" ++ camelCase p.documentReferenceName ++ "_" ++ c.collection.name)

/-- The generated classes that the code for a place may name, as the artifacts of collections. -/
inductive Placement.Sees (p : Placement) : NamedCollection → Artifact → Prop
  | own (a : Artifact) : p.Sees p.toNamedCollection a
  | parent {c : NamedCollection} (h : p.parent = some c) : p.Sees c .documentReference
  | child {c : NamedCollection} (h : c ∈ p.children) : p.Sees c .collectionReference

namespace Placement

variable (p : Placement)

/-- A name that the code for a place may mention. -/
inductive Allows : String → Prop
  | template {name : String} (h : name ∈ templateNames) : Allows name
  | quoted {name text : String} (hquotes : p.Quotes text) (h : name ∈ namesIn text) : Allows name
  | seen {name className : String} {c : NamedCollection} {a : Artifact} (hsees : p.Sees c a)
    (hclass : a.className? c = some className) (h : name ∈ namesIn className) : Allows name

/-- The place allows all names in the text. -/
def Admits (text : String) : Prop :=
  ∀ name ∈ namesIn text, p.Allows name

/-- The place allows all names that the script mentions. -/
def AdmitsScript (s : Script) : Prop :=
  ∀ text, .line text ∈ s → isProse text = false → p.Admits text

variable {p}

theorem admits_quoted {text : String} (h : p.Quotes text) : p.Admits text :=
  fun _ hname => .quoted h hname

theorem admits_seen {c : NamedCollection} {a : Artifact} {className : String} (h : p.Sees c a)
    (hclass : a.className? c = some className) : p.Admits className :=
  fun _ hname => .seen h hclass hname

theorem admits_query : p.Admits p.queryName :=
  admits_seen (.own .query) rfl

theorem admits_querySnapshot : p.Admits p.querySnapshotName :=
  admits_seen (.own .querySnapshot) rfl

theorem admits_queryDocumentSnapshot : p.Admits p.queryDocumentSnapshotName :=
  admits_seen (.own .queryDocumentSnapshot) rfl

theorem admits_documentSnapshot : p.Admits p.documentSnapshotName :=
  admits_seen (.own .documentSnapshot) rfl

theorem admits_documentReference : p.Admits p.documentReferenceName :=
  admits_seen (.own .documentReference) rfl

theorem admits_collectionReference : p.Admits p.collectionReferenceName :=
  admits_seen (.own .collectionReference) rfl

end Placement

/-! ## Lines -/

/-- All names among the characters are the same in all code. -/
def isTemplate (cs : List Char) : Bool :=
  (namesOf cs).all templateNames.contains

/-- A line is prose, or the place allows all names in it. -/
def Placement.AdmitsLine (p : Placement) (text : String) : Prop :=
  isProse text = false → p.Admits text

namespace Placement

variable {p : Placement}

theorem admits_of_isTemplate {text : String} (h : isTemplate text.toList = true) :
    p.Admits text := by
  intro name hname
  rw [isTemplate, List.all_eq_true] at h
  exact .template (List.contains_iff_mem.1 (h name hname))

theorem admits_of_all {pairs : List (String × String)}
    (h : pairs.all (fun o => isTemplate o.1.toList && isTemplate o.2.toList) = true) :
    ∀ o ∈ pairs, p.Admits o.1 ∧ p.Admits o.2 := by
  intro o ho
  have htemplate := List.all_eq_true.1 h o ho
  rw [Bool.and_eq_true] at htemplate
  exact htemplate.imp admits_of_isTemplate admits_of_isTemplate

theorem admits_fixed {cs : List Char} (h : isTemplate cs = true) : p.Admits (String.ofList cs) :=
  admits_of_isTemplate (by rwa [String.toList_ofList])

theorem Admits.append {a b : String} (ha : p.Admits a) (hb : p.Admits b)
    (h : endsOutside a.toList = true ∨ beginsOutside b.toList = true) : p.Admits (a ++ b) := by
  have hsplit : namesIn (a ++ b) = namesIn a ++ namesIn b := by
    rw [namesIn, String.toList_append]
    exact h.elim (namesOf_append_of_endsOutside · _) (namesOf_append_of_beginsOutside _)
  intro name hname
  rw [hsplit, List.mem_append] at hname
  exact hname.elim (ha name) (hb name)

/-- A part of a line: characters that are always the same, or a text that is filled in. -/
inductive Part (p : Placement) where
  | fixed (cs : List Char)
  | given {text : String} (h : p.Admits text)

def Part.text : p.Part → String
  | fixed cs => String.ofList cs
  | @given _ text _ => text

theorem Part.toList_text_fixed (cs : List Char) : (fixed cs : p.Part).text.toList = cs :=
  String.toList_ofList

/-- The text with some parts behind it. -/
def extend (text : String) : List p.Part → String
  | [] => text
  | part :: parts => extend (text ++ part.text) parts

/-- Whether fixed parts hold no names but those of all code, and texts that are filled in stand by
themselves; `outside` tells whether a name can begin where the parts begin. -/
def framed (outside : Bool) : List p.Part → Bool
  | [] => true
  | .fixed cs :: parts =>
    isTemplate cs && (outside || beginsOutside cs) && framed (endsOutside cs) parts
  | .given _ :: parts => outside && framed false parts

theorem Admits.extend {outside : Bool} {parts : List p.Part} {text : String} (htext : p.Admits text)
    (houtside : outside = true → endsOutside text.toList = true)
    (h : framed outside parts = true) : p.Admits (extend text parts) := by
  induction parts generalizing outside text with
  | nil => exact htext
  | cons part parts ih =>
    cases part with
    | fixed cs =>
      simp only [framed, Bool.and_eq_true, Bool.or_eq_true] at h
      obtain ⟨⟨htemplate, hapart⟩, hrest⟩ := h
      have hnext := htext.append (admits_fixed htemplate)
        (hapart.imp houtside (by rw [String.toList_ofList]; exact id))
      refine ih hnext (fun hends => ?_) hrest
      rw [String.toList_append, Part.toList_text_fixed]
      exact endsOutside_append _ hends
    | given hgiven =>
      simp only [framed, Bool.and_eq_true] at h
      exact ih (htext.append hgiven (.inl (houtside h.1))) (by nofun) h.2

/-- The place allows all names in a text if it allows those in each of its parts. -/
theorem admits_parts (first : p.Part) (parts : List p.Part)
    (h : framed true (first :: parts) = true) : p.Admits (extend first.text parts) := by
  cases first with
  | fixed cs =>
    simp only [framed, Bool.true_or, Bool.and_true, Bool.and_eq_true] at h
    refine (admits_fixed h.1).extend (fun hends => ?_) h.2
    rwa [String.toList_ofList]
  | given hgiven =>
    simp only [framed, Bool.true_and] at h
    exact hgiven.extend (by nofun) h

theorem AdmitsLine.parts (first : p.Part) (parts : List p.Part)
    (h : framed true (first :: parts) = true) : p.AdmitsLine (extend first.text parts) :=
  fun _ => admits_parts first parts h

theorem admits_commaSeparated {texts : List String} (h : ∀ text ∈ texts, p.Admits text) :
    p.Admits (", ".intercalate texts) := by
  induction texts with
  | nil => exact @admits_fixed p [] rfl
  | cons text texts ih =>
    rw [List.forall_mem_cons] at h
    cases texts with
    | nil =>
      rw [String.intercalate_singleton]
      exact h.1
    | cons next texts =>
      rw [String.intercalate_cons_cons]
      exact admits_parts (.given h.1) [.fixed _, .given (ih h.2)] rfl

/-- What follows the first characters of a line of prose is prose too. -/
theorem AdmitsLine.prose {cs : List Char} {a b : String} (h : opensProse cs = true) :
    p.AdmitsLine (String.ofList cs ++ a ++ b) := by
  have htake : ∀ (n : Nat) (ds rest : List Char), ds.length = n → cs.take n = ds →
      (cs ++ rest).take n = ds := by
    intro n ds rest hlength hds
    have hle : n ≤ cs.length := by
      rw [← hlength, ← hds]
      exact (List.take_sublist n _).length_le
    rw [List.take_append_of_le_length hle, hds]
  intro hcode
  rw [isProse, String.append_assoc, String.toList_append, String.toList_ofList,
    Bool.eq_false_iff] at hcode
  refine absurd ?_ hcode
  simp only [opensProse, Bool.or_eq_true, beq_iff_eq] at h ⊢
  exact h.imp (htake 1 _ _ rfl) (htake 3 _ _ rfl)

/-- The line is prose or the same in all code. -/
theorem AdmitsLine.template {cs : List Char} (h : (opensProse cs || isTemplate cs) = true) :
    p.AdmitsLine (String.ofList cs) := by
  intro hcode
  rw [isProse, String.toList_ofList] at hcode
  rw [hcode, Bool.false_or] at h
  exact admits_fixed h

/-! ## Scripts -/

@[simp]
theorem admitsScript_nil : p.AdmitsScript [] := nofun

@[simp]
theorem admitsScript_line {text : String} {s : Script} :
    p.AdmitsScript (.line text :: s) ↔ p.AdmitsLine text ∧ p.AdmitsScript s := by
  simp [AdmitsScript, AdmitsLine, or_imp, forall_and]

@[simp]
theorem admitsScript_append {s t : Script} :
    p.AdmitsScript (s ++ t) ↔ p.AdmitsScript s ∧ p.AdmitsScript t := by
  simp [AdmitsScript, or_imp, forall_and]

@[simp]
theorem admitsScript_block {header : String} {body : Script} :
    p.AdmitsScript (Layout.block header body) ↔ p.AdmitsLine header ∧ p.AdmitsScript body := by
  simp [AdmitsScript, AdmitsLine, Layout.block, or_imp, forall_and]

@[simp]
theorem admitsScript_blank {s : Script} :
    p.AdmitsScript (blank :: s) ↔ p.AdmitsScript s := by
  rw [blank, admitsScript_line, and_iff_right (AdmitsLine.template rfl)]

@[simp]
theorem admitsScript_flatMap {α : Type} {f : α → Script} {l : List α} :
    p.AdmitsScript (l.flatMap f) ↔ ∀ a ∈ l, p.AdmitsScript (f a) := by
  simp only [AdmitsScript, List.mem_flatMap]
  exact ⟨fun h a ha text htext => h text ⟨a, ha, htext⟩,
    fun h text ⟨a, ha, htext⟩ => h a ha text htext⟩

end Placement

namespace Artifact

variable {p : Placement}

open Placement

/-! ### Queries -/

theorem admits_filterParameter {name type : String} (hname : p.Admits name)
    (htype : p.Admits type) : p.Admits (filterParameter name type) :=
  admits_parts (.given hname) [.fixed _, .given htype, .fixed _] rfl

section

variable {f : QueryField} (hf : f ∈ p.collection.queryFields)

include hf

theorem admits_filterMethod {parameters : String} {operators : List (String × String)}
    (hparameters : p.Admits parameters)
    (hoperators : ∀ o ∈ operators, p.Admits o.1 ∧ p.Admits o.2) :
    p.AdmitsScript (filterMethod p.queryName f.name parameters operators) := by
  have hname : "def where_" ++ f.name = "def " ++ ("where_" ++ f.name) := by
    rw [← String.append_assoc]
    rfl
  have hheader : p.AdmitsLine
      ("def where_" ++ f.name ++ "(self, *, " ++ parameters ++ ") -> " ++ p.queryName ++ ":") := by
    rw [hname]
    exact .parts (.fixed _)
      [.given (admits_quoted (.filter hf)), .fixed _, .given hparameters, .fixed _,
       .given admits_query, .fixed _] rfl
  have hreturn : p.AdmitsLine ("return " ++ p.queryName ++ "(reference)") :=
    .parts (.fixed _) [.given admits_query, .fixed _] rfl
  have hsteps : ∀ o ∈ operators, p.AdmitsScript (filterStep f.name o.2 o.1) := by
    intro o ho
    obtain ⟨hargument, hoperator⟩ := hoperators o ho
    have hif : p.AdmitsLine ("if " ++ o.1 ++ " is not None:") :=
      .parts (.fixed _) [.given hargument, .fixed _] rfl
    have hwhere : p.AdmitsLine
        ("reference = reference.where(\"" ++ f.name ++ "\", \"" ++ o.2 ++ "\", " ++ o.1 ++ ")") :=
      .parts (.fixed _)
        [.given (admits_quoted (.field hf)), .fixed _, .given hoperator, .fixed _,
         .given hargument, .fixed _] rfl
    simp only [filterStep, admitsScript_block, admitsScript_line, admitsScript_nil, hif, hwhere,
      and_true]
  have hfirst : p.AdmitsLine "reference = self.reference" := .template rfl
  simp only [filterMethod, admitsScript_block, admitsScript_append, admitsScript_line,
    admitsScript_flatMap, admitsScript_nil, hheader, hfirst, hreturn, and_true, true_and]
  exact hsteps

theorem admits_fieldFilter {s : Script} (hs : fieldFilter p.queryName f = .ok s) :
    p.AdmitsScript s := by
  have htype : p.Admits f.type.hint := admits_quoted (.type hf)
  unfold fieldFilter at hs
  split at hs
  · cases harguments : f.type.arguments with
    | nil =>
      rw [harguments] at hs
      cases hs
    | cons element rest =>
      rw [harguments] at hs
      cases hs
      have helement : p.Admits element.hint :=
        admits_quoted (.element hf (harguments ▸ List.mem_cons_self))
      have hcontains : p.Admits (filterParameter "array_contains" element.hint) :=
        admits_filterParameter (admits_of_isTemplate rfl) helement
      have hany : p.Admits (filterParameter "array_contains_any" f.type.hint) :=
        admits_filterParameter (admits_of_isTemplate rfl) htype
      exact admits_filterMethod hf (admits_parts (.given hcontains) [.fixed _, .given hany] rfl)
        (admits_of_all rfl)
  · cases hs
    have hcomparisons : ∀ o ∈ comparisons, p.Admits o.1 ∧ p.Admits o.2 := admits_of_all rfl
    refine admits_filterMethod hf (admits_commaSeparated fun text htext => ?_) hcomparisons
    obtain ⟨o, ho, rfl⟩ := List.mem_map.1 htext
    exact admits_filterParameter (hcomparisons o ho).1 htype

theorem admits_fieldOrder : p.AdmitsScript (fieldOrder p.queryName f) := by
  have hname : "def order_by_" ++ f.name = "def " ++ ("order_by_" ++ f.name) := by
    rw [← String.append_assoc]
    rfl
  have hheader : p.AdmitsLine ("def order_by_" ++ f.name
      ++ "(self, *, descending: bool = False) -> " ++ p.queryName ++ ":") := by
    rw [hname]
    exact .parts (.fixed _)
      [.given (admits_quoted (.order hf)), .fixed _, .given admits_query, .fixed _] rfl
  have hreturn : p.AdmitsLine ("return " ++ p.queryName ++ "(self.reference.order_by(\"" ++ f.name
      ++ "\", direction=direction))") :=
    .parts (.fixed _)
      [.given admits_query, .fixed _, .given (admits_quoted (.field hf)), .fixed _] rfl
  simp only [fieldOrder, admitsScript_block, admitsScript_line, admitsScript_nil, hheader, hreturn,
    and_true, true_and]
  exact .template rfl

theorem admits_fieldMethods {s : Script} (hs : fieldMethods p.queryName f = .ok s) :
    p.AdmitsScript s := by
  rw [fieldMethods] at hs
  cases hfilter : fieldFilter p.queryName f with
  | error e =>
    rw [hfilter] at hs
    cases hs
  | ok filter =>
    rw [hfilter] at hs
    cases hs
    simp only [List.cons_append, admitsScript_blank, admitsScript_append]
    exact ⟨admits_fieldFilter hf hfilter, admits_fieldOrder hf⟩

end

theorem admits_methods {fields : List QueryField} (h : fields ⊆ p.collection.queryFields)
    {methods : List Script} (hmethods : fields.mapM (fieldMethods p.queryName) = .ok methods) :
    p.AdmitsScript methods.flatten := by
  induction fields generalizing methods with
  | nil =>
    cases hmethods
    exact admitsScript_nil
  | cons f fields ih =>
    obtain ⟨hf, hfields⟩ := List.cons_subset.1 h
    rw [List.mapM_cons] at hmethods
    cases hfirst : fieldMethods p.queryName f with
    | error e =>
      rw [hfirst] at hmethods
      cases hmethods
    | ok first =>
      cases hrest : fields.mapM (fieldMethods p.queryName) with
      | error e =>
        rw [hfirst, hrest] at hmethods
        cases hmethods
      | ok rest =>
        rw [hfirst, hrest] at hmethods
        cases hmethods
        exact admitsScript_append.2 ⟨admits_fieldMethods hf hfirst, ih hfields hrest⟩

theorem admits_queryClass {s : Script} (hs : queryClass p = .ok s) : p.AdmitsScript s := by
  have hclass : p.AdmitsLine ("class " ++ p.queryName ++ ":") :=
    .parts (.fixed _) [.given admits_query, .fixed _] rfl
  have hdoc : p.AdmitsLine ("\"\"\"Query over \"" ++ p.pathText ++ "\".\"\"\"") :=
    .prose rfl
  have hget : p.AdmitsLine ("def get(self) -> " ++ p.querySnapshotName ++ ":") :=
    .parts (.fixed _) [.given admits_querySnapshot, .fixed _] rfl
  have hgot : p.AdmitsLine
      ("return " ++ p.querySnapshotName ++ "(self.reference.get(), self)") :=
    .parts (.fixed _) [.given admits_querySnapshot, .fixed _] rfl
  have hlimit : p.AdmitsLine ("def limit(self, count: int) -> " ++ p.queryName ++ ":") :=
    .parts (.fixed _) [.given admits_query, .fixed _] rfl
  have hlimited : p.AdmitsLine ("return " ++ p.queryName ++ "(self.reference.limit(count))") :=
    .parts (.fixed _) [.given admits_query, .fixed _] rfl
  rw [queryClass] at hs
  cases hmethods : p.collection.queryFields.mapM (fieldMethods p.queryName) with
  | error e =>
    rw [hmethods] at hs
    cases hs
  | ok methods =>
    rw [hmethods] at hs
    cases hs
    simp only [admitsScript_block, admitsScript_append, admitsScript_line, admitsScript_blank,
      admitsScript_nil, hclass, hdoc, hget, hgot, hlimit, hlimited,
      admits_methods (List.Subset.refl _) hmethods, true_and, and_true]
    exact ⟨.template rfl, .template rfl⟩

theorem admits_querySnapshotClass : p.AdmitsScript (querySnapshotClass p) := by
  have hclass : p.AdmitsLine ("class " ++ p.querySnapshotName ++ ":") :=
    .parts (.fixed _) [.given admits_querySnapshot, .fixed _] rfl
  have hdoc : p.AdmitsLine
      ("\"\"\"Documents of \"" ++ p.pathText ++ "\" matched by a query.\"\"\"") :=
    .prose rfl
  have hinit : p.AdmitsLine
      ("def __init__(self, snapshots, query: " ++ p.queryName ++ ") -> None:") :=
    .parts (.fixed _) [.given admits_query, .fixed _] rfl
  have hdocs : p.AdmitsLine ("self.docs: list[" ++ p.queryDocumentSnapshotName ++ "] = [") :=
    .parts (.fixed _) [.given admits_queryDocumentSnapshot, .fixed _] rfl
  have hwrap : p.AdmitsLine
      (p.queryDocumentSnapshotName ++ "(snapshot) for snapshot in snapshots") :=
    .parts (.given admits_queryDocumentSnapshot) [.fixed _] rfl
  simp only [querySnapshotClass, admitsScript_block, admitsScript_append, admitsScript_line,
    admitsScript_blank, admitsScript_nil, hclass, hdoc, hinit, hdocs, hwrap, true_and, and_true]
  and_intros <;> exact .template rfl

theorem admits_queryDocumentSnapshotClass : p.AdmitsScript (queryDocumentSnapshotClass p) := by
  have hclass : p.AdmitsLine ("class " ++ p.queryDocumentSnapshotName ++ ":") :=
    .parts (.fixed _) [.given admits_queryDocumentSnapshot, .fixed _] rfl
  have hdoc : p.AdmitsLine
      ("\"\"\"A \"" ++ p.pathText ++ "\" document returned by a query.\"\"\"") :=
    .prose rfl
  have hdata : p.AdmitsLine ("self.data: " ++ p.collection.recordType.name ++ " = "
      ++ p.collectionReferenceName ++ ".from_firestore(snapshot)") :=
    .parts (.fixed _)
      [.given (admits_quoted .record), .fixed _, .given admits_collectionReference, .fixed _] rfl
  simp only [queryDocumentSnapshotClass, admitsScript_block, admitsScript_append,
    admitsScript_line, admitsScript_blank, admitsScript_nil, hclass, hdoc, hdata, true_and,
    and_true]
  and_intros <;> exact .template rfl

/-! ### References -/

theorem admits_documentSnapshotClass : p.AdmitsScript (documentSnapshotClass p) := by
  have hclass : p.AdmitsLine ("class " ++ p.documentSnapshotName ++ ":") :=
    .parts (.fixed _) [.given admits_documentSnapshot, .fixed _] rfl
  have hdoc : p.AdmitsLine ("\"\"\"Wraps " ++ p.wrappedSnapshotName ++ ".\"\"\"") :=
    .prose rfl
  have hinit : p.AdmitsLine
      ("def __init__(self, snapshot, reference: " ++ p.documentReferenceName ++ ") -> None:") :=
    .parts (.fixed _) [.given admits_documentReference, .fixed _] rfl
  have hdata : p.AdmitsLine ("self.data: " ++ p.collection.recordType.name ++ " | None = "
      ++ p.collectionReferenceName ++ ".from_firestore(snapshot) if snapshot.exists else None") :=
    .parts (.fixed _)
      [.given (admits_quoted .record), .fixed _, .given admits_collectionReference, .fixed _] rfl
  simp only [documentSnapshotClass, admitsScript_block, admitsScript_append, admitsScript_line,
    admitsScript_blank, admitsScript_nil, hclass, hdoc, hinit, hdata, true_and, and_true]
  and_intros <;> exact .template rfl

theorem admits_updateMethod : p.AdmitsScript (updateMethod p.collection.queryFields) := by
  unfold updateMethod
  split
  · exact admitsScript_nil
  have hparameter : ∀ f ∈ p.collection.queryFields, p.Admits (updateParameter f) := by
    intro f hf
    exact admits_parts (.given (admits_quoted (.field hf)))
      [.fixed _, .given (admits_quoted (.type hf)), .fixed _] rfl
  have hparameters : p.Admits (", ".intercalate (p.collection.queryFields.map updateParameter)) :=
    admits_commaSeparated (List.forall_mem_map.2 hparameter)
  have hheader : p.AdmitsLine ("def update(self, *, "
      ++ ", ".intercalate (p.collection.queryFields.map updateParameter) ++ ") -> None:") :=
    .parts (.fixed _) [.given hparameters, .fixed _] rfl
  have hsteps : ∀ f ∈ p.collection.queryFields,
      p.AdmitsLine ("if " ++ f.name ++ " is not _sentinel:") ∧
        p.AdmitsLine ("data[\"" ++ f.name ++ "\"] = " ++ f.name) := by
    intro f hf
    have hname : p.Admits f.name := admits_quoted (.field hf)
    have hif : p.AdmitsLine ("if " ++ f.name ++ " is not _sentinel:") :=
      .parts (.fixed _) [.given hname, .fixed _] rfl
    have hassign : p.AdmitsLine ("data[\"" ++ f.name ++ "\"] = " ++ f.name) :=
      .parts (.fixed _) [.given hname, .fixed _, .given hname] rfl
    exact ⟨hif, hassign⟩
  simp only [List.cons_append, admitsScript_blank, admitsScript_block, admitsScript_append,
    admitsScript_line, admitsScript_flatMap, admitsScript_nil, hheader, and_true, true_and]
  exact ⟨.template rfl, hsteps, .template rfl⟩

theorem admits_documentReferenceClass : p.AdmitsScript (documentReferenceClass p) := by
  have hclass : p.AdmitsLine ("class " ++ p.documentReferenceName ++ ":") :=
    .parts (.fixed _) [.given admits_documentReference, .fixed _] rfl
  have hdoc : p.AdmitsLine
      ("\"\"\"Reference to a document of \"" ++ p.pathText ++ "\".\"\"\"") :=
    .prose rfl
  have hinit : p.AdmitsLine ("def __init__(self, reference, collection: "
      ++ p.collectionReferenceName ++ ") -> None:") :=
    .parts (.fixed _) [.given admits_collectionReference, .fixed _] rfl
  have hget : p.AdmitsLine ("def get(self) -> " ++ p.documentSnapshotName ++ ":") :=
    .parts (.fixed _) [.given admits_documentSnapshot, .fixed _] rfl
  have hgot : p.AdmitsLine
      ("return " ++ p.documentSnapshotName ++ "(self.reference.get(), self)") :=
    .parts (.fixed _) [.given admits_documentSnapshot, .fixed _] rfl
  have hset : p.AdmitsLine
      ("def set(self, value: " ++ p.collection.recordType.name ++ ") -> None:") :=
    .parts (.fixed _) [.given (admits_quoted .record), .fixed _] rfl
  simp only [documentReferenceClass, admitsScript_block, admitsScript_append, admitsScript_line,
    admitsScript_blank, admitsScript_nil, hclass, hdoc, hinit, hget, hgot, hset,
    admits_updateMethod, true_and, and_true]
  and_intros <;> exact .template rfl

theorem admits_referenceConstructor {s : Script} (hs : referenceConstructor p = .ok s) :
    p.AdmitsScript s := by
  unfold referenceConstructor at hs
  split at hs
  · cases hs
    have hsuper : p.AdmitsLine
        ("super().__init__(firestore.collection(\"" ++ p.pathText ++ "\"))") :=
      .parts (.fixed _) [.given (admits_quoted .path), .fixed _] rfl
    simp only [admitsScript_block, admitsScript_line, admitsScript_nil, hsuper, and_true]
    exact .template rfl
  · next parent last hparent hlast =>
    cases hs
    have hinit : p.AdmitsLine
        ("def __init__(self, parent: " ++ parent.documentReferenceName ++ ") -> None:") :=
      .parts (.fixed _) [.given (admits_seen (.parent hparent) rfl), .fixed _] rfl
    have hsuper : p.AdmitsLine
        ("super().__init__(parent.reference.collection(\"" ++ last ++ "\"))") :=
      .parts (.fixed _) [.given (admits_quoted (.segment hlast)), .fixed _] rfl
    simp only [admitsScript_block, admitsScript_line, admitsScript_nil, hinit, hsuper, and_true,
      true_and]
    exact .template rfl
  · cases hs

theorem admits_injectionSteps {i : Injection} (hi : i ∈ p.collection.injections) :
    p.AdmitsScript (injectionSteps p.collection.recordType.name i) := by
  have htarget : p.Admits i.target := admits_quoted (.target hi)
  have hsource : p.Admits (metadataSource i.kind) := by
    cases i.kind <;> exact admits_of_isTemplate rfl
  have hassign : ∀ source, p.Admits source →
      p.AdmitsLine ("value." ++ i.target ++ " = " ++ source) := by
    intro source hsource
    exact .parts (.fixed _) [.given htarget, .fixed _, .given hsource] rfl
  unfold injectionSteps
  split
  · have hraise : p.AdmitsLine ("raise ValueError(\"" ++ p.collection.recordType.name ++ "."
        ++ i.target ++ " requires a parent document\")") :=
      .parts (.fixed _) [.given (admits_quoted .record), .fixed _, .given htarget, .fixed _] rfl
    have hread : p.AdmitsLine ("parent_id = " ++ metadataSource i.kind) :=
      .parts (.fixed _) [.given hsource] rfl
    have hparentId := hassign "parent_id" (admits_of_isTemplate rfl)
    simp only [admitsScript_block, admitsScript_append, admitsScript_line, admitsScript_nil, hread,
      hraise, hparentId, and_true, true_and]
    exact .template rfl
  · simp only [admitsScript_line, admitsScript_nil, and_true]
    exact hassign _ hsource

theorem admits_decodeMethod : p.AdmitsScript (decodeMethod p) := by
  have hheader : p.AdmitsLine
      ("def from_firestore(snapshot) -> " ++ p.collection.recordType.name ++ ":") :=
    .parts (.fixed _) [.given (admits_quoted .record), .fixed _] rfl
  have hvalue : p.AdmitsLine
      ("value = " ++ p.collection.codec.decode "snapshot.to_dict()") :=
    .parts (.fixed _) [.given (admits_quoted .decode)] rfl
  simp only [decodeMethod, List.cons_append, admitsScript_line, admitsScript_block,
    admitsScript_append, admitsScript_flatMap, admitsScript_nil, hheader, hvalue, and_true,
    true_and]
  exact ⟨.template rfl, fun i hi => admits_injectionSteps hi,
    .template rfl⟩

theorem admits_encodeMethod : p.AdmitsScript (encodeMethod p) := by
  have hheader : p.AdmitsLine ("def to_firestore(value: " ++ p.collection.recordType.name
      ++ ") -> dict[str, Any]:") :=
    .parts (.fixed _) [.given (admits_quoted .record), .fixed _] rfl
  have hdata : p.AdmitsLine ("data = " ++ p.collection.codec.encode "value") :=
    .parts (.fixed _) [.given (admits_quoted .encode)] rfl
  have hpops : p.AdmitsScript (p.collection.injections.map fun i =>
      .line ("data.pop(\"" ++ i.target ++ "\", None)")) := by
    intro text htext
    obtain ⟨i, hi, hline⟩ := List.mem_map.1 htext
    cases hline
    exact AdmitsLine.parts (.fixed _) [.given (admits_quoted (.target hi)), .fixed _] rfl
  simp only [encodeMethod, List.cons_append, admitsScript_line, admitsScript_block,
    admitsScript_append, admitsScript_nil, hheader, hdata, hpops, and_true, true_and]
  exact ⟨.template rfl, .template rfl⟩

theorem admits_collectionReferenceClass {s : Script} (hs : collectionReferenceClass p = .ok s) :
    p.AdmitsScript s := by
  have hclass : p.AdmitsLine
      ("class " ++ p.collectionReferenceName ++ "(" ++ p.queryName ++ "):") :=
    .parts (.fixed _)
      [.given admits_collectionReference, .fixed _, .given admits_query, .fixed _] rfl
  have hdoc : p.AdmitsLine ("\"\"\"Reference to the \"" ++ p.pathText ++ "\" collection.\"\"\"") :=
    .prose rfl
  have hpath : p.AdmitsLine ("path = \"" ++ p.pathText ++ "\"") :=
    .parts (.fixed _) [.given (admits_quoted .path), .fixed _] rfl
  have hget : p.AdmitsLine
      ("def doc(self, id: str | None = None) -> " ++ p.documentReferenceName ++ ":") :=
    .parts (.fixed _) [.given admits_documentReference, .fixed _] rfl
  have hgot : p.AdmitsLine
      ("return " ++ p.documentReferenceName ++ "(self.reference.document(id), self)") :=
    .parts (.fixed _) [.given admits_documentReference, .fixed _] rfl
  have hadd : p.AdmitsLine ("def add(self, value: " ++ p.collection.recordType.name ++ ") -> "
      ++ p.documentReferenceName ++ ":") :=
    .parts (.fixed _)
      [.given (admits_quoted .record), .fixed _, .given admits_documentReference, .fixed _] rfl
  have hadded : p.AdmitsLine ("return " ++ p.documentReferenceName ++ "(reference, self)") :=
    .parts (.fixed _) [.given admits_documentReference, .fixed _] rfl
  rw [collectionReferenceClass] at hs
  cases hconstructor : referenceConstructor p with
  | error e =>
    rw [hconstructor] at hs
    cases hs
  | ok constructor =>
    rw [hconstructor] at hs
    cases hs
    simp only [admitsScript_block, admitsScript_append, admitsScript_line, admitsScript_blank,
      admitsScript_nil, hclass, hdoc, hpath, hget, hgot, hadd, hadded,
      admits_referenceConstructor hconstructor, admits_decodeMethod, admits_encodeMethod,
      true_and, and_true]
    exact .template rfl

/-! ### Accessors -/

theorem admits_accessor {c : NamedCollection} (hc : c ∈ p.children) :
    p.AdmitsScript (accessor p.documentReferenceName c) := by
  have hgetter := admits_quoted (.getter hc)
  have hreference : p.Admits c.collectionReferenceName := admits_seen (.child hc) rfl
  have hheader : ∀ getter, p.Admits getter →
      p.AdmitsLine ("def " ++ getter ++ "(self) -> " ++ c.collectionReferenceName ++ ":") := by
    intro getter hgetter
    exact .parts (.fixed _) [.given hgetter, .fixed _, .given hreference, .fixed _] rfl
  have hdoc : p.AdmitsLine
      ("\"\"\"The \"" ++ c.pathText ++ "\" sub-collection of this document.\"\"\"") :=
    .prose rfl
  have hreturn : p.AdmitsLine ("return " ++ c.collectionReferenceName ++ "(self)") :=
    .parts (.fixed _) [.given hreference, .fixed _] rfl
  have hassign : ∀ getter, p.Admits getter →
      p.AdmitsLine (p.documentReferenceName ++ "." ++ c.collection.name ++ " = property(" ++ getter
        ++ ")") := by
    intro getter hgetter
    exact .parts (.given admits_documentReference)
      [.fixed _, .given (admits_quoted (.child hc)), .fixed _, .given hgetter, .fixed _] rfl
  simp only [accessor, admitsScript_block, admitsScript_append, admitsScript_line,
    admitsScript_blank, admitsScript_nil, hheader _ hgetter, hdoc, hreturn, hassign _ hgetter,
    and_true]

theorem admits_spaced {scripts : List Script} (h : ∀ s ∈ scripts, p.AdmitsScript s) :
    p.AdmitsScript (spaced scripts) := by
  induction scripts with
  | nil => exact admitsScript_nil
  | cons s scripts ih =>
    rw [List.forall_mem_cons] at h
    cases scripts with
    | nil => exact h.1
    | cons t scripts =>
      simp only [spaced, admitsScript_append, admitsScript_blank, admitsScript_nil, and_true]
      exact ⟨h.1, ih h.2⟩

theorem admits_accessors : p.AdmitsScript (accessors p) :=
  admits_spaced (List.forall_mem_map.2 fun _ hc => admits_accessor hc)

/-- The code of an artifact for a place mentions no names but those that the place allows. -/
theorem admits_script {a : Artifact} {s : Script} (hs : a.script p = .ok s) :
    p.AdmitsScript s := by
  cases a with
  | query => exact admits_queryClass hs
  | querySnapshot => exact Except.ok.inj hs ▸ admits_querySnapshotClass
  | queryDocumentSnapshot => exact Except.ok.inj hs ▸ admits_queryDocumentSnapshotClass
  | documentSnapshot => exact Except.ok.inj hs ▸ admits_documentSnapshotClass
  | documentReference => exact Except.ok.inj hs ▸ admits_documentReferenceClass
  | collectionReference => exact admits_collectionReferenceClass hs
  | subcollectionAccessors => exact Except.ok.inj hs ▸ admits_accessors

theorem allows_of_mentions {a : Artifact} {s : Script} (hs : a.script p = .ok s) {name : String}
    (h : s.Mentions name) : p.Allows name := by
  obtain ⟨text, htext, hcode, hname⟩ := h
  exact admits_script hs text htext hcode name hname

/-- The preamble mentions only names that are the same in all code. -/
theorem mem_templateNames_of_mentions_preamble {name : String} (h : preamble.Mentions name) :
    name ∈ templateNames := by
  obtain ⟨text, htext, hcode, hname⟩ := h
  have hlines : (preamble.all fun
      | .line text => isProse text || isTemplate text.toList
      | _ => true) = true := by rfl
  have hline := List.all_eq_true.1 hlines _ htext
  simp only [hcode, Bool.false_or] at hline
  exact List.contains_iff_mem.1 (List.all_eq_true.1 hline name hname)

end Artifact

/-- No generated class is called by a name that is the same in all code. -/
theorem not_isSuffix_of_mem_templateNames {name : String} (h : name ∈ templateNames) {a : Artifact}
    {suffix : String} (ha : a.suffix? = some suffix) : ¬suffix.toList <:+ name.toList := by
  have hall : templateNames.all (fun name => (Vocabulary.members : List Artifact).all fun a =>
      a.suffix?.all fun suffix => !suffix.toList.isSuffixOf name.toList) = true := by rfl
  have hname := List.all_eq_true.1 (List.all_eq_true.1 hall name h) a (Vocabulary.mem_members a)
  rw [ha, Option.all_some, Bool.not_eq_true'] at hname
  rw [← List.isSuffixOf_iff_suffix, hname]
  exact Bool.false_ne_true

end CollectionSchema
