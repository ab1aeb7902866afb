import CollectionSchema.Artifact.Basic
import CollectionSchema.Proofs.Declaration.Stored
import CollectionSchema.Proofs.Layout.Definitions

/-!
# Methods of generated classes

The generated classes are read method by method. A collection reference decodes and encodes
documents in one method each: `assigned` reads off the former which members of a record it assigns,
`popped` off the latter which keys of a document it drops. A document reference has a method for
updates if there are query fields. A query has a filter and an order for each of them, which
`Definition.Asks` for this field and no other.
-/

namespace CollectionSchema

open Layout

namespace Artifact

/-! ## Conversions -/

/-- The members of a record that a script assigns. -/
def assigned (s : Script) : List String :=
  enclosed "value." " = " s

/-- The keys of a document that a script drops. -/
def popped (s : Script) : List String :=
  enclosed "data.pop(\"" "\"" s

def decodeStart : String := "def from_firestore("

def encodeStart : String := "def to_firestore("

theorem assigned_line (target : String) {source : String}
    (h : Text.beforeLast? " = ".toList (" = " ++ source).toList = some []) :
    assigned [.line ("value." ++ target ++ " = " ++ source)] = [target] := by
  rw [String.append_assoc, String.append_assoc]
  exact enclosed_line h target []

theorem assigned_injectionSteps (record : String) (i : Injection) :
    assigned (injectionSteps record i) = [i.target] := by
  unfold injectionSteps
  split
  · have hparent : Apart "value." ("parent_id = " ++ metadataSource i.kind) :=
      .append (.ofList rfl) _
    have hif : Apart "value." "if parent_id is None:" := .ofList rfl
    have hraise : Apart "value." ("raise ValueError(\"" ++ record ++ "." ++ i.target
        ++ " requires a parent document\")") := by
      repeat apply Apart.append
      exact .ofList rfl
    rw [assigned, enclosed_append, enclosed_append, hparent.enclosed_line, hif.enclosed_block,
      hraise.enclosed_line]
    exact assigned_line i.target (by decide)
  · refine assigned_line i.target ?_
    cases i.kind <;> decide

/-- The steps of an injection begin no method. -/
theorem holds_injectionSteps {start : String} (hstart : start = decodeStart ∨ start = encodeStart)
    (record : String) (i : Injection) : Holds start (injectionSteps record i) [] := by
  unfold injectionSteps
  split
  · apply_rules [Holds.block, Holds.append_nil, Holds.line, Holds.nil, Apart.append]
    all_goals
      rcases hstart with rfl | rfl <;> exact .ofList rfl
  · apply_rules [Holds.line, Holds.nil, Apart.append]
    rcases hstart with rfl | rfl <;> exact .ofList rfl

section

variable (p : Placement)

/-- The body of the method that decodes documents. -/
def decodeBody : Script :=
  .line ("value = " ++ p.collection.codec.decode "snapshot.to_dict()")
    :: p.collection.injections.flatMap (injectionSteps p.collection.recordType.name)
    ++ [.line "return value"]

/-- The body of the method that encodes records. -/
def encodeBody : Script :=
  .line ("data = " ++ p.collection.codec.encode "value")
    :: p.collection.injections.map (fun i => .line ("data.pop(\"" ++ i.target ++ "\", None)"))
    ++ [.line "return data"]

theorem assigned_decodeBody :
    assigned (decodeBody p) = p.collection.injections.map (·.target) := by
  have hdecode : Apart "value." ("value = " ++ p.collection.codec.decode "snapshot.to_dict()") :=
    .append (.ofList rfl) _
  have hreturn : Apart "value." "return value" := .ofList rfl
  have hsteps : assigned (p.collection.injections.flatMap
      (injectionSteps p.collection.recordType.name)) = p.collection.injections.map (·.target) := by
    rw [assigned, enclosed_flatMap, List.map_eq_flatMap]
    exact congrArg (List.flatMap · _) (funext (assigned_injectionSteps _))
  exact (hdecode.enclosed_between hreturn _ _).trans hsteps

theorem popped_encodeBody :
    popped (encodeBody p) = p.collection.injections.map (·.target) := by
  have hencode : Apart "data.pop(\"" ("data = " ++ p.collection.codec.encode "value") :=
    .append (.ofList rfl) _
  have hreturn : Apart "data.pop(\"" "return data" := .ofList rfl
  have hpops : ∀ is : List Injection, popped (is.map fun i =>
      .line ("data.pop(\"" ++ i.target ++ "\", None)")) = is.map (·.target) := by
    intro is
    induction is with
    | nil => rfl
    | cons i is ih =>
      rw [List.map_cons, List.map_cons, ← ih, String.append_assoc]
      exact enclosed_line (by decide) i.target _
  exact (hencode.enclosed_between hreturn _ _).trans (hpops _)

section

variable {start : String} (hstart : start = decodeStart ∨ start = encodeStart)

include hstart

theorem holds_decodeBody : Holds start (decodeBody p) [] := by
  refine .between (.append ?_ _) (.flatMap fun i _ => holds_injectionSteps hstart _ i) ?_
  all_goals
    rcases hstart with rfl | rfl <;> exact .ofList rfl

theorem holds_encodeBody : Holds start (encodeBody p) [] := by
  refine .between (.append ?_ _) (.map_line fun i _ => .append (.append ?_ _) _) ?_
  all_goals
    rcases hstart with rfl | rfl <;> exact .ofList rfl

theorem holds_referenceConstructor {s : Script} (hs : referenceConstructor p = .ok s) :
    Holds start s [] := by
  unfold referenceConstructor at hs
  split at hs
  · cases hs
    apply_rules [Holds.block, Holds.line, Holds.nil, Apart.append]
    all_goals
      rcases hstart with rfl | rfl <;> exact .ofList rfl
  · cases hs
    apply_rules [Holds.block, Holds.line, Holds.nil, Apart.append]
    all_goals
      rcases hstart with rfl | rfl <;> exact .ofList rfl
  · cases hs

theorem holds_collectionReferenceClass {s : Script} (hs : collectionReferenceClass p = .ok s)
    {found more : List Definition} (hdecode : Holds start (decodeMethod p) found)
    (hencode : Holds start (encodeMethod p) more) : Holds start s (found ++ more) := by
  unfold collectionReferenceClass at hs
  cases hconstructor : referenceConstructor p with
  | error f => rw [hconstructor] at hs; cases hs
  | ok constructor =>
    rw [hconstructor] at hs
    cases hs
    have hinit := holds_referenceConstructor p hstart hconstructor
    have hblank : begins start "" = false := by
      rcases hstart with rfl | rfl <;> exact begins_empty
    refine .block ?_ (.append_nil (.append_nil (.append_nil (.append_nil
      (.append (.append_nil (.nil_append ?_ hdecode) ?_) hencode) ?_) ?_) ?_) ?_)
    all_goals
      repeat' with_reducible apply Holds.append_nil
      all_goals
        apply_rules [hinit, hblank, Holds.block, Holds.blank, Holds.line, Holds.nil, Apart.append]
        all_goals
          rcases hstart with rfl | rfl <;> exact .ofList rfl

end

theorem holds_decodeMethod : Holds decodeStart (decodeMethod p)
    [⟨"def from_firestore(snapshot) -> " ++ p.collection.recordType.name ++ ":", decodeBody p⟩] ∧
    Holds encodeStart (decodeMethod p) [] := by
  constructor
  · refine .line (.ofList rfl) (.definition ?_ (holds_decodeBody p (.inl rfl)))
    exact begins_append (begins_append (begins_ofList rfl) _) _
  · exact .line (.ofList rfl) (.block (.append (.append (.ofList rfl) _) _)
      (holds_decodeBody p (.inr rfl)))

theorem holds_encodeMethod : Holds encodeStart (encodeMethod p)
    [⟨"def to_firestore(value: " ++ p.collection.recordType.name ++ ") -> dict[str, Any]:",
      encodeBody p⟩] ∧
    Holds decodeStart (encodeMethod p) [] := by
  constructor
  · refine .line (.ofList rfl) (.definition ?_ (holds_encodeBody p (.inr rfl)))
    exact begins_append (begins_append (begins_ofList rfl) _) _
  · exact .line (.ofList rfl) (.block (.append (.append (.ofList rfl) _) _)
      (holds_encodeBody p (.inl rfl)))

end

/-! ## Updates -/

def updateStart : String := "def update("

def updateHeader (fields : List QueryField) : String :=
  "def update(self, *, " ++ ", ".intercalate (fields.map updateParameter) ++ ") -> None:"

/-- The body of the method for updates. -/
def updateBody (fields : List QueryField) : Script :=
  .line "data = \x7b\x7d"
    :: fields.flatMap (fun f => block ("if " ++ f.name ++ " is not _sentinel:") [
      .line ("data[\"" ++ f.name ++ "\"] = " ++ f.name)])
    ++ [.line "self.reference.update(data)"]

/-- There is one method for updates if there are query fields. -/
def updates (fields : List QueryField) : List Definition :=
  if fields.isEmpty then [] else [⟨updateHeader fields, updateBody fields⟩]

theorem holds_updateMethod (fields : List QueryField) :
    Holds updateStart (updateMethod fields) (updates fields) := by
  have hbody : Holds updateStart (updateBody fields) [] := by
    refine .between (.ofList rfl) (.flatMap fun f _ => ?_) (.ofList rfl)
    exact .block (.append (.append (.ofList rfl) _) _)
      (.line (.append (.append (.append (.ofList rfl) _) _) _) .nil)
  unfold updateMethod updates
  split
  · exact .nil
  · refine .blank begins_empty (.definition ?_ hbody)
    exact begins_append (begins_append (begins_ofList rfl) _) _

theorem definitions_documentReferenceClass (p : Placement) :
    definitions updateStart (documentReferenceClass p) = updates p.collection.queryFields := by
  have hupdates := holds_updateMethod p.collection.queryFields
  have hblank : begins updateStart "" = false := begins_empty
  refine Holds.definitions_eq (.block ?_ (.nil_append ?_ hupdates))
  all_goals
    repeat' with_reducible apply Holds.append_nil
    all_goals
      apply_rules [hblank, Holds.block, Holds.blank, Holds.line, Holds.nil, Apart.append]
      all_goals exact .ofList rfl

/-! ## Queries -/

def filterStart : String := "def where_"

def orderStart : String := "def order_by_"

end Artifact

/-- The method is called after the field, and it is this field that it asks the store about, in the
lines that begin with the text `call`. -/
structure Layout.Definition.Asks (d : Definition) (start call sep field : String) : Prop where
  header : begins (start ++ field ++ "(self, *, ") d.header = true
  fields : ∀ name, name ∈ enclosed call sep d.body ↔ name = field

namespace Artifact

/-- The definition is the filter by a field. -/
def Filters (f : QueryField) (d : Definition) : Prop :=
  d.Asks filterStart "reference = reference.where(\"" "\", \"" f.name

/-- The definition is the order by a field. -/
def Orders (query : String) (f : QueryField) (d : Definition) : Prop :=
  d.Asks orderStart ("return " ++ query ++ "(self.reference.order_by(\"") "\"" f.name

theorem enclosed_filterStep (field : String) {operator argument : String}
    (h : Text.beforeLast? "\", \"".toList
      ("\", \"" ++ operator ++ "\", " ++ argument ++ ")").toList = some []) :
    enclosed "reference = reference.where(\"" "\", \"" (filterStep field operator argument) =
      [field] := by
  have hif : Apart "reference = reference.where(\"" ("if " ++ argument ++ " is not None:") :=
    .append (.append (.ofList rfl) _) _
  have hcall : "reference = reference.where(\"" ++ field ++ "\", \"" ++ operator ++ "\", "
      ++ argument ++ ")" = "reference = reference.where(\""
        ++ (field ++ ("\", \"" ++ operator ++ "\", " ++ argument ++ ")")) := by
    simp only [String.append_assoc]
  rw [filterStep, hif.enclosed_block, hcall]
  exact enclosed_line h field []

/-- The field in front of the operators of a filter can be read in the lines of the filter. -/
structure Readable (operators : List (String × String)) : Prop where
  ne_nil : operators ≠ []
  last : ∀ o ∈ operators,
    Text.beforeLast? "\", \"".toList ("\", \"" ++ o.2 ++ "\", " ++ o.1 ++ ")").toList = some []

/-- The body of a filter. -/
def filterBody (query field : String) (operators : List (String × String)) : Script :=
  .line "reference = self.reference"
    :: operators.flatMap (fun (argument, operator) => filterStep field operator argument)
    ++ [.line ("return " ++ query ++ "(reference)")]

/-- The body of an order. -/
def orderBody (query field : String) : Script :=
  [.line "direction = \"DESCENDING\" if descending else \"ASCENDING\"",
    .line ("return " ++ query ++ "(self.reference.order_by(\"" ++ field
      ++ "\", direction=direction))")]

section

variable {start : String} (hstart : start = filterStart ∨ start = orderStart) (query field : String)

include hstart

theorem holds_filterBody (operators : List (String × String)) :
    Holds start (filterBody query field operators) [] := by
  refine .between ?_ (.flatMap fun o _ => .block (.append (.append ?_ _) _) (.line ?_ .nil))
    (.append (.append ?_ _) _)
  case refine_3 =>
    apply_rules [Apart.append]
    rcases hstart with rfl | rfl <;> exact .ofList rfl
  all_goals
    rcases hstart with rfl | rfl <;> exact .ofList rfl

theorem holds_orderBody : Holds start (orderBody query field) [] := by
  apply_rules [Holds.line, Holds.nil, Apart.append]
  all_goals
    rcases hstart with rfl | rfl <;> exact .ofList rfl

end

section

variable (query : String) (f : QueryField)

theorem filters_filterBody {operators : List (String × String)} (h : Readable operators)
    (parameters : String) :
    Filters f ⟨"def where_" ++ f.name ++ "(self, *, " ++ parameters ++ ") -> " ++ query ++ ":",
      filterBody query f.name operators⟩ where
  header := begins_append (begins_append (begins_append (begins_append (begins_self _) _) _) _) _
  fields name := by
    have hfirst : Apart "reference = reference.where(\"" "reference = self.reference" :=
      .ofList rfl
    have hlast : Apart "reference = reference.where(\"" ("return " ++ query ++ "(reference)") :=
      .append (.append (.ofList rfl) _) _
    have hsteps : enclosed "reference = reference.where(\"" "\", \""
        (operators.flatMap fun (argument, operator) => filterStep f.name operator argument) =
          operators.flatMap fun _ => [f.name] := by
      rw [enclosed_flatMap]
      exact List.flatMap_congr fun o ho => enclosed_filterStep f.name (h.last o ho)
    have hbody : enclosed "reference = reference.where(\"" "\", \""
        (filterBody query f.name operators) = operators.flatMap fun _ => [f.name] :=
      (hfirst.enclosed_between hlast _ _).trans hsteps
    obtain ⟨o, ho⟩ := List.exists_mem_of_ne_nil _ h.ne_nil
    rw [hbody, List.mem_flatMap]
    constructor
    · rintro ⟨-, -, hname⟩
      exact List.mem_singleton.1 hname
    · rintro rfl
      exact ⟨o, ho, List.mem_singleton_self _⟩

theorem orders_orderBody :
    Orders query f ⟨"def order_by_" ++ f.name ++ "(self, *, descending: bool = False) -> " ++ query
      ++ ":", orderBody query f.name⟩ where
  header := by
    have hsplit : "(self, *, descending: bool = False) -> " =
        "(self, *, " ++ "descending: bool = False) -> " := by decide
    rw [hsplit, ← String.append_assoc]
    exact begins_append (begins_append (begins_append (begins_self _) _) _) _
  fields name := by
    have hfirst : Apart ("return " ++ query ++ "(self.reference.order_by(\"")
        "direction = \"DESCENDING\" if descending else \"ASCENDING\"" :=
      .symm (.append (.append (.symm (.ofList rfl)) _) _)
    have hlast : enclosed ("return " ++ query ++ "(self.reference.order_by(\"") "\""
        [.line ("return " ++ query ++ "(self.reference.order_by(\"" ++
          (f.name ++ "\", direction=direction))"))] = [f.name] :=
      enclosed_line (by decide) f.name []
    rw [← String.append_assoc] at hlast
    rw [orderBody, hfirst.enclosed_line _ [.line _], hlast]
    exact List.mem_singleton

/-- The methods for a query field are one filter and one order, both by this field. -/
theorem exists_holds_fieldMethods (h : f.type.Comparable) : ∃ methods filter order,
    fieldMethods query f = .ok methods ∧
      (Holds filterStart methods [filter] ∧ Filters f filter) ∧
      Holds orderStart methods [order] ∧ Orders query f order := by
  have hreadable : Readable comparisons ∧ Readable (arrayTests.map fun test => (test, test)) :=
    ⟨⟨by decide, by decide⟩, by decide, by decide⟩
  obtain ⟨parameters, operators, hfilter, hoperators⟩ : ∃ parameters operators,
      fieldFilter query f = .ok (filterMethod query f.name parameters operators) ∧
        Readable operators := by
    unfold fieldFilter
    split
    · next hlist =>
      have hnot : f.type.isPrimitive ≠ true := by
        rw [ValueType.isPrimitive, hlist]
        decide
      obtain ⟨-, element, harguments, -⟩ := Or.resolve_left h hnot
      rw [harguments]
      exact ⟨_, _, rfl, hreadable.2⟩
    · exact ⟨_, _, rfl, hreadable.1⟩
  have hmethods : fieldMethods query f = .ok (blank ::
      filterMethod query f.name parameters operators ++ blank :: fieldOrder query f) := by
    rw [fieldMethods, hfilter]
    rfl
  refine ⟨_, _, _, hmethods, ⟨?_, filters_filterBody query f hoperators parameters⟩, ?_,
    orders_orderBody query f⟩
  · refine .append_nil (.blank begins_empty (.definition ?_ (holds_filterBody (.inl rfl) _ _ _)))
      (.blank begins_empty (.block ?_ (holds_orderBody (.inl rfl) _ _)))
    · repeat apply begins_append
      exact begins_ofList rfl
    · repeat apply Apart.append
      exact .ofList rfl
  · refine .nil_append (.blank begins_empty (.block ?_ (holds_filterBody (.inr rfl) _ _ _)))
      (.blank begins_empty (.definition ?_ (holds_orderBody (.inr rfl) _ _)))
    · repeat apply Apart.append
      exact .ofList rfl
    · repeat apply begins_append
      exact begins_ofList rfl

theorem exists_holds_methods {fields : List QueryField} (h : ∀ f ∈ fields, f.type.Comparable) :
    ∃ methods filters orders, fields.mapM (fieldMethods query) = .ok methods ∧
      (Holds filterStart methods.flatten filters ∧ List.Forall₂ Filters fields filters) ∧
      Holds orderStart methods.flatten orders ∧ List.Forall₂ (Orders query) fields orders := by
  induction fields with
  | nil => exact ⟨[], [], [], rfl, ⟨.nil, .nil⟩, .nil, .nil⟩
  | cons f fields ih =>
    rw [List.forall_mem_cons] at h
    obtain ⟨first, filter, order, hfirst, ⟨hfilter, hfilters⟩, horder, horders⟩ :=
      exists_holds_fieldMethods query f h.1
    obtain ⟨methods, filters, orders, hmethods, ⟨hfilterAll, hfiltersAll⟩, horderAll, hordersAll⟩ :=
      ih h.2
    refine ⟨first :: methods, filter :: filters, order :: orders, ?_,
      ⟨hfilter.append hfilterAll, .cons hfilters hfiltersAll⟩,
      horder.append horderAll, .cons horders hordersAll⟩
    rw [List.mapM_cons, hfirst, hmethods]
    rfl

end

theorem definitions_queryClass {p : Placement}
    (h : ∀ f ∈ p.collection.queryFields, f.type.Comparable) :
    ∃ s, queryClass p = .ok s ∧
      List.Forall₂ Filters p.collection.queryFields (definitions filterStart s) ∧
      List.Forall₂ (Orders p.queryName) p.collection.queryFields (definitions orderStart s) := by
  obtain ⟨methods, filters, orders, hmethods, ⟨hfilter, hfilters⟩, horder, horders⟩ :=
    exists_holds_methods p.queryName h
  -- In front of the methods for the fields there are three others, which are called otherwise.
  have hclass : ∀ start, start = filterStart ∨ start = orderStart → ∀ found,
      Holds start methods.flatten found → ∀ s, queryClass p = .ok s →
        definitions start s = found := by
    intro start hstart found hfound s hs
    rw [queryClass, hmethods] at hs
    cases hs
    have hblank : begins start "" = false := by
      rcases hstart with rfl | rfl <;> exact begins_empty
    refine Holds.definitions_eq (.block ?_ (.nil_append ?_ hfound))
    all_goals
      repeat' with_reducible apply Holds.append_nil
      all_goals
        apply_rules [hblank, Holds.block, Holds.blank, Holds.line, Holds.nil, Apart.append]
        all_goals
          rcases hstart with rfl | rfl <;> exact .ofList rfl
  have hscript : ∃ s, queryClass p = .ok s := by
    rw [queryClass, hmethods]
    exact ⟨_, rfl⟩
  obtain ⟨s, hs⟩ := hscript
  rw [← hclass _ (.inl rfl) _ hfilter s hs] at hfilters
  rw [← hclass _ (.inr rfl) _ horder s hs] at horders
  exact ⟨s, hs, hfilters, horders⟩

end Artifact

end CollectionSchema
