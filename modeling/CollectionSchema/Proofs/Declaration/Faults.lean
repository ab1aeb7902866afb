import CollectionSchema.Collection
import CollectionSchema.Proofs.Path.Rows
import CollectionSchema.Proofs.Work

/-!
# Faults of a declaration

What is wrong with a declaration can be said of the declaration alone: `Declaration.faults` lists
the fault of its path and those of its record type. `Declaration.collection?` is the collection of a
declaration without faults, each part of which is checked on its own. Compiling a declaration
reports exactly these faults and gives exactly this collection (`Declaration.compile_reports`), and
there is a collection just when there are no faults (`Declaration.collection?_eq_none`).
-/

namespace CollectionSchema

/-! ## Codecs -/

namespace Codec

/-- A codec is found just when nothing is wrong with either direction; otherwise the first problem
is the failure. -/
theorem resolve_cases (r : RecordType) (site : Option Site) :
    (∃ codec, problems r site = [] ∧ (resolve r site).value = .ok codec) ∨
      ∃ d ds, problems r site = d :: ds ∧ (resolve r site).value = .error (.diagnostic d) := by
  unfold resolve problems
  cases decoderOf r site with
  | error f => exact .inr ⟨_, _, rfl, rfl⟩
  | ok decoder =>
    cases encoderOf r with
    | error f => exact .inr ⟨_, _, rfl, rfl⟩
    | ok encoder =>
      exact .inl ⟨_, rfl, rfl⟩

end Codec

/-! ## Injections -/

namespace Injection

/-- The diagnostic of a member of `r`, if something is wrong with what it asks for. -/
def faultOf (r : RecordType) (m : Member) : Option Diagnostic :=
  match ofMember m with
  | .ok _ => none
  | .error f => some (f.diagnostic r m)

def soundOf (m : Member) : Option Injection :=
  match ofMember m with
  | .ok i => i
  | .error _ => none

def faults (r : RecordType) : List Diagnostic :=
  (candidates r).filterMap (faultOf r)

/-- The injections that the members of `r` rightly ask for, properties before fields. -/
def sound (r : RecordType) : List Injection :=
  (candidates r).filterMap soundOf

/-- A member has a diagnostic, or else what it asks for. -/
theorem resolveMember_cases (r : RecordType) (m : Member) :
    (∃ found, faultOf r m = none ∧ soundOf m = found ∧ (resolveMember r m).value = .ok found) ∨
      ∃ d, faultOf r m = some d ∧ soundOf m = none ∧
        (resolveMember r m).value = .error (.diagnostic d) := by
  unfold resolveMember faultOf soundOf
  cases ofMember m with
  | error f => exact .inr ⟨_, rfl, rfl, rfl⟩
  | ok found => cases found <;> exact .inl ⟨_, rfl, rfl, rfl⟩

theorem filterMap_soundOf_cons (m : Member) (ms : List Member) :
    (m :: ms).filterMap soundOf = (soundOf m).toList ++ ms.filterMap soundOf := by
  cases h : soundOf m <;> simp [h]

theorem collectFrom_reports (r : RecordType) (ms : List Member) :
    Reports (collectFrom r ms) (ms.filterMap soundOf) (ms.filterMap (faultOf r)) := by
  induction ms with
  | nil => exact .pure []
  | cons m ms ih =>
    rw [filterMap_soundOf_cons]
    obtain ⟨found, hfault, hsound, hvalue⟩ | ⟨d, hfault, hsound, hvalue⟩ := resolveMember_cases r m
    · rw [List.filterMap_cons_none hfault, hsound]
      have hmember : ∀ c : Context, (Work.ofReport (resolveMember r m)).ends c = (c, .ok found) :=
        fun c => by rw [Work.ends, Work.ofReport, hvalue]
      exact (Reports.rescue_of_ok _ hmember).bind_silent ih.bind_pure
    · rw [List.filterMap_cons_some hfault, hsound]
      have hmember : ∀ c : Context, (Work.ofReport (resolveMember r m)).ends c =
          (c, .error (.diagnostic d)) := fun c => by rw [Work.ends, Work.ofReport, hvalue]
      change Reports (collectFrom r (m :: ms)) _ ([d] ++ _)
      refine Reports.bind (a := none) ?_ ?_
      · exact .rescue_of_diagnostic hmember (Reports.addError d).bind_pure
      · exact ih.bind_pure

theorem collect_reports (r : RecordType) : Reports (collect r) (sound r) (faults r) :=
  collectFrom_reports r (candidates r)

theorem value_resolveFrom (r : RecordType) (ms : List Member) :
    (resolveFrom r ms).value = raiseFirst (ms.filterMap soundOf) (ms.filterMap (faultOf r)) := by
  induction ms with
  | nil => rfl
  | cons m ms ih =>
    rw [resolveFrom, Report.value_bind, filterMap_soundOf_cons]
    obtain ⟨found, hfault, hsound, hvalue⟩ | ⟨d, hfault, hsound, hvalue⟩ := resolveMember_cases r m
    · rw [hvalue, List.filterMap_cons_none hfault, hsound]
      simp only [Except.bind, Report.value_bind, ih]
      cases ms.filterMap (faultOf r) <;> rfl
    · rw [hvalue, List.filterMap_cons_some hfault]
      rfl

theorem value_resolve (r : RecordType) :
    (resolve r).value = raiseFirst (sound r) (faults r) :=
  value_resolveFrom r (candidates r)

end Injection

/-! ## Query fields -/

namespace QueryField

/-- The query fields among some members: candidates of a type that queries can use. -/
def among (injections : List Injection) (ms : List Member) : List QueryField :=
  (ms.filter fun m => isCandidate injections m && m.type.isQueryable).map fun m => ⟨m.name, m.type⟩

theorem value_selectFrom (r : RecordType) (injections : List Injection) (ms : List Member) :
    (selectFrom r injections ms).value = .ok (among injections ms) := by
  induction ms with
  | nil => rfl
  | cons m ms ih =>
    rw [selectFrom]
    by_cases hc : isCandidate injections m
    · by_cases hq : m.type.isQueryable
      · simp only [hc, hq, Bool.not_true, Bool.false_eq_true, if_false, Report.value_bind, ih]
        simp [among, hc, hq, Except.bind, pure]
      · simp only [hc, hq, Bool.not_true, Bool.false_eq_true, if_false, Bool.not_false, if_true,
          Report.value_bind, ih]
        simp [among, hq, Report.debug, Report.emit, Except.bind]
    · simp only [hc, Bool.not_false, if_true, ih]
      simp [among, hc]

theorem value_select (r : RecordType) (injections : List Injection) :
    (select r injections).value = .ok (among injections r.fields) :=
  value_selectFrom r injections r.fields

end QueryField

/-! ## Declarations -/

theorem Except.toOption_eq_some {ε α : Type} {x : Except ε α} {a : α} :
    x.toOption = some a ↔ x = .ok a := by
  cases x <;> simp [Except.toOption]

namespace Declaration

/-- What is wrong with the path of a declaration. -/
def pathFaults (d : Declaration) : List Diagnostic :=
  match Path.validate d.path with
  | .ok _ => []
  | .error f => [f.diagnostic d.path d.site.render]

/-- What is wrong with the record type of a declaration: there is none, or it is no class, or the
faults of its decoder, of its encoder and of its members. -/
def recordFaults (d : Declaration) : List Diagnostic :=
  match d.recordType with
  | none => [d.untyped]
  | some r =>
    if r.isClass then Codec.problems r d.site ++ Injection.faults r else [d.notAClass r]

def faults (d : Declaration) : List Diagnostic :=
  d.pathFaults ++ d.recordFaults

/-- The collection of a declaration of which each part passes its check. -/
def collection? (d : Declaration) : Option Collection := do
  let path ← (Path.validate d.path).toOption
  let r ← d.recordType.filter (·.isClass)
  let codec ← (Codec.resolve r d.site).value.toOption
  let injections ← (Injection.resolve r).value.toOption
  let queryFields ← (QueryField.select r injections).value.toOption
  let name ← (Collection.nameFor d.name path).toOption
  return ⟨r, path, codec, name, queryFields, injections, d.site⟩

theorem checkPath_reports (d : Declaration) :
    Reports d.checkPath (Path.validate d.path).toOption d.pathFaults := by
  unfold checkPath validatedPath pathFaults
  cases Path.validate d.path with
  | ok path => exact .rescue_of_ok _ fun _ => rfl
  | error f => exact .rescue_of_diagnostic (fun _ => rfl) (Reports.addError _).bind_pure

/-- The injections that the checks of the record type give. -/
def checkedInjections (d : Declaration) : List Injection :=
  match d.recordType with
  | none => []
  | some r => if r.isClass then Injection.sound r else []

theorem checkRecord_reports (d : Declaration) :
    Reports d.checkRecord d.checkedInjections d.recordFaults := by
  unfold checkRecord checkedInjections recordFaults
  cases d.recordType with
  | none => exact (Reports.addError _).bind_pure
  | some r =>
    cases hclass : r.isClass with
    | false =>
      simp only [hclass, Bool.not_false, if_true, Bool.false_eq_true, if_false]
      exact (Reports.addError _).bind_pure
    | true =>
      simp only [hclass, Bool.not_true, if_true, Bool.false_eq_true, if_false]
      exact (Reports.addErrors _).bind (Injection.collect_reports r)

theorem check_reports (d : Declaration) :
    Reports d.check ((Path.validate d.path).toOption, d.checkedInjections) d.faults :=
  d.checkPath_reports.bind d.checkRecord_reports.bind_pure

theorem nameFor_eq_ok (declared : Option String) {path : Path} (h : path.WellFormed) :
    ∃ name, Collection.nameFor declared path = .ok name := by
  obtain ⟨last, hlast⟩ := h.exists_last?
  rw [Collection.nameFor, hlast]
  cases declared.filter (!·.isEmpty) <;> exact ⟨_, rfl⟩

/-- The declaration passes every check, with this path and this record type. -/
structure Passes (d : Declaration) (path : Path) (r : RecordType) : Prop where
  path : Path.validate d.path = .ok path
  record : d.recordType = some r
  isClass : r.isClass = true
  codec : Codec.problems r d.site = []
  injections : Injection.faults r = []

theorem faults_eq_nil {d : Declaration} : d.faults = [] ↔ ∃ path r, d.Passes path r := by
  rw [faults, List.append_eq_nil_iff]
  constructor
  · rintro ⟨hpath, hrecord⟩
    unfold pathFaults at hpath
    unfold recordFaults at hrecord
    split at hpath
    · next path hvalid =>
      split at hrecord
      · cases hrecord
      · next r hr =>
        split at hrecord
        · next hclass =>
          obtain ⟨hcodec, hinjections⟩ := List.append_eq_nil_iff.1 hrecord
          exact ⟨path, r, hvalid, hr, hclass, hcodec, hinjections⟩
        · cases hrecord
    · cases hpath
  · rintro ⟨path, r, h⟩
    simp [pathFaults, recordFaults, h.path, h.record, h.isClass, h.codec, h.injections]

/-- The collection is put together from the parts of the declaration that were checked. -/
structure Yields (d : Declaration) (c : Collection) : Prop where
  passes : d.Passes c.path c.recordType
  codec : (Codec.resolve c.recordType d.site).value = .ok c.codec
  injections : c.injections = Injection.sound c.recordType
  queryFields : c.queryFields = QueryField.among c.injections c.recordType.fields
  name : Collection.nameFor d.name c.path = .ok c.name
  site : c.site = d.site

theorem Passes.wellFormed {d : Declaration} {path : Path} {r : RecordType}
    (h : d.Passes path r) : path.WellFormed :=
  (Path.validate_eq_ok.1 h.path).2

theorem Passes.exists_assemble {d : Declaration} {path : Path} {r : RecordType}
    (h : d.Passes path r) : ∃ c, d.Yields c ∧
      (d.assemble path r (Injection.sound r)).value = .ok c := by
  obtain ⟨codec, -, hcodec⟩ | ⟨_, _, hproblems, -⟩ := Codec.resolve_cases r d.site
  · obtain ⟨name, hname⟩ := nameFor_eq_ok d.name h.wellFormed
    refine ⟨⟨r, path, codec, name, QueryField.among (Injection.sound r) r.fields,
      Injection.sound r, d.site⟩, ⟨h, hcodec, rfl, rfl, hname, rfl⟩, ?_⟩
    simp only [assemble, Report.value_bind, hcodec, QueryField.value_select, hname, Report.lift,
      Report.debug, Report.emit, Except.bind, pure]
  · rw [h.codec] at hproblems
    cases hproblems

theorem Yields.value_resolve {d : Declaration} {c : Collection} (h : d.Yields c) :
    (Injection.resolve c.recordType).value = .ok c.injections := by
  rw [Injection.value_resolve, h.passes.injections, h.injections, raiseFirst]

theorem Yields.value_select {d : Declaration} {c : Collection} (h : d.Yields c) :
    (QueryField.select c.recordType c.injections).value = .ok c.queryFields := by
  rw [QueryField.value_select, h.queryFields]

theorem Yields.collection?_eq {d : Declaration} {c : Collection} (h : d.Yields c) :
    d.collection? = some c := by
  have hclass : c.recordType.isClass = true := h.passes.isClass
  have hcodec : (Codec.resolve c.recordType (some c.site)).value = .ok c.codec := h.site ▸ h.codec
  simp [collection?, h.passes.path, h.passes.record, hclass, hcodec, h.value_resolve,
    h.value_select, h.name, ← h.site, Except.toOption, Option.filter]

theorem collection?_eq_some {d : Declaration} {c : Collection} :
    d.collection? = some c ↔ d.Yields c := by
  refine ⟨fun h => ?_, Yields.collection?_eq⟩
  simp only [collection?, bind, Option.bind_eq_some_iff, pure, Option.some.injEq,
    Except.toOption_eq_some] at h
  obtain ⟨path, hpath, r, hrecord, codec, hcodec, injections, hinjections, fields, hfields,
    name, hname, rfl⟩ := h
  obtain ⟨hr, hclass⟩ := Option.filter_eq_some_iff.1 hrecord
  rw [QueryField.value_select, Except.ok.injEq] at hfields
  rw [Injection.value_resolve] at hinjections
  have hfaults : Injection.faults r = [] ∧ Injection.sound r = injections := by
    cases hfaults : Injection.faults r with
    | nil => exact ⟨rfl, Except.ok.inj (hfaults ▸ hinjections)⟩
    | cons e faults =>
      rw [hfaults] at hinjections
      cases hinjections
  have hproblems : Codec.problems r d.site = [] := by
    obtain ⟨_, hnil, -⟩ | ⟨_, _, -, herror⟩ := Codec.resolve_cases r d.site
    · exact hnil
    · rw [herror] at hcodec
      cases hcodec
  have hpasses : d.Passes path r := ⟨hpath, hr, hclass, hproblems, hfaults.1⟩
  exact ⟨hpasses, hcodec, hfaults.2.symm, hfields.symm, hname, rfl⟩

theorem collection?_eq_none {d : Declaration} : d.collection? = none ↔ d.faults ≠ [] := by
  constructor
  · intro h hfaults
    obtain ⟨path, r, hpasses⟩ := faults_eq_nil.1 hfaults
    obtain ⟨c, hc, -⟩ := hpasses.exists_assemble
    rw [hc.collection?_eq] at h
    cases h
  · intro hfaults
    rw [Option.eq_none_iff_forall_ne_some]
    intro c hc
    exact hfaults (faults_eq_nil.2 ⟨_, _, (collection?_eq_some.1 hc).passes⟩)

theorem Passes.checkedInjections_eq {d : Declaration} {path : Path} {r : RecordType}
    (h : d.Passes path r) : d.checkedInjections = Injection.sound r := by
  simp [checkedInjections, h.record, h.isClass]

/-- Compiling a declaration reports its faults, and gives its collection if there are none. -/
theorem compile_reports (d : Declaration) : Reports d.compile d.collection? d.faults := by
  have hcheck := d.check_reports.watch
  by_cases hfaults : d.faults = []
  · obtain ⟨path, r, hpasses⟩ := faults_eq_nil.1 hfaults
    obtain ⟨c, hc, hassemble⟩ := hpasses.exists_assemble
    rw [hpasses.path, hpasses.checkedInjections_eq, hfaults] at hcheck
    rw [hc.collection?_eq, hfaults]
    refine hcheck.bind_silent ?_
    simp only [Except.toOption, List.isEmpty_nil, Bool.not_true, hpasses.record]
    exact (Reports.ofReport hassemble).bind_pure
  · have hnone : d.collection? = none := collection?_eq_none.2 hfaults
    have hfaulty : (!d.faults.isEmpty) = true := by simpa using hfaults
    rw [hfaulty] at hcheck
    rw [hnone, ← List.append_nil d.faults]
    refine hcheck.bind ?_
    exact .pure none

end Declaration

end CollectionSchema
