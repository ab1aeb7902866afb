import CollectionSchema.Proofs.Text.Cuts
import CollectionSchema.Proofs.Text.Trimmed
import CollectionSchema.Settings.Basic

/-!
# Names in settings

A setting can list names between commas. `Settings.Lists` says which names some parts list: a blank
part lists none, and any other part lists the name that stands in it between blanks. Parts without
commas always list names, and only these (`exists_lists`, `Lists.filter_eq`), so that reading a
value gives exactly what the parts list that it is cut into, or nothing where all of them are blank
(`readFrom_of_cutAt`). A row of names that is written with commas is read back as it stands, and so
it is with blanks around the names and with blank parts among them (`names_read_back`).
-/

namespace CollectionSchema

open Text

namespace Settings

/-- A name that can be listed: it is not empty, has no comma in it and no blanks around it. -/
structure Listable (name : String) : Prop where
  ne_empty : name ≠ ""
  comma : ',' ∉ name.toList
  trimmed : Trimmed name

instance (name : String) : Decidable (Listable name) :=
  decidable_of_iff (name ≠ "" ∧ ',' ∉ name.toList ∧ Trimmed name)
    ⟨fun h => ⟨h.1, h.2.1, h.2.2⟩, fun h => ⟨h.ne_empty, h.comma, h.trimmed⟩⟩

/-- The names that some parts list, in order. -/
inductive Lists : List String → List String → Prop
  | nil : Lists [] []
  | blank {part : String} {parts names : List String} (isBlank : Blank part)
    (rest : Lists parts names) : Lists (part :: parts) names
  | name {before name after : String} {parts names : List String} (isBefore : Blank before)
    (listable : Listable name) (isAfter : Blank after) (rest : Lists parts names) :
    Lists ((before ++ name ++ after) :: parts) (name :: names)

/-- What is read from a value that is cut into some parts: nothing if all of them are blank, and
otherwise the names that they list, of which there is one at least. -/
structure ReadFrom (parts : List String) (result : Option (List String)) : Prop where
  eq_none_iff : result = none ↔ ∀ part ∈ parts, Blank part
  eq_some_iff : ∀ names, result = some names ↔ names ≠ [] ∧ Lists parts names
  listable : ∀ names, result = some names → ∀ name ∈ names, Listable name

/-! ## Parts that list names -/

theorem comma_not_mem_of_blank {s : String} (h : Blank s) : ',' ∉ s.toList := by
  intro hcomma
  exact absurd (h ',' hcomma) (by decide)

theorem Listable.toList_ne_nil {name : String} (h : Listable name) : name.toList ≠ [] :=
  mt String.toList_eq_nil_iff.1 h.ne_empty

/-- A part that holds a name is not blank. -/
theorem Listable.not_blank {name : String} (h : Listable name) (before after : String) :
    ¬Blank (before ++ name ++ after) := by
  intro hblank
  obtain ⟨c, cs, hname⟩ := List.exists_cons_of_ne_nil h.toList_ne_nil
  have hfirst : isBlank c = false := h.trimmed.head c (by rw [hname]; rfl)
  have hmem : c ∈ (before ++ name ++ after).toList := by simp [hname]
  rw [hblank c hmem] at hfirst
  cases hfirst

section

variable {parts names : List String}

theorem Lists.of_listable (h : ∀ name ∈ names, Listable name) : Lists names names := by
  induction names with
  | nil => exact .nil
  | cons name names ih =>
    rw [List.forall_mem_cons] at h
    have hempty : Blank "" := by simp [Blank]
    simpa using Lists.name hempty h.1 hempty (ih h.2)

theorem Lists.listable (h : Lists parts names) : ∀ name ∈ names, Listable name := by
  induction h with
  | nil => simp
  | blank _ _ ih => exact ih
  | name _ hname _ _ ih => exact List.forall_mem_cons.2 ⟨hname, ih⟩

theorem Lists.comma (h : Lists parts names) : ∀ part ∈ parts, ',' ∉ part.toList := by
  induction h with
  | nil => simp
  | blank hpart _ ih => exact List.forall_mem_cons.2 ⟨comma_not_mem_of_blank hpart, ih⟩
  | name hbefore hname hafter _ ih =>
    refine List.forall_mem_cons.2 ⟨?_, ih⟩
    simp [comma_not_mem_of_blank hbefore, hname.comma, comma_not_mem_of_blank hafter]

/-- Only blank parts list no names. -/
theorem Lists.eq_nil_iff (h : Lists parts names) : names = [] ↔ ∀ part ∈ parts, Blank part := by
  induction h with
  | nil => simp
  | blank hpart _ ih => rw [List.forall_mem_cons, and_iff_right hpart, ih]
  | name _ hname _ _ _ =>
    rw [List.forall_mem_cons]
    simp [hname.not_blank]

/-- What is left of the parts without the blanks around them are the names. -/
theorem Lists.filter_eq (h : Lists parts names) :
    ((parts.map String.toList).map (trimBy isBlank)).filter (!·.isEmpty) =
      names.map String.toList := by
  induction h with
  | nil => rfl
  | blank hpart _ ih =>
    rw [List.map_cons, List.map_cons, trimBy_eq_nil.2 hpart, List.filter_cons_of_neg (by simp), ih]
  | name hbefore hname hafter _ ih =>
    rw [List.map_cons, List.map_cons, String.toList_append, String.toList_append,
      trimBy_between hbefore hafter, hname.trimmed.trimBy_eq,
      List.filter_cons_of_pos (by simp [hname.ne_empty]), ih, List.map_cons]

/-- A part that is not blank holds a name between blanks. -/
theorem exists_listable {part : String} (hcomma : ',' ∉ part.toList) (hpart : ¬Blank part) :
    ∃ before name after, part = before ++ name ++ after ∧ Blank before ∧ Listable name ∧
      Blank after := by
  obtain ⟨before, after, hcut, hbefore, hafter⟩ := exists_between isBlank part.toList
  refine ⟨.ofList before, .ofList (trimBy isBlank part.toList), .ofList after, ?_, ?_, ?_, ?_⟩
  · rw [← String.ofList_append, ← String.ofList_append, ← hcut, String.ofList_toList]
  · rwa [Blank, String.toList_ofList]
  · constructor
    case ne_empty =>
      rw [ne_eq, String.ofList_eq_empty_iff, trimBy_eq_nil]
      exact hpart
    case comma =>
      rw [hcut, List.mem_append, List.mem_append, not_or, not_or] at hcomma
      rw [String.toList_ofList]
      exact hcomma.1.2
    case trimmed =>
      rw [Trimmed, String.toList_ofList]
      exact trimmedBy_trimBy isBlank part.toList
  · rwa [Blank, String.toList_ofList]

/-- Parts without commas list names. -/
theorem exists_lists (h : ∀ part ∈ parts, ',' ∉ part.toList) : ∃ names, Lists parts names := by
  induction parts with
  | nil => exact ⟨[], .nil⟩
  | cons part parts ih =>
    rw [List.forall_mem_cons] at h
    obtain ⟨names, hnames⟩ := ih h.2
    by_cases hpart : Blank part
    · exact ⟨names, .blank hpart hnames⟩
    · obtain ⟨before, name, after, rfl, hbefore, hname, hafter⟩ := exists_listable h.1 hpart
      exact ⟨name :: names, .name hbefore hname hafter hnames⟩

theorem Lists.unique {others : List String} (h : Lists parts names) (hothers : Lists parts others) :
    names = others := by
  have htexts := h.filter_eq.symm.trans hothers.filter_eq
  exact (List.map_inj_right fun _ _ => String.toList_inj.1).1 htexts

/-! ## Values -/

/-- Parts that list a name are what their text with commas between them is cut into. -/
theorem Lists.cutAt (h : Lists parts names) (hne : names ≠ []) :
    CutAt ',' (",".intercalate parts) parts := by
  refine ⟨rfl, ?_, h.comma⟩
  rintro rfl
  cases h
  exact hne rfl

theorem Lists.parseNames_eq {value : String} (h : Lists parts names)
    (hcut : CutAt ',' value parts) :
    parseNames value = if names = [] then none else some names := by
  have hid : String.ofList ∘ String.toList = id := funext fun _ => String.ofList_toList
  rw [parseNames, hcut.pieces_eq, h.filter_eq, List.map_map, hid, List.map_id]
  simp

theorem readFrom_of_cutAt {value : String} (hcut : CutAt ',' value parts) :
    ReadFrom parts (parseNames value) := by
  obtain ⟨names, h⟩ := exists_lists hcut.not_mem
  rw [h.parseNames_eq hcut]
  constructor
  case eq_none_iff => rw [← h.eq_nil_iff, ite_eq_left_iff]; simp
  case eq_some_iff =>
    intro others
    constructor
    · intro hread
      split at hread
      · cases hread
      · next hne =>
        cases hread
        exact ⟨hne, h⟩
    · rintro ⟨hne, hothers⟩
      rw [h.unique hothers, if_neg hne]
  case listable =>
    intro others hread
    split at hread
    · cases hread
    · cases hread
      exact h.listable

end

/-- A row of names with commas between them is read back as it stands, and so it is with blanks
around the names and with blank parts before, between and behind them. From any value the names are
read that its parts between commas list, or nothing if all of these are blank. -/
theorem names_read_back :
    (∀ names, names ≠ [] → (∀ name ∈ names, Listable name) →
      parseNames (",".intercalate names) = some names) ∧
    (∀ parts names, names ≠ [] → Lists parts names →
      parseNames (",".intercalate parts) = some names) ∧
    ∀ value, ∃ parts, CutAt ',' value parts ∧ ReadFrom parts (parseNames value) := by
  have hlists : ∀ parts names, names ≠ [] → Lists parts names →
      parseNames (",".intercalate parts) = some names := by
    intro parts names hne h
    exact ((readFrom_of_cutAt (h.cutAt hne)).eq_some_iff names).2 ⟨hne, h⟩
  refine ⟨fun names hne h => hlists names names hne (.of_listable h), hlists, fun value => ?_⟩
  obtain ⟨parts, hcut⟩ := exists_cutAt ',' value
  exact ⟨parts, hcut, readFrom_of_cutAt hcut⟩

theorem names_read_back_queries :
    parseNames (",".intercalate ["query", "query_snapshot"]) = some ["query", "query_snapshot"] ∧
      parseNames (",".intercalate
          ["", "\t" ++ "query" ++ "", "\u3000", " " ++ "query_snapshot" ++ "\n", ""]) =
        some ["query", "query_snapshot"] := by
  have hlistable : ∀ name ∈ ["query", "query_snapshot"], Listable name := by decide
  have hquery : Listable "query" := hlistable _ (by simp)
  have hsnapshot : Listable "query_snapshot" := hlistable _ (by simp)
  constructor
  · exact names_read_back.1 _ (by simp) hlistable
  · apply names_read_back.2.1 _ _ (by simp)
    apply Lists.blank (by decide)
    apply Lists.name (by decide) hquery (by decide)
    apply Lists.blank (by decide)
    apply Lists.name (by decide) hsnapshot (by decide)
    exact .blank (by decide) .nil

example : parseNames "\t,,\u3000" = none := by decide

end Settings

end CollectionSchema
