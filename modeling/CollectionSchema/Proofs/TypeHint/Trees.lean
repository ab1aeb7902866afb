import CollectionSchema.Proofs.TypeHint.Grammar
import CollectionSchema.Proofs.Text.Words

/-!
# The trees that type hints spell

The hint of a type spells a tree that can be read off the type (`ValueType.HasTree`): the
alternatives of its kind, and `None` behind them if the type is nullable, unless they say that
nothing is known. Every type has one tree, and this is `TypeHint.ofType` (`ValueType.hasTree_iff`).
Whether the alternatives say so can also be told from their text, and so the hint, which is written
from the texts of inner hints, is the text of the tree at every depth (`ValueType.render_ofType`).

If the object types in it are named by identifiers, or not at all, the hint is a sentence of the
grammar of type hints and is parsed as that tree. So two types have one hint only if they have one
tree (`hint_unambiguous`): what the hint leaves out, such as the further arguments of a list type,
is not in the tree.
-/

namespace CollectionSchema

/-! ## The tree of a type -/

namespace ValueType

/-- The kinds whose types are written with the same names always. -/
def fixedNames : List (TypeKind × List String) :=
  [(.string, ["str"]), (.bool, ["bool"]), (.int, ["int"]), (.float, ["float"]),
    (.number, ["int", "float"]), (.dynamic, ["Any"])]

mutual

/-- The tree of a type: its alternatives, with `None` behind them if the type is nullable and they
do not say that nothing is known. -/
inductive HasTree : ValueType → TypeHint → Prop
  | asIs {t : ValueType} {as : TypeHint} (h : HasAlternatives t as)
    (hplain : t.nullable = false ∨ as = [.name "Any"]) : HasTree t as
  | orNone {t : ValueType} {as : TypeHint} (h : HasAlternatives t as)
    (hnullable : t.nullable = true) (hne : as ≠ [.name "Any"]) : HasTree t (as ++ [.name "None"])

/-- The alternatives of a type, whether it is nullable or not. -/
inductive HasAlternatives : ValueType → TypeHint → Prop
  | fixed {t : ValueType} {names : List String} (h : (t.kind, names) ∈ fixedNames) :
    HasAlternatives t (names.map .name)
  | list {t a : ValueType} {as : List ValueType} {element : TypeHint} (hkind : t.kind = .list)
    (harguments : t.arguments = a :: as) (ha : HasTree a element) :
    HasAlternatives t [.list element]
  | bareList {t : ValueType} (hkind : t.kind = .list) (harguments : t.arguments = []) :
    HasAlternatives t [.list [.name "Any"]]
  | map {t k v : ValueType} {key value : TypeHint} (hkind : t.kind = .map)
    (harguments : t.arguments = [k, v]) (hk : HasTree k key) (hv : HasTree v value) :
    HasAlternatives t [.dictionary key value]
  | bareMap {t : ValueType} (hkind : t.kind = .map) (harguments : t.arguments.length ≠ 2) :
    HasAlternatives t [.dictionary [.name "str"] [.name "Any"]]
  | object {t : ValueType} (hkind : t.kind = .object) (hname : t.name ≠ "") :
    HasAlternatives t [.name t.name]
  | unnamed {t : ValueType} (hkind : t.kind = .object) (hname : t.name = "") :
    HasAlternatives t [.name "Any"]

end

end ValueType

namespace TypeHint

/-- Whether a type hint says nothing. -/
def isAny : TypeHint → Bool
  | [.name s] => s = "Any"
  | _ => false

/-- A type hint that admits null in addition, unless it says nothing. -/
def orNone (a : TypeHint) : TypeHint :=
  if isAny a then a else a ++ [.name "None"]

mutual

/-- The tree of a type, read off its kind. -/
def ofType : ValueType → TypeHint
  | ⟨kind, name, nullable, arguments⟩ =>
    let base : TypeHint := match kind with
      | .string => [.name "str"]
      | .bool => [.name "bool"]
      | .int => [.name "int"]
      | .float => [.name "float"]
      | .number => [.name "int", .name "float"]
      | .dynamic => [.name "Any"]
      | .list => [.list (ofFirst arguments)]
      | .map => [ofPair arguments]
      | .object => if name.isEmpty then [.name "Any"] else [.name name]
    if nullable then orNone base else base

def ofFirst : List ValueType → TypeHint
  | [] => [.name "Any"]
  | t :: _ => ofType t

def ofPair : List ValueType → Alternative
  | [k, v] => .dictionary (ofType k) (ofType v)
  | _ => .dictionary [.name "str"] [.name "Any"]

end

theorem isAny_iff {hint : TypeHint} : isAny hint = true ↔ hint = [.name "Any"] := by
  match hint with
  | [] | [.list _] | [.dictionary _ _] | _ :: _ :: _ => simp [isAny]
  | [.name s] => simp [isAny]

/-- The hint of a type as if it were not nullable. -/
def base (t : ValueType) : TypeHint :=
  ofType { t with nullable := false }

theorem ofType_eq (t : ValueType) :
    ofType t = if t.nullable then orNone (base t) else base t := by
  obtain ⟨kind, name, nullable, arguments⟩ := t
  cases nullable <;> rfl

theorem base_of_fixed {t : ValueType} {names : List String}
    (h : (t.kind, names) ∈ ValueType.fixedNames) : base t = names.map .name := by
  obtain ⟨kind, name, nullable, arguments⟩ := t
  simp only [ValueType.fixedNames, List.mem_cons, Prod.mk.injEq, List.not_mem_nil, or_false] at h
  rcases h with ⟨rfl, rfl⟩ | ⟨rfl, rfl⟩ | ⟨rfl, rfl⟩ | ⟨rfl, rfl⟩ | ⟨rfl, rfl⟩ | ⟨rfl, rfl⟩ <;> rfl

theorem base_of_object {t : ValueType} (hkind : t.kind = .object) (hname : t.name ≠ "") :
    base t = [.name t.name] := by
  obtain ⟨kind, name, nullable, arguments⟩ := t
  cases hkind
  simp [base, ofType, show name ≠ "" from hname]

theorem ofPair_of_length_ne {arguments : List ValueType} (h : arguments.length ≠ 2) :
    ofPair arguments = .dictionary [.name "str"] [.name "Any"] := by
  match arguments with
  | [] | [_] | _ :: _ :: _ :: _ => rfl
  | [_, _] => exact absurd rfl h

end TypeHint

namespace ValueType

theorem HasAlternatives.hasTree {t : ValueType} (h : t.HasAlternatives (TypeHint.base t)) :
    t.HasTree (TypeHint.ofType t) := by
  rw [TypeHint.ofType_eq]
  cases hnullable : t.nullable with
  | false => exact .asIs h (.inl hnullable)
  | true =>
    by_cases hany : TypeHint.isAny (TypeHint.base t)
    · simp only [TypeHint.orNone, if_pos hany]
      exact .asIs h (.inr (TypeHint.isAny_iff.1 hany))
    · simp only [TypeHint.orNone, if_neg hany]
      exact .orNone h hnullable (mt TypeHint.isAny_iff.2 hany)

theorem hasAlternatives_of_fixed {kind : TypeKind} {name : String} {nullable : Bool}
    {arguments : List ValueType} (h : kind ∈ fixedNames.map Prod.fst) :
    HasAlternatives ⟨kind, name, nullable, arguments⟩
      (TypeHint.base ⟨kind, name, nullable, arguments⟩) := by
  obtain ⟨⟨_, names⟩, hmem, rfl⟩ := List.mem_map.1 h
  rw [TypeHint.base_of_fixed hmem]
  exact .fixed hmem

theorem hasAlternatives_of_object {name : String} {nullable : Bool} {arguments : List ValueType} :
    HasAlternatives ⟨.object, name, nullable, arguments⟩
      (TypeHint.base ⟨.object, name, nullable, arguments⟩) := by
  by_cases hname : name = ""
  · subst hname
    exact .unnamed rfl rfl
  · rw [TypeHint.base_of_object rfl hname]
    exact .object rfl hname

theorem hasAlternatives_base : ∀ t : ValueType, t.HasAlternatives (TypeHint.base t)
  | ⟨.string, _, _, _⟩ | ⟨.bool, _, _, _⟩ | ⟨.int, _, _, _⟩ | ⟨.float, _, _, _⟩
  | ⟨.number, _, _, _⟩ | ⟨.dynamic, _, _, _⟩ => hasAlternatives_of_fixed (by decide)
  | ⟨.list, _, _, []⟩ => .bareList rfl rfl
  | ⟨.list, _, _, a :: _⟩ => .list rfl rfl (hasAlternatives_base a).hasTree
  | ⟨.map, _, _, [k, v]⟩ =>
    .map rfl rfl (hasAlternatives_base k).hasTree (hasAlternatives_base v).hasTree
  | ⟨.map, _, _, []⟩ | ⟨.map, _, _, [_]⟩ | ⟨.map, _, _, _ :: _ :: _ :: _⟩ =>
    .bareMap rfl (by simp)
  | ⟨.object, _, _, _⟩ => hasAlternatives_of_object

mutual

theorem HasTree.eq_ofType : ∀ {t : ValueType} {tree : TypeHint},
    t.HasTree tree → tree = TypeHint.ofType t
  | _, _, .asIs h hplain => by
    rw [TypeHint.ofType_eq, ← h.eq_base, TypeHint.orNone]
    rcases hplain with hplain | rfl
    · rw [hplain]
      rfl
    · simp [TypeHint.isAny]
  | _, _, .orNone h hnullable hne => by
    rw [TypeHint.ofType_eq, ← h.eq_base, hnullable, TypeHint.orNone,
      if_neg (mt TypeHint.isAny_iff.1 hne)]
    rfl

theorem HasAlternatives.eq_base : ∀ {t : ValueType} {as : TypeHint},
    t.HasAlternatives as → as = TypeHint.base t
  | _, _, .fixed h => (TypeHint.base_of_fixed h).symm
  | ⟨_, _, _, _⟩, _, .list rfl rfl ha => by
    rw [ha.eq_ofType]
    rfl
  | ⟨_, _, _, _⟩, _, .bareList rfl rfl => rfl
  | ⟨_, _, _, _⟩, _, .map rfl rfl hk hv => by
    rw [hk.eq_ofType, hv.eq_ofType]
    rfl
  | ⟨_, _, _, _⟩, _, .bareMap rfl harguments => by
    rw [← TypeHint.ofPair_of_length_ne harguments]
    rfl
  | _, _, .object hkind hname => (TypeHint.base_of_object hkind hname).symm
  | ⟨_, _, _, _⟩, _, .unnamed rfl rfl => rfl

end

/-- Every type has one tree. -/
theorem hasTree_iff {t : ValueType} {tree : TypeHint} :
    t.HasTree tree ↔ tree = TypeHint.ofType t := by
  constructor
  · exact HasTree.eq_ofType
  · rintro rfl
    exact (hasAlternatives_base t).hasTree

theorem HasAlternatives.ne_nil {t : ValueType} {as : TypeHint} (h : t.HasAlternatives as) :
    as ≠ [] := by
  cases h with
  | fixed h =>
    have hnames := (by decide : ∀ p ∈ fixedNames, p.2 ≠ []) _ h
    exact mt List.map_eq_nil_iff.1 hnames
  | list | bareList | map | bareMap | object | unnamed => exact List.cons_ne_nil _ _

/-- Whether alternatives say that nothing is known can be seen from their text. -/
theorem HasAlternatives.render_eq_any {t : ValueType} {as : TypeHint} (h : t.HasAlternatives as) :
    TypeHint.render as = "Any" ↔ as = [.name "Any"] := by
  constructor
  · intro htext
    cases h with
    | fixed h =>
      have hnames := (by decide : ∀ p ∈ fixedNames,
        TypeHint.render (p.2.map .name) = "Any" → p.2 = ["Any"]) _ h htext
      exact congrArg (List.map Alternative.name) hnames
    | list | bareList | map | bareMap =>
      -- These texts begin with a small letter.
      have hhead := congrArg (fun s => s.toList.head?) htext
      simp [TypeHint.render, TypeHint.renderAlternative] at hhead
    | object =>
      rw [← htext]
      rfl
    | unnamed => rfl
  · rintro rfl
    rfl

theorem admitting_any (nullable : Bool) : admitting nullable "Any" = "Any" := by
  simp [admitting]

theorem admitting_true {written : String} (h : written ≠ "Any") :
    admitting true written = written ++ " | None" := by
  simp [admitting, h]

/-- The text of a type's tree, from the text of its alternatives. -/
theorem render_ofType_eq (t : ValueType) :
    TypeHint.render (TypeHint.ofType t) =
      admitting t.nullable (TypeHint.render (TypeHint.base t)) := by
  have halternatives := hasAlternatives_base t
  rw [TypeHint.ofType_eq, TypeHint.orNone]
  cases t.nullable with
  | false => rfl
  | true =>
    rw [if_pos rfl]
    by_cases hany : TypeHint.base t = [.name "Any"]
    · rw [if_pos (TypeHint.isAny_iff.2 hany), halternatives.render_eq_any.2 hany, admitting_any]
    · rw [if_neg (mt TypeHint.isAny_iff.1 hany),
        admitting_true (mt halternatives.render_eq_any.1 hany),
        TypeHint.render_append halternatives.ne_nil (List.cons_ne_nil _ _), String.append_assoc]
      rfl

mutual

/-- The hint of a type is the text of its tree, and so are the hints in it. -/
theorem render_ofType : ∀ t : ValueType, TypeHint.render (TypeHint.ofType t) = t.hint
  | ⟨kind, name, nullable, arguments⟩ => by
    rw [render_ofType_eq, hint.eq_def]
    refine congrArg (admitting nullable) ?_
    cases kind with
    | string | bool | int | float | number | dynamic => rfl
    | list => exact congrArg (fun s => "list[" ++ s ++ "]") (render_ofFirst arguments)
    | map => exact renderAlternative_ofPair arguments
    | object =>
      by_cases hname : name = ""
      · subst hname
        rfl
      · rw [TypeHint.base_of_object rfl hname]
        exact (if_neg (mt String.isEmpty_iff.1 hname)).symm

theorem render_ofFirst : ∀ ts : List ValueType,
    TypeHint.render (TypeHint.ofFirst ts) = hintOfFirst ts
  | [] => rfl
  | t :: _ => render_ofType t

theorem renderAlternative_ofPair : ∀ ts : List ValueType,
    TypeHint.renderAlternative (TypeHint.ofPair ts) = hintOfPair ts
  | [k, v] => by
    rw [TypeHint.ofPair, TypeHint.renderAlternative, render_ofType k, render_ofType v, hintOfPair]
  | [] | [_] | _ :: _ :: _ :: _ => rfl

end

end ValueType

/-! ## Every hint is a sentence -/

/-- The names in hints that no type gives. -/
def builtinNames : List String :=
  ["str", "bool", "int", "float", "Any", "None"]

/-- What is required of `Name` for hints to be told apart. -/
structure Identifiers (Name : String → Prop) : Prop where
  unmarked : ∀ s, Name s → Unmarked s
  builtin : ∀ s ∈ builtinNames, Name s

theorem identifiers_isIdentifier : Identifiers fun s => Text.isIdentifier s = true where
  unmarked s hs := {
    ne_empty := Text.ne_empty_of_isIdentifier hs
    unmarked := by
      intro c hc
      have hpart := (Text.isIdentifier_iff.1 hs).2 c hc
      rw [Bool.eq_false_iff]
      intro hmark
      simp only [isMark, Bool.or_eq_true, beq_iff_eq] at hmark
      rcases hmark with (((rfl | rfl) | rfl) | rfl) | rfl <;> revert hpart <;> decide }
  builtin := by decide

/-- All object types that a type is made of have a name of `Name` or none. -/
inductive ValueType.NamedBy (Name : String → Prop) : ValueType → Prop
  | intro {t : ValueType} (name : t.kind = .object → t.name = "" ∨ Name t.name)
    (arguments : ∀ a ∈ t.arguments, NamedBy Name a) : NamedBy Name t

section

variable {Name : String → Prop} (hName : Identifiers Name)

include hName

theorem TypeHint.spelled_name {s : String} (hs : s ∈ builtinNames) :
    TypeHint.Spelled Name [.name s] s :=
  .single (.name (hName.builtin s hs))

theorem TypeHint.exists_spelled_names {names : List String} (hne : names ≠ [])
    (h : ∀ s ∈ names, s ∈ builtinNames) : ∃ s, TypeHint.Spelled Name (names.map .name) s := by
  induction names with
  | nil => exact absurd rfl hne
  | cons s names ih =>
    rw [List.forall_mem_cons] at h
    have hs := TypeHint.spelled_name hName h.1
    cases names with
    | nil => exact ⟨s, hs⟩
    | cons u names =>
      obtain ⟨v, hv⟩ := ih (List.cons_ne_nil _ _) h.2
      exact ⟨_, hv.append hs⟩

mutual

theorem ValueType.HasTree.exists_spelled :
    ∀ {t : ValueType} {tree : TypeHint}, t.HasTree tree → t.NamedBy Name →
      ∃ s, TypeHint.Spelled Name tree s
  | _, _, .asIs h _, hnamed => h.exists_spelled hnamed
  | _, _, .orNone h _ _, hnamed => by
    obtain ⟨s, hs⟩ := h.exists_spelled hnamed
    exact ⟨_, (TypeHint.spelled_name hName (by decide)).append hs⟩

theorem ValueType.HasAlternatives.exists_spelled :
    ∀ {t : ValueType} {as : TypeHint}, t.HasAlternatives as → t.NamedBy Name →
      ∃ s, TypeHint.Spelled Name as s
  | _, _, .fixed h, _ => by
    obtain ⟨hne, hnames⟩ := (by decide : ∀ p ∈ ValueType.fixedNames,
      p.2 ≠ [] ∧ ∀ s ∈ p.2, s ∈ builtinNames) _ h
    exact TypeHint.exists_spelled_names hName hne hnames
  | _, _, .list _ harguments ha, ⟨_, hnamed⟩ => by
    rw [harguments, List.forall_mem_cons] at hnamed
    obtain ⟨s, hs⟩ := ha.exists_spelled hnamed.1
    exact ⟨_, .single (.list hs)⟩
  | _, _, .bareList _ _, _ => ⟨_, .single (.list (TypeHint.spelled_name hName (by decide)))⟩
  | _, _, .map _ harguments hk hv, ⟨_, hnamed⟩ => by
    rw [harguments, List.forall_mem_cons, List.forall_mem_singleton] at hnamed
    obtain ⟨s, hs⟩ := hk.exists_spelled hnamed.1
    obtain ⟨u, hu⟩ := hv.exists_spelled hnamed.2
    exact ⟨_, .single (.dictionary hs hu)⟩
  | _, _, .bareMap _ _, _ =>
    ⟨_, .single (.dictionary (TypeHint.spelled_name hName (by decide))
      (TypeHint.spelled_name hName (by decide)))⟩
  | _, _, .object hkind hname, ⟨hnamed, _⟩ =>
    ⟨_, .single (.name ((hnamed hkind).resolve_left hname))⟩
  | _, _, .unnamed _ _, _ => ⟨_, TypeHint.spelled_name hName (by decide)⟩

end

theorem ValueType.NamedBy.spelled_hint {t : ValueType} (h : t.NamedBy Name) :
    TypeHint.Spelled Name (TypeHint.ofType t) t.hint := by
  obtain ⟨s, hs⟩ := (ValueType.hasAlternatives_base t).hasTree.exists_spelled hName h
  rwa [hs.eq_render, ValueType.render_ofType] at hs

end

/-- The hint of a type is a sentence of one tree only, the one of the type, and is parsed as it; two
types have one hint just if they have one tree. -/
theorem hint_unambiguous {Name : String → Prop} (hName : Identifiers Name) :
    (∀ t : ValueType, t.NamedBy Name → ∃ tree, (∀ other, t.HasTree other ↔ other = tree) ∧
      (∀ other, TypeHint.Spelled Name other t.hint ↔ other = tree) ∧
      TypeHint.parse? t.hint = some tree) ∧
    ∀ t u : ValueType, t.NamedBy Name → u.NamedBy Name → ∀ tree other, t.HasTree tree →
      u.HasTree other → (t.hint = u.hint ↔ tree = other) := by
  refine ⟨fun t ht => ?_, fun t u ht hu tree other htree hother => ?_⟩
  · have hspelled := ht.spelled_hint hName
    refine ⟨TypeHint.ofType t, fun other => ValueType.hasTree_iff, fun other => ?_, ?_⟩
    · constructor
      · intro hother
        exact hother.unique hName.unmarked hspelled
      · rintro rfl
        exact hspelled
    · exact TypeHint.parse?_eq_some.2 (hspelled.mono hName.unmarked)
  · rw [htree.eq_ofType, hother.eq_ofType]
    constructor
    · intro heq
      have hspelled := hu.spelled_hint hName
      rw [← heq] at hspelled
      exact (ht.spelled_hint hName).unique hName.unmarked hspelled
    · intro heq
      rw [← ValueType.render_ofType, heq, ValueType.render_ofType]

/-- Lists of ratings by name; the map and each of the ratings may be null. -/
def ratingsByName : ValueType :=
  ⟨.map, "", true, [⟨.string, "", false, []⟩, ⟨.list, "", false, [⟨.object, "Rating", true, []⟩]⟩]⟩

theorem namedBy_ratingsByName : ratingsByName.NamedBy fun s => Text.isIdentifier s = true := by
  have hrating : ValueType.NamedBy (fun s => Text.isIdentifier s = true)
      ⟨.object, "Rating", true, []⟩ := .intro (fun _ => .inr (by decide)) (by simp)
  have hkey : ValueType.NamedBy (fun s => Text.isIdentifier s = true) ⟨.string, "", false, []⟩ :=
    .intro (by simp) (by simp)
  have hvalue : ValueType.NamedBy (fun s => Text.isIdentifier s = true)
      ⟨.list, "", false, [⟨.object, "Rating", true, []⟩]⟩ :=
    .intro (by simp) (by simpa using hrating)
  exact .intro (by simp [ratingsByName]) (by simpa [ratingsByName] using ⟨hkey, hvalue⟩)

theorem hint_unambiguous_ratingsByName :
    ratingsByName.hint = "dict[str, list[Rating | None]] | None" ∧
      ∃ tree, ratingsByName.HasTree tree ∧
        TypeHint.parse? "dict[str, list[Rating | None]] | None" = some tree := by
  have htext : ratingsByName.hint = "dict[str, list[Rating | None]] | None" := by decide
  obtain ⟨tree, htree, -, hparse⟩ :=
    (hint_unambiguous identifiers_isIdentifier).1 ratingsByName namedBy_ratingsByName
  exact ⟨htext, tree, (htree tree).2 rfl, htext ▸ hparse⟩

end CollectionSchema
