import CollectionSchema.Layout
import Mathlib.Data.List.Infix

/-!
# Definitions in scripts

A definition in a script is a header with what stands below it, up to where the margin goes back.
`definitions` reads those off a script whose headers begin with a given text. `Holds` says that a
script has certain definitions whatever comes behind it; its rules follow the way in which scripts
are put together, so the definitions in a long script are found part by part. Names are read off
single lines by `enclosed?`, from fixed texts before and behind them (`enclosed?_append`).
-/

namespace CollectionSchema

namespace Text

/-- The characters in front of the last place at which a separator stands. -/
def beforeLast? (sep : List Char) : List Char → Option (List Char)
  | [] => none
  | c :: cs =>
    match beforeLast? sep cs with
    | some start => some (c :: start)
    | none => if sep.isPrefixOf (c :: cs) then some [] else none

/-- A separator that stands in a text at its begin only is the last one behind any other text. -/
theorem beforeLast?_append {sep rest : List Char} (h : beforeLast? sep rest = some [])
    (cs : List Char) : beforeLast? sep (cs ++ rest) = some cs := by
  induction cs with
  | nil => exact h
  | cons c cs ih => rw [List.cons_append, beforeLast?, ih]

end Text

namespace Layout

/-! ## Texts by their first characters -/

def begins (start text : String) : Bool :=
  start.toList.isPrefixOf text.toList

/-- Neither text begins with the other one, so they differ whatever comes behind them. -/
structure Apart (start text : String) : Prop where
  left : ¬start.toList <+: text.toList
  right : ¬text.toList <+: start.toList

/-- Whether two rows of characters differ at a place that both have. -/
def differ : List Char → List Char → Bool
  | c :: cs, d :: ds => c != d || differ cs ds
  | _, _ => false

theorem differ_comm (cs ds : List Char) : differ cs ds = differ ds cs := by
  induction cs generalizing ds with
  | nil => cases ds <;> rfl
  | cons c cs ih =>
    cases ds with
    | nil => rfl
    | cons d ds => rw [differ, differ, ih ds, bne_comm]

theorem not_prefix_of_differ {cs ds : List Char} (h : differ cs ds = true) : ¬cs <+: ds := by
  induction cs generalizing ds with
  | nil => cases h
  | cons c cs ih =>
    cases ds with
    | nil => cases h
    | cons d ds =>
      rw [List.cons_prefix_cons]
      rintro ⟨rfl, hprefix⟩
      rw [differ, bne_self_eq_false, Bool.false_or] at h
      exact ih h hprefix

theorem Apart.ofList {cs ds : List Char} (h : differ cs ds = true) :
    Apart (.ofList cs) (.ofList ds) where
  left := by
    rw [String.toList_ofList, String.toList_ofList]
    exact not_prefix_of_differ h
  right := by
    rw [String.toList_ofList, String.toList_ofList]
    exact not_prefix_of_differ (differ_comm cs ds ▸ h)

theorem begins_ofList {cs ds : List Char} (h : cs.isPrefixOf ds = true) :
    begins (.ofList cs) (.ofList ds) = true := by
  rwa [begins, String.toList_ofList, String.toList_ofList]

theorem begins_empty {c : Char} {cs : List Char} : begins (.ofList (c :: cs)) "" = false := by
  rw [begins, String.toList_ofList]
  rfl

theorem begins_iff {start text : String} : begins start text = true ↔
    start.toList <+: text.toList :=
  List.isPrefixOf_iff_prefix

theorem begins_append {start text : String} (h : begins start text = true) (rest : String) :
    begins start (text ++ rest) = true := by
  rw [begins_iff] at h ⊢
  rw [String.toList_append]
  exact h.trans (List.prefix_append _ _)

theorem begins_self (text : String) : begins text text = true :=
  begins_iff.2 (List.prefix_refl _)

theorem Apart.symm {start text : String} (h : Apart start text) : Apart text start :=
  ⟨h.right, h.left⟩

theorem Apart.append {start text : String} (h : Apart start text) (rest : String) :
    Apart start (text ++ rest) where
  left hprefix := by
    rw [String.toList_append] at hprefix
    exact (List.prefix_or_prefix_of_prefix hprefix (List.prefix_append _ _)).elim h.left h.right
  right hprefix := by
    rw [String.toList_append] at hprefix
    exact h.right ((List.prefix_append _ _).trans hprefix)

theorem Apart.begins_eq_false {start text : String} (h : Apart start text) :
    begins start text = false := by
  rw [Bool.eq_false_iff, ne_eq, begins_iff]
  exact h.left

/-! ## Lines -/

/-- What a line has between a text that it begins with and the last place of a separator. -/
def enclosed? (start sep line : String) : Option String :=
  ((line.toList.dropPrefix? start.toList).bind (Text.beforeLast? sep.toList)).map .ofList

theorem enclosed?_append {start sep rest : String}
    (h : Text.beforeLast? sep.toList rest.toList = some []) (text : String) :
    enclosed? start sep (start ++ (text ++ rest)) = some text := by
  rw [enclosed?, String.toList_append, List.dropPrefix?_append_of_beq _ BEq.rfl, Option.bind_some,
    String.toList_append, Text.beforeLast?_append h, Option.map_some, String.ofList_toList]

theorem Apart.enclosed?_eq_none {start line : String} (h : Apart start line) (sep : String) :
    enclosed? start sep line = none := by
  have hnone : line.toList.dropPrefix? start.toList = none := by
    rw [Option.eq_none_iff_forall_ne_some]
    intro rest hrest
    obtain ⟨first, hline, hfirst⟩ := List.dropPrefix?_eq_some_iff.1 hrest
    obtain rfl := eq_of_beq hfirst
    exact h.left (hline ▸ List.prefix_append _ _)
  rw [enclosed?, hnone, Option.bind_none, Option.map_none]

/-- What the lines of a script have between a text that they begin with and a separator. -/
def enclosed (start sep : String) (s : Script) : List String :=
  s.filterMap fun
    | .line text => enclosed? start sep text
    | .indent | .dedent => none

section

variable {start sep rest header : String}

theorem enclosed_append (start sep : String) (s t : Script) :
    enclosed start sep (s ++ t) = enclosed start sep s ++ enclosed start sep t :=
  List.filterMap_append

theorem enclosed_flatMap {α : Type} (start sep : String) (l : List α) (f : α → Script) :
    enclosed start sep (l.flatMap f) = l.flatMap fun a => enclosed start sep (f a) :=
  List.filterMap_flatMap

theorem enclosed_line (h : Text.beforeLast? sep.toList rest.toList = some []) (text : String)
    (s : Script) :
    enclosed start sep (.line (start ++ (text ++ rest)) :: s) = text :: enclosed start sep s :=
  List.filterMap_cons_some (enclosed?_append h text)

theorem Apart.enclosed_line (h : Apart start header) (sep : String) (s : Script) :
    enclosed start sep (.line header :: s) = enclosed start sep s :=
  List.filterMap_cons_none (h.enclosed?_eq_none sep)

theorem Apart.enclosed_between {first last : String} (hfirst : Apart start first)
    (hlast : Apart start last) (sep : String) (s : Script) :
    enclosed start sep (.line first :: s ++ [.line last]) = enclosed start sep s := by
  rw [enclosed_append, hfirst.enclosed_line, hlast.enclosed_line]
  exact List.append_nil _

theorem Apart.enclosed_block (h : Apart start header) (sep : String) (body : Script) :
    enclosed start sep (block header body) = enclosed start sep body := by
  have hbody : enclosed start sep (.indent :: body ++ [.dedent]) = enclosed start sep body :=
    (enclosed_append start sep body [.dedent]).trans (List.append_nil _)
  rw [block, List.cons_append, h.enclosed_line, hbody]

end

/-! ## Definitions -/

/-- The steps of a script up to the one that moves the margin to the left of the level at which the
script starts; it starts at a depth below that level. -/
def inside : Nat → Script → Script
  | _, [] => []
  | depth, .line text :: rest => .line text :: inside depth rest
  | depth, .indent :: rest => .indent :: inside (depth + 1) rest
  | 0, .dedent :: _ => []
  | depth + 1, .dedent :: rest => .dedent :: inside depth rest

/-- A header and what stands below it. -/
structure Definition where
  header : String
  body : Script
deriving DecidableEq

/-- The definitions in a script whose headers begin with a text. -/
def definitions (start : String) : Script → List Definition
  | [] => []
  | .line text :: rest =>
    if begins start text then ⟨text, inside 0 (rest.drop 1)⟩ :: definitions start rest
    else definitions start rest
  | .indent :: rest => definitions start rest
  | .dedent :: rest => definitions start rest

/-- The script moves the margin back to where it was and has these definitions with headers that
begin with the text, whatever comes behind it. -/
structure Holds (start : String) (s : Script) (found : List Definition) : Prop where
  inside_append : ∀ depth t, inside depth (s ++ t) = s ++ inside depth t
  definitions_append : ∀ t, definitions start (s ++ t) = found ++ definitions start t

namespace Holds

variable {start text header : String} {s t body : Script} {found more : List Definition}

theorem definitions_eq (h : Holds start s found) : definitions start s = found := by
  have hnil := h.definitions_append []
  rwa [List.append_nil, definitions, List.append_nil] at hnil

theorem nil : Holds start [] [] :=
  ⟨fun _ _ => rfl, fun _ => rfl⟩

theorem line_of_begins (htext : begins start text = false) (hs : Holds start s found) :
    Holds start (.line text :: s) found where
  inside_append depth t := congrArg (Step.line text :: ·) (hs.inside_append depth t)
  definitions_append t := by
    rw [List.cons_append, definitions, htext, if_neg Bool.false_ne_true, hs.definitions_append]

theorem line (htext : Apart start text) (hs : Holds start s found) :
    Holds start (.line text :: s) found :=
  hs.line_of_begins htext.begins_eq_false

theorem blank (hstart : begins start "" = false) (hs : Holds start s found) :
    Holds start (Layout.blank :: s) found :=
  hs.line_of_begins hstart

theorem append (hs : Holds start s found) (ht : Holds start t more) :
    Holds start (s ++ t) (found ++ more) where
  inside_append depth u := by
    rw [List.append_assoc, hs.inside_append, ht.inside_append, List.append_assoc]
  definitions_append u := by
    rw [List.append_assoc, hs.definitions_append, ht.definitions_append, List.append_assoc]

theorem append_nil (hs : Holds start s found) (ht : Holds start t []) :
    Holds start (s ++ t) found := by
  simpa only [List.append_nil] using hs.append ht

theorem nil_append (hs : Holds start s []) (ht : Holds start t found) :
    Holds start (s ++ t) found :=
  hs.append ht

theorem between {first last : String} (hfirst : Apart start first) (hs : Holds start s found)
    (hlast : Apart start last) : Holds start (.line first :: s ++ [.line last]) found :=
  .append_nil (.line hfirst hs) (.line hlast .nil)

theorem flatMap {α : Type} {l : List α} {f : α → Script} (h : ∀ a ∈ l, Holds start (f a) []) :
    Holds start (l.flatMap f) [] := by
  induction l with
  | nil => exact .nil
  | cons a l ih =>
    rw [List.forall_mem_cons] at h
    exact h.1.append_nil (ih h.2)

theorem map_line {α : Type} {l : List α} {text : α → String} (h : ∀ a ∈ l, Apart start (text a)) :
    Holds start (l.map fun a => .line (text a)) [] := by
  induction l with
  | nil => exact .nil
  | cons a l ih =>
    rw [List.forall_mem_cons] at h
    exact .line h.1 (ih h.2)

theorem inside_block (hbody : Holds start body found) (depth : Nat) (t : Script) :
    inside depth (Layout.block header body ++ t) = Layout.block header body ++ inside depth t := by
  have hbelow := hbody.inside_append (depth + 1) (.dedent :: t)
  rw [inside] at hbelow
  simp only [Layout.block, List.cons_append, List.append_assoc, List.nil_append, inside, hbelow]

theorem definitions_block (hbody : Holds start body found) (t : Script) :
    definitions start (Layout.block header body ++ t) =
      (if begins start header then [⟨header, body⟩] else []) ++ (found ++ definitions start t) := by
  -- The body ends where the block does: behind it the margin goes back.
  have hinside : inside 0 (body ++ .dedent :: t) = body := by
    rw [hbody.inside_append, inside, List.append_nil]
  have hrest : definitions start (body ++ .dedent :: t) = found ++ definitions start t :=
    hbody.definitions_append (.dedent :: t)
  simp only [Layout.block, List.cons_append, List.append_assoc, List.nil_append, definitions,
    List.drop_succ_cons, List.drop_zero, hinside, hrest]
  split <;> rfl

theorem block (hheader : Apart start header) (hbody : Holds start body found) :
    Holds start (Layout.block header body) found where
  inside_append := hbody.inside_block
  definitions_append t := by
    rw [hbody.definitions_block, hheader.begins_eq_false, if_neg Bool.false_ne_true,
      List.nil_append]

theorem definition (hheader : begins start header = true) (hbody : Holds start body []) :
    Holds start (Layout.block header body) [⟨header, body⟩] where
  inside_append := hbody.inside_block
  definitions_append t := by
    rw [hbody.definitions_block, hheader, if_pos rfl, List.nil_append]

end Holds

end Layout

end CollectionSchema
