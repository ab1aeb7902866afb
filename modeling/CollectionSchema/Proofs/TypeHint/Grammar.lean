import CollectionSchema.TypeHint
import Mathlib.Data.List.Basic
import Mathlib.Data.List.TakeWhile

/-!
# The grammar of type hints

The tree of a type hint is a list of alternatives, each of them a name, a list type or a dictionary
type. It is written by a grammar of two rules (`TypeHint.Spelled`, `Alternative.Spelled`): a type
hint is one alternative or several with ` | ` between them, and an alternative is a name, or `list`
or `dict` applied to type hints in brackets. What a name is is left open but for this: names are not
empty and hold none of the marks that stand between them.

`TypeHint.parse?` reads a text by this grammar, with brackets inside brackets to any depth. It reads
just the sentences of the grammar, and each as the hint that it spells (`TypeHint.parse?_eq_some`),
so no text spells two hints. A name is read up to the next mark, and what it is, a name or the head
of an applied type, is settled by that mark alone.
-/

namespace CollectionSchema

/-! ## Trees -/

/-- One alternative of a type hint. -/
inductive Alternative where
  | name (s : String)
  | list (element : List Alternative)
  | dictionary (key value : List Alternative)
deriving Repr

abbrev TypeHint := List Alternative

namespace TypeHint

mutual

def renderAlternative : Alternative → String
  | .name s => s
  | .list element => "list[" ++ render element ++ "]"
  | .dictionary key value => "dict[" ++ render key ++ ", " ++ render value ++ "]"

def render : List Alternative → String
  | [] => ""
  | [a] => renderAlternative a
  | a :: as => renderAlternative a ++ " | " ++ render as

end

end TypeHint

/-! ## Sentences -/

/-- The characters that stand between the names of a type hint. -/
def isMark (c : Char) : Bool :=
  c == ' ' || c == '|' || c == '[' || c == ']' || c == ','

/-- A text that is not empty and that no mark breaks up. -/
structure Unmarked (s : String) : Prop where
  ne_empty : s ≠ ""
  unmarked : ∀ c ∈ s.toList, isMark c = false

mutual

/-- The text of an alternative, where `Name` says what a name is. -/
inductive Alternative.Spelled (Name : String → Prop) : Alternative → String → Prop
  | name {s : String} (hname : Name s) : Alternative.Spelled Name (.name s) s
  | list {element : List Alternative} {s : String} (helement : TypeHint.Spelled Name element s) :
    Alternative.Spelled Name (.list element) ("list[" ++ s ++ "]")
  | dictionary {key value : List Alternative} {s t : String}
    (hkey : TypeHint.Spelled Name key s) (hvalue : TypeHint.Spelled Name value t) :
    Alternative.Spelled Name (.dictionary key value) ("dict[" ++ s ++ ", " ++ t ++ "]")

/-- The text of a type hint: its alternatives, of which there is at least one, with ` | ` between
neighbours. -/
inductive TypeHint.Spelled (Name : String → Prop) : List Alternative → String → Prop
  | single {a : Alternative} {s : String} (ha : Alternative.Spelled Name a s) :
    TypeHint.Spelled Name [a] s
  | more {a : Alternative} {as : List Alternative} {s t : String}
    (ha : Alternative.Spelled Name a s) (has : TypeHint.Spelled Name as t) :
    TypeHint.Spelled Name (a :: as) (s ++ " | " ++ t)

end

mutual

theorem Alternative.Spelled.mono {Name Other : String → Prop} (h : ∀ s, Name s → Other s) :
    ∀ {a : Alternative} {s : String}, a.Spelled Name s → a.Spelled Other s
  | _, _, .name hname => .name (h _ hname)
  | _, _, .list helement => .list (helement.mono h)
  | _, _, .dictionary hkey hvalue => .dictionary (hkey.mono h) (hvalue.mono h)

theorem TypeHint.Spelled.mono {Name Other : String → Prop} (h : ∀ s, Name s → Other s) :
    ∀ {as : List Alternative} {s : String},
      TypeHint.Spelled Name as s → TypeHint.Spelled Other as s
  | _, _, .single ha => .single (ha.mono h)
  | _, _, .more ha has => .more (ha.mono h) (has.mono h)

end

theorem TypeHint.Spelled.ne_nil {Name : String → Prop} {as : List Alternative} {s : String}
    (h : TypeHint.Spelled Name as s) : as ≠ [] := by
  cases h <;> exact List.cons_ne_nil _ _

theorem TypeHint.Spelled.append {Name : String → Prop} {bs : List Alternative} {t : String}
    (hbs : TypeHint.Spelled Name bs t) : ∀ {as : List Alternative} {s : String},
      TypeHint.Spelled Name as s → TypeHint.Spelled Name (as ++ bs) (s ++ " | " ++ t)
  | _, _, .single ha => .more ha hbs
  | _, _, .more ha has => by
    have hmore := TypeHint.Spelled.more ha (hbs.append has)
    rwa [← String.append_assoc, ← String.append_assoc] at hmore

theorem TypeHint.render_cons {a : Alternative} {as : List Alternative} (has : as ≠ []) :
    render (a :: as) = renderAlternative a ++ " | " ++ render as := by
  cases as with
  | nil => exact absurd rfl has
  | cons b as => rfl

theorem TypeHint.render_append {as bs : List Alternative} (has : as ≠ []) (hbs : bs ≠ []) :
    render (as ++ bs) = render as ++ " | " ++ render bs := by
  induction as with
  | nil => exact absurd rfl has
  | cons a as ih =>
    cases as with
    | nil => exact render_cons hbs
    | cons b as =>
      have hne : b :: as ≠ [] := List.cons_ne_nil b as
      have hmore : b :: as ++ bs ≠ [] := List.append_ne_nil_of_left_ne_nil hne bs
      rw [List.cons_append, render_cons hmore, render_cons hne, ih hne]
      simp only [String.append_assoc]

mutual

theorem Alternative.Spelled.eq_render {Name : String → Prop} :
    ∀ {a : Alternative} {s : String}, a.Spelled Name s → s = TypeHint.renderAlternative a
  | _, _, .name _ => rfl
  | _, _, .list helement => by rw [TypeHint.renderAlternative, ← helement.eq_render]
  | _, _, .dictionary hkey hvalue => by
    rw [TypeHint.renderAlternative, ← hkey.eq_render, ← hvalue.eq_render]

theorem TypeHint.Spelled.eq_render {Name : String → Prop} :
    ∀ {as : List Alternative} {s : String},
      TypeHint.Spelled Name as s → s = TypeHint.render as
  | _, _, .single ha => ha.eq_render
  | _, _, .more ha has => by
    rw [TypeHint.render_cons has.ne_nil, ← ha.eq_render, ← has.eq_render]

end

/-! ## Reading -/

/-- The text behind `mark`, if it begins with it. -/
def skip (mark : String) (cs : List Char) : Option (List Char) :=
  cs.dropPrefix? mark.toList

theorem skip_eq_some {mark : String} {cs rest : List Char} :
    skip mark cs = some rest ↔ cs = mark.toList ++ rest := by
  rw [skip, List.dropPrefix?_eq_some_iff]
  constructor
  · rintro ⟨p, rfl, hp⟩
    rw [eq_of_beq hp]
  · intro hcs
    exact ⟨mark.toList, hcs, beq_self_eq_true _⟩

/-- The alternative at the beginning of a text and what follows it, where `inner` reads the hints
inside brackets. -/
def Alternative.read (inner : List Char → Option (TypeHint × List Char)) (cs : List Char) :
    Option (Alternative × List Char) :=
  let name := String.ofList (cs.takeWhile (!isMark ·))
  let rest := cs.dropWhile (!isMark ·)
  match skip "[" rest with
  | none => if name = "" then none else some (.name name, rest)
  | some inside => do
    let (first, rest) ← inner inside
    if name = "list" then
      let rest ← skip "]" rest
      some (.list first, rest)
    else if name = "dict" then
      let rest ← skip ", " rest
      let (second, rest) ← inner rest
      let rest ← skip "]" rest
      some (.dictionary first second, rest)
    else none

namespace TypeHint

/-- The type hint at the beginning of a text and what follows it. Every hint that is read on the way
begins further on, so a number of steps above the length of the text is enough. -/
def read : Nat → List Char → Option (TypeHint × List Char)
  | 0, _ => none
  | n + 1, cs => do
    let (a, rest) ← Alternative.read (read n) cs
    match skip " | " rest with
    | none => some ([a], rest)
    | some rest => do
      let (as, rest) ← read n rest
      some (a :: as, rest)

/-- The type hint that a text spells. -/
def parse? (s : String) : Option TypeHint :=
  match read (s.toList.length + 1) s.toList with
  | some (hint, []) => some hint
  | _ => none

end TypeHint

/-! ## Every sentence is read -/

/-- What can stand behind an alternative: nothing, or a mark that opens no bracket. -/
def FollowsAlternative (rest : List Char) : Prop :=
  ∀ c ∈ rest.head?, isMark c = true ∧ c ≠ '['

/-- What can stand behind a hint: nothing, or the mark that ends it inside brackets. -/
def FollowsHint (rest : List Char) : Prop :=
  ∀ c ∈ rest.head?, c = ']' ∨ c = ','

theorem followsHint_cons {c : Char} (hc : c = ']' ∨ c = ',') (rest : List Char) :
    FollowsHint (c :: rest) := by
  rintro _ ⟨rfl⟩
  exact hc

theorem FollowsHint.followsAlternative {rest : List Char} (h : FollowsHint rest) :
    FollowsAlternative rest := by
  intro c hc
  rcases h c hc with rfl | rfl <;> decide

theorem FollowsHint.skip_eq_none {rest : List Char} (h : FollowsHint rest) :
    skip " | " rest = none := by
  rw [Option.eq_none_iff_forall_ne_some]
  intro after hafter
  rw [skip_eq_some] at hafter
  subst hafter
  rcases h ' ' rfl with hc | hc <;> cases hc

theorem FollowsAlternative.skip_eq_none {rest : List Char} (h : FollowsAlternative rest) :
    skip "[" rest = none := by
  rw [Option.eq_none_iff_forall_ne_some]
  intro inside hinside
  rw [skip_eq_some] at hinside
  subst hinside
  exact (h '[' rfl).2 rfl

/-- A name ends at the first mark. -/
theorem span_name {s : String} (hs : ∀ c ∈ s.toList, isMark c = false) {rest : List Char}
    (hrest : ∀ c ∈ rest.head?, isMark c = true) :
    (s.toList ++ rest).takeWhile (!isMark ·) = s.toList ∧
      (s.toList ++ rest).dropWhile (!isMark ·) = rest := by
  have hname : ∀ c ∈ s.toList, (!isMark c) = true := fun c hc => by rw [hs c hc, Bool.not_false]
  rw [List.takeWhile_append_of_pos hname, List.dropWhile_append_of_pos hname]
  cases rest with
  | nil => exact ⟨List.append_nil _, rfl⟩
  | cons c rest => simp [hrest c rfl]

namespace Alternative

variable {inner : List Char → Option (TypeHint × List Char)}

theorem read_name {s : String} (hs : Unmarked s) {rest : List Char}
    (hrest : FollowsAlternative rest) : read inner (s.toList ++ rest) = some (.name s, rest) := by
  obtain ⟨htake, hdrop⟩ := span_name hs.unmarked fun c hc => (hrest c hc).1
  simp only [read, htake, hdrop, hrest.skip_eq_none, String.ofList_toList, if_neg hs.ne_empty]

/-- What is in front of a bracket is read whole. -/
theorem read_head {head : String} (hs : ∀ c ∈ head.toList, isMark c = false)
    (inside : List Char) :
    read inner (head.toList ++ '[' :: inside) = (do
      let (first, rest) ← inner inside
      if head = "list" then
        let rest ← skip "]" rest
        some (.list first, rest)
      else if head = "dict" then
        let rest ← skip ", " rest
        let (second, rest) ← inner rest
        let rest ← skip "]" rest
        some (.dictionary first second, rest)
      else none) := by
  have hmark : ∀ c ∈ ('[' :: inside).head?, isMark c = true := by
    rintro _ ⟨rfl⟩
    decide
  obtain ⟨htake, hdrop⟩ := span_name hs hmark
  have hskip : skip "[" ('[' :: inside) = some inside := skip_eq_some.2 rfl
  simp only [read, htake, hdrop, hskip, String.ofList_toList]

theorem read_list {inside rest : List Char} {element : TypeHint}
    (h : inner inside = some (element, ']' :: rest)) :
    read inner ("list[".toList ++ inside) = some (.list element, rest) := by
  have hskip : skip "]" (']' :: rest) = some rest := skip_eq_some.2 rfl
  have hhead := @read_head inner "list" (by simp [isMark]) inside
  simpa [h, hskip] using hhead

theorem read_dictionary {inside between rest : List Char} {key value : TypeHint}
    (hkey : inner inside = some (key, ',' :: ' ' :: between))
    (hvalue : inner between = some (value, ']' :: rest)) :
    read inner ("dict[".toList ++ inside) = some (.dictionary key value, rest) := by
  have hcomma : skip ", " (',' :: ' ' :: between) = some between := skip_eq_some.2 rfl
  have hskip : skip "]" (']' :: rest) = some rest := skip_eq_some.2 rfl
  have hhead := @read_head inner "dict" (by simp [isMark]) inside
  simpa [hkey, hcomma, hvalue, hskip] using hhead

end Alternative

namespace TypeHint

theorem read_single {n : Nat} {cs rest : List Char} {a : Alternative} (hrest : FollowsHint rest)
    (ha : Alternative.read (read n) cs = some (a, rest)) : read (n + 1) cs = some ([a], rest) := by
  simp only [read, ha, Option.bind_eq_bind, Option.bind_some, hrest.skip_eq_none]

theorem read_more {n : Nat} {cs more rest : List Char} {a : Alternative} {as : TypeHint}
    (ha : Alternative.read (read n) cs = some (a, " | ".toList ++ more))
    (has : read n more = some (as, rest)) : read (n + 1) cs = some (a :: as, rest) := by
  have hskip : skip " | " (" | ".toList ++ more) = some more := skip_eq_some.2 rfl
  simp only [read, ha, Option.bind_eq_bind, Option.bind_some, hskip, has]

end TypeHint

-- The induction is on how the text is spelled. A hint inside brackets is shorter than the text by
-- the brackets, and a hint behind ` | ` by what stands in front, so the steps that are left are
-- enough for it.
mutual

theorem Alternative.read_of_spelled : ∀ {a : Alternative} {s : String}, a.Spelled Unmarked s →
    ∀ {n : Nat}, s.toList.length ≤ n → ∀ (rest : List Char), FollowsAlternative rest →
      Alternative.read (TypeHint.read n) (s.toList ++ rest) = some (a, rest)
  | _, _, .name hname, _, _, _, hrest => Alternative.read_name hname hrest
  | _, _, .list (s := s) helement, n, hn, rest, _ => by
    have hlength : s.toList.length < n := by
      simp only [String.toList_append, List.length_append, String.reduceToList,
        List.length_cons] at hn
      omega
    have hinner := TypeHint.read_of_spelled helement hlength (']' :: rest)
      (followsHint_cons (.inl rfl) rest)
    have htext : ("list[" ++ s ++ "]").toList ++ rest =
        "list[".toList ++ (s.toList ++ ']' :: rest) := by
      simp only [String.toList_append, List.append_assoc]
      rfl
    rw [htext]
    exact Alternative.read_list hinner
  | _, _, .dictionary (s := s) (t := t) hkey hvalue, n, hn, rest, hrest => by
    have hlength : s.toList.length < n ∧ t.toList.length < n := by
      simp only [String.toList_append, List.length_append, String.reduceToList,
        List.length_cons] at hn
      omega
    have htext : ("dict[" ++ s ++ ", " ++ t ++ "]").toList ++ rest =
        "dict[".toList ++ (s.toList ++ ',' :: ' ' :: (t.toList ++ ']' :: rest)) := by
      simp only [String.toList_append, List.append_assoc]
      rfl
    rw [htext]
    exact Alternative.read_dictionary
      (TypeHint.read_of_spelled hkey hlength.1 _ (followsHint_cons (.inr rfl) _))
      (TypeHint.read_of_spelled hvalue hlength.2 _ (followsHint_cons (.inl rfl) rest))

theorem TypeHint.read_of_spelled : ∀ {as : List Alternative} {s : String},
    TypeHint.Spelled Unmarked as s → ∀ {n : Nat}, s.toList.length < n →
      ∀ (rest : List Char), FollowsHint rest →
        TypeHint.read n (s.toList ++ rest) = some (as, rest)
  | _, _, .single ha, n + 1, hn, rest, hrest =>
    TypeHint.read_single hrest
      (Alternative.read_of_spelled ha (Nat.le_of_lt_succ hn) rest hrest.followsAlternative)
  | _, _, .more (s := s) (t := t) ha has, n + 1, hn, rest, hrest => by
    have hlength : s.toList.length ≤ n ∧ t.toList.length < n := by
      simp only [String.toList_append, List.length_append, String.reduceToList,
        List.length_cons] at hn
      omega
    have htext : (s ++ " | " ++ t).toList ++ rest =
        s.toList ++ (" | ".toList ++ (t.toList ++ rest)) := by
      simp only [String.toList_append, List.append_assoc]
    rw [htext]
    exact TypeHint.read_more
      (Alternative.read_of_spelled ha hlength.1 _ (by rintro _ ⟨rfl⟩; decide))
      (TypeHint.read_of_spelled has hlength.2 rest hrest)

end

/-! ## What is read is a sentence -/

section Sound

variable {inner : List Char → Option (TypeHint × List Char)}

/-- All that `inner` reads are type hints. -/
def ReadsHints (inner : List Char → Option (TypeHint × List Char)) : Prop :=
  ∀ cs hint rest, inner cs = some (hint, rest) →
    ∃ s, TypeHint.Spelled Unmarked hint s ∧ cs = s.toList ++ rest

theorem Alternative.spelled_of_read_head (hinner : ReadsHints inner) {head : String}
    (hhead : ∀ c ∈ head.toList, isMark c = false) {inside rest : List Char} {a : Alternative}
    (h : Alternative.read inner (head.toList ++ '[' :: inside) = some (a, rest)) :
    ∃ s, Alternative.Spelled Unmarked a s ∧
      head.toList ++ '[' :: inside = s.toList ++ rest := by
  rw [Alternative.read_head hhead] at h
  obtain ⟨⟨first, behind⟩, hfirst, hmore⟩ := Option.bind_eq_some_iff.1 h
  obtain ⟨s, hs, rfl⟩ := hinner _ _ _ hfirst
  dsimp only at hmore
  split at hmore
  · next hlist =>
    obtain ⟨after, hclose, heq⟩ := Option.bind_eq_some_iff.1 hmore
    obtain rfl := skip_eq_some.1 hclose
    cases heq
    exact ⟨_, .list hs, by simp [hlist]⟩
  · split at hmore
    · next hdict =>
      obtain ⟨between, hcomma, hlast⟩ := Option.bind_eq_some_iff.1 hmore
      obtain rfl := skip_eq_some.1 hcomma
      obtain ⟨⟨second, behind⟩, hsecond, hend⟩ := Option.bind_eq_some_iff.1 hlast
      obtain ⟨t, ht, rfl⟩ := hinner _ _ _ hsecond
      obtain ⟨after, hclose, heq⟩ := Option.bind_eq_some_iff.1 hend
      obtain rfl := skip_eq_some.1 hclose
      cases heq
      exact ⟨_, .dictionary hs ht, by simp [hdict]⟩
    · cases hmore

theorem Alternative.spelled_of_read (hinner : ReadsHints inner) {cs rest : List Char}
    {a : Alternative} (h : Alternative.read inner cs = some (a, rest)) :
    ∃ s, Alternative.Spelled Unmarked a s ∧ cs = s.toList ++ rest := by
  obtain ⟨name, behind, hname, hbehind, rfl⟩ : ∃ (name : String) (behind : List Char),
      (∀ c ∈ name.toList, isMark c = false) ∧ (∀ c ∈ behind.head?, isMark c = true) ∧
        cs = name.toList ++ behind := by
    refine ⟨String.ofList (cs.takeWhile (!isMark ·)), cs.dropWhile (!isMark ·), ?_, ?_, ?_⟩
    · intro c hc
      rw [String.toList_ofList] at hc
      simpa using List.mem_takeWhile_imp hc
    · intro c hc
      have hnot := List.head?_dropWhile_not (!isMark ·) cs
      rw [Option.mem_def.1 hc] at hnot
      simpa using hnot
    · rw [String.toList_ofList, List.takeWhile_append_dropWhile]
  cases hskip : skip "[" behind with
  | some inside =>
    obtain rfl := skip_eq_some.1 hskip
    exact spelled_of_read_head hinner hname h
  | none =>
    obtain ⟨htake, hdrop⟩ := span_name hname hbehind
    simp only [Alternative.read, htake, hdrop, hskip, String.ofList_toList] at h
    split at h
    · cases h
    · next hne =>
      cases h
      exact ⟨name, .name ⟨hne, hname⟩, rfl⟩

theorem TypeHint.readsHints_read (n : Nat) : ReadsHints (TypeHint.read n) := by
  induction n with
  | zero =>
    intro cs hint rest h
    cases h
  | succ n ih =>
    intro cs hint rest h
    rw [TypeHint.read] at h
    obtain ⟨⟨a, behind⟩, ha, hmore⟩ := Option.bind_eq_some_iff.1 h
    obtain ⟨s, hs, rfl⟩ := Alternative.spelled_of_read ih ha
    dsimp only at hmore
    split at hmore
    · cases hmore
      exact ⟨s, .single hs, rfl⟩
    · next after hafter =>
      obtain rfl := skip_eq_some.1 hafter
      obtain ⟨⟨as, behind⟩, has, heq⟩ := Option.bind_eq_some_iff.1 hmore
      obtain ⟨t, ht, rfl⟩ := ih _ _ _ has
      cases heq
      exact ⟨_, .more hs ht, by simp⟩

end Sound

/-- `parse?` reads just the sentences, and each as the hint that it spells. -/
theorem TypeHint.parse?_eq_some {s : String} {hint : TypeHint} :
    TypeHint.parse? s = some hint ↔ TypeHint.Spelled Unmarked hint s := by
  constructor
  · intro h
    rw [TypeHint.parse?] at h
    split at h
    · next hread =>
      cases h
      obtain ⟨t, ht, hst⟩ := TypeHint.readsHints_read _ _ _ _ hread
      rw [List.append_nil, String.toList_inj] at hst
      rwa [hst]
    · cases h
  · intro h
    have hread := TypeHint.read_of_spelled h (Nat.lt_succ_self _) [] (by rintro _ ⟨⟩)
    rw [List.append_nil] at hread
    rw [TypeHint.parse?, hread]

/-- No text spells two type hints. -/
theorem TypeHint.Spelled.unique {Name : String → Prop} (hName : ∀ s, Name s → Unmarked s)
    {s : String} {hint other : TypeHint} (h : TypeHint.Spelled Name hint s)
    (hother : TypeHint.Spelled Name other s) : hint = other := by
  have hread := TypeHint.parse?_eq_some.2 (h.mono hName)
  rw [TypeHint.parse?_eq_some.2 (hother.mono hName)] at hread
  exact (Option.some.inj hread).symm

end CollectionSchema
