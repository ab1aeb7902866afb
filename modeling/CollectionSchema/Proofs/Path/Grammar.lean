import CollectionSchema.Proofs.Path.Rows
import Mathlib.Data.List.Basic

/-!
# The grammar of paths

`Path.Spells` is the grammar: an odd number of segments with `/` between them, none of them empty,
all made of the characters of segments, and no collection called `*`. Validation accepts exactly
the texts that segments spell, and what it finds is the text (`Path.Accepted`). A text that is
refused gets one diagnostic (`Path.Refused`): for its characters, or else for the number of its
segments, or else for the leftmost segment that offends. `Path.judged_of_validate` puts these
together.
-/

namespace CollectionSchema

open Text

theorem toList_intercalate_slash (ss : List String) :
    ("/".intercalate ss).toList = joinWith ['/'] (ss.map String.toList) :=
  toList_intercalate_singleton '/' ss

namespace Path

/-! ## Cuts -/

/-- A text is cut into segments at every `/`. -/
structure Cuts (raw : String) (ss : List String) : Prop where
  raw_eq : raw = "/".intercalate ss
  ne_nil : ss ≠ []
  not_mem : ∀ s ∈ ss, '/' ∉ s.toList

theorem cuts_iff {raw : String} {ss : List String} : Cuts raw ss ↔ CutAt '/' raw ss :=
  ⟨fun h => ⟨h.raw_eq, h.ne_nil, h.not_mem⟩, fun h => ⟨h.text_eq, h.ne_nil, h.not_mem⟩⟩

theorem Cuts.pieces_eq {raw : String} {ss : List String} (h : Cuts raw ss) :
    pieces (· == '/') raw.toList = ss.map String.toList :=
  (cuts_iff.1 h).pieces_eq

theorem exists_cuts (raw : String) : ∃ ss, Cuts raw ss :=
  (exists_cutAt '/' raw).imp fun _ => cuts_iff.2

/-- There is one segment more than there are `/`. -/
theorem Cuts.length_eq {raw : String} {ss : List String} (h : Cuts raw ss) :
    ss.length = raw.toList.count '/' + 1 := by
  have hlength := congrArg List.length h.pieces_eq
  rw [length_pieces, List.length_map] at hlength
  exact hlength.symm

theorem Cuts.unique {raw : String} {ss ts : List String} (hs : Cuts raw ss) (ht : Cuts raw ts) :
    ss = ts :=
  (cuts_iff.1 hs).unique (cuts_iff.1 ht)

/-! ## The grammar -/

/-- The characters that segments are made of: ASCII digits and letters, `*`, `_` and `-`. -/
def IsSegmentChar (c : Char) : Prop :=
  ('0' ≤ c ∧ c ≤ '9') ∨ ('a' ≤ c ∧ c ≤ 'z') ∨ ('A' ≤ c ∧ c ≤ 'Z') ∨ c = '*' ∨ c = '_' ∨ c = '-'

/-- A text without characters, or with one that no path has. -/
def Illegal (raw : String) : Prop :=
  raw = "" ∨ ∃ c ∈ raw.toList, ¬(IsSegmentChar c ∨ c = '/')

/-- A segment that may not stand at a position: an empty one, or `*` as the name of a
collection. -/
def Offends (j : Nat) (s : String) : Prop :=
  s = "" ∨ j % 2 = 0 ∧ s = "*"

/-- Segments that make a path: `s₀/s₁/…/s₂ₙ`. -/
structure Spells (ss : List String) (raw : String) : Prop where
  raw_eq : raw = "/".intercalate ss
  odd : ss.length % 2 = 1
  ne_empty : ∀ s ∈ ss, s ≠ ""
  isSegmentChar : ∀ s ∈ ss, ∀ c ∈ s.toList, IsSegmentChar c
  /-- No collection is called `*`. -/
  ne_star : ∀ j, j % 2 = 0 → ss[j]? ≠ some "*"

/-- What is found for a text that is a path. -/
structure Accepted (raw : String) (p : Path) : Prop where
  raw_eq : p.raw = raw
  intercalate_eq : "/".intercalate (p.segments.map (·.value)) = raw
  wildcard_iff : ∀ s ∈ p.segments, s.kind = .wildcard ↔ s.value = "*"
  odd_of_wildcard : ∀ (j : Nat) (s : Segment), p.segments[j]? = some s → s.kind = .wildcard →
    j % 2 = 1
  head : ∃ s, p.segments.head? = some s ∧ s.kind = .literal
  last : ∃ s, p.segments.getLast? = some s ∧ s.kind = .literal

/-- `s` is the leftmost of some segments that offends; the first of them stands at a position. -/
def OffendsFirst (i : Nat) (ss : List String) (s : String) : Prop :=
  ∃ j, ss[j]? = some s ∧ Offends (i + j) s ∧
    ∀ (k : Nat) (t : String), k < j → ss[k]? = some t → ¬Offends (i + k) t

/-- `s` is the leftmost segment of a text that offends. -/
def FirstOffender (raw s : String) : Prop :=
  ∃ ss, Cuts raw ss ∧ OffendsFirst 0 ss s

/-- The message on a text that is refused. -/
def refusal (raw complaint : String) : String :=
  "Received \"" ++ raw ++ "\" as collection path, " ++ complaint

/-- The diagnostic of a text that is no path. -/
structure Refused (raw element : String) (d : Diagnostic) : Prop where
  family : d.family = .path
  element_eq : d.element = element
  illegalCharacter_iff : d.code = .illegalCharacter ↔ Illegal raw
  pointsToDocument_iff : d.code = .pointsToDocument ↔
    ¬Illegal raw ∧ raw.toList.count '/' % 2 = 1
  invalidCollectionName_iff : d.code = .invalidCollectionName ↔
    ¬Illegal raw ∧ raw.toList.count '/' % 2 = 0
  /-- A name is refused for the leftmost segment that offends. -/
  offender : d.code = .invalidCollectionName →
    (d.message = refusal raw "but it contains an empty segment." ∧ FirstOffender raw "") ∨
      (d.message = refusal raw "but * is not a valid collection name." ∧ FirstOffender raw "*")

theorem isAlphanum_iff {c : Char} : c.isAlphanum = true ↔
    ('0' ≤ c ∧ c ≤ '9') ∨ ('a' ≤ c ∧ c ≤ 'z') ∨ ('A' ≤ c ∧ c ≤ 'Z') := by
  have hdigit : c.isDigit = true ↔ '0' ≤ c ∧ c ≤ '9' := by
    change (decide (48 ≤ c.val) && decide (c.val ≤ 57)) = true ↔ 48 ≤ c.val ∧ c.val ≤ 57
    simp
  have hletter : c.isAlpha = true ↔ ('a' ≤ c ∧ c ≤ 'z') ∨ ('A' ≤ c ∧ c ≤ 'Z') := by
    change (decide (65 ≤ c.val ∧ c.val ≤ 90) || decide (97 ≤ c.val) && decide (c.val ≤ 122)) =
      true ↔ 97 ≤ c.val ∧ c.val ≤ 122 ∨ 65 ≤ c.val ∧ c.val ≤ 90
    simp [or_comm]
  rw [Char.isAlphanum, Bool.or_eq_true, hletter, hdigit, or_comm]

theorem isPathChar_iff {c : Char} : isPathChar c = true ↔ IsSegmentChar c ∨ c = '/' := by
  simp only [isPathChar, IsSegmentChar, Bool.or_eq_true, isAlphanum_iff, beq_iff_eq, or_assoc,
    or_comm, or_left_comm]

theorem illegal_iff {raw : String} :
    (raw.toList.isEmpty || !raw.toList.all isPathChar) = true ↔ Illegal raw := by
  rw [Bool.or_eq_true, List.isEmpty_iff, String.toList_eq_nil_iff, Bool.not_eq_true',
    ← Bool.not_eq_true, List.all_eq_true, Illegal]
  simp only [isPathChar_iff, not_forall, exists_prop]

theorem not_isSegmentChar_slash : ¬IsSegmentChar '/' := by
  unfold IsSegmentChar
  decide

theorem Spells.cuts {ss : List String} {raw : String} (h : Spells ss raw) : Cuts raw ss := by
  refine ⟨h.raw_eq, ?_, fun s hs hslash => not_isSegmentChar_slash (h.isSegmentChar s hs _ hslash)⟩
  rintro rfl
  cases h.odd

/-! ## Faults of segments -/

theorem offendsFirst_cons {i : Nat} {s t : String} {ss : List String} :
    OffendsFirst i (t :: ss) s ↔
      t = s ∧ Offends i s ∨ ¬Offends i t ∧ OffendsFirst (i + 1) ss s := by
  constructor
  · rintro ⟨_ | j, hs, hoffends, hbefore⟩
    · cases hs
      exact .inl ⟨rfl, hoffends⟩
    · refine .inr ⟨hbefore 0 t (Nat.succ_pos j) rfl, j, hs, ?_, fun k u hk hu => ?_⟩
      · rwa [Nat.add_right_comm, Nat.add_assoc]
      · have := hbefore (k + 1) u (by omega) hu
        rwa [Nat.add_right_comm, Nat.add_assoc]
  · rintro (⟨rfl, hoffends⟩ | ⟨hnot, j, hs, hoffends, hbefore⟩)
    · exact ⟨0, rfl, hoffends, fun k _ hk => absurd hk (Nat.not_lt_zero k)⟩
    · refine ⟨j + 1, hs, by rwa [← Nat.add_assoc, Nat.add_right_comm], ?_⟩
      rintro (_ | k) u hk hu
      · cases hu
        exact hnot
      · have := hbefore k u (by omega) hu
        rwa [← Nat.add_assoc, Nat.add_right_comm]

theorem offends_empty (i : Nat) : Offends i "" :=
  .inl rfl

theorem offends_star {i : Nat} : Offends i "*" ↔ i % 2 = 0 := by
  simp [Offends]

theorem collectionSegments_cons_eq_error {i : Nat} (hi : i % 2 = 0) {s : String}
    {parts : List (List Char)} {f : Fault} : collectionSegments (s.toList :: parts) = .error f ↔
      f = .emptySegment ∧ s = "" ∨ f = .wildcardName ∧ s = "*" ∨
        ¬Offends i s ∧ documentSegments parts = .error f := by
  simp only [collectionSegments, List.isEmpty_iff, String.toList_eq_nil_iff, toList_eq_star_iff,
    Offends, hi, true_and]
  by_cases hne : s = ""
  · simp [hne, eq_comm (a := f)]
  · by_cases hstar : s = "*"
    · simp [hstar, eq_comm (a := f)]
    · cases documentSegments parts <;> simp [hne, hstar, Except.map]

theorem documentSegments_cons_eq_error {i : Nat} (hi : i % 2 = 1) {s : String}
    {parts : List (List Char)} {f : Fault} : documentSegments (s.toList :: parts) = .error f ↔
      f = .emptySegment ∧ s = "" ∨ ¬Offends i s ∧ collectionSegments parts = .error f := by
  simp only [documentSegments, List.isEmpty_iff, String.toList_eq_nil_iff, Offends, hi]
  by_cases hne : s = ""
  · simp [hne, eq_comm (a := f)]
  · cases collectionSegments parts <;> simp [hne, Except.map]

/-- The fault that is found for some segments is that of the leftmost one that offends. The first
one names a collection or stands for a document, as its position says. -/
theorem segments_eq_error (ss : List String) (i : Nat) (f : Fault) :
    (i % 2 = 0 → (collectionSegments (ss.map String.toList) = .error f ↔
      f = .emptySegment ∧ OffendsFirst i ss "" ∨ f = .wildcardName ∧ OffendsFirst i ss "*")) ∧
    (i % 2 = 1 → (documentSegments (ss.map String.toList) = .error f ↔
      f = .emptySegment ∧ OffendsFirst i ss "" ∨ f = .wildcardName ∧ OffendsFirst i ss "*")) := by
  -- Each step changes the parity, so that both readings are followed at once.
  induction ss generalizing i with
  | nil => simp [collectionSegments, documentSegments, OffendsFirst]
  | cons s ss ih =>
    simp only [List.map_cons, offendsFirst_cons, offends_empty, offends_star]
    constructor <;> intro hi
    · rw [collectionSegments_cons_eq_error hi, (ih (i + 1)).2 (by omega)]
      grind
    · rw [documentSegments_cons_eq_error hi, (ih (i + 1)).1 (by omega)]
      grind

/-- The segments of a text are refused for the leftmost one that offends. -/
theorem segments_pieces_eq_error {raw : String} {f : Fault} :
    collectionSegments (pieces (· == '/') raw.toList) = .error f ↔
      f = .emptySegment ∧ FirstOffender raw "" ∨ f = .wildcardName ∧ FirstOffender raw "*" := by
  obtain ⟨ss, hss⟩ := exists_cuts raw
  have hfirst : ∀ s, FirstOffender raw s ↔ OffendsFirst 0 ss s := by
    intro s
    constructor
    · rintro ⟨ts, hts, h⟩
      rwa [hss.unique hts]
    · exact fun h => ⟨ss, hss, h⟩
  rw [hss.pieces_eq, (segments_eq_error ss 0 f).1 rfl, hfirst, hfirst]

/-! ## The outcome of validation -/

/-- A text is refused for its characters, or else for the number of its segments, or else for the
leftmost segment that offends. -/
theorem validate_eq_error {raw : String} {f : Fault} : validate raw = .error f ↔
    Illegal raw ∧ f = .illegalCharacter ∨
      ¬Illegal raw ∧ raw.toList.count '/' % 2 = 1 ∧ f = .pointsToDocument ∨
      ¬Illegal raw ∧ raw.toList.count '/' % 2 = 0 ∧
        (f = .emptySegment ∧ FirstOffender raw "" ∨ f = .wildcardName ∧ FirstOffender raw "*") := by
  have hcount : (pieces (· == '/') raw.toList).length = raw.toList.count '/' + 1 :=
    length_pieces _ _
  rw [validate, ← segments_pieces_eq_error, ← illegal_iff]
  simp only [hcount]
  split
  · next hillegal => simp [hillegal, eq_comm]
  · next hlegal =>
    split
    · next heven =>
      have hodd : raw.toList.count '/' % 2 = 1 := by omega
      simp [hlegal, hodd, eq_comm]
    · next hodd =>
      have heven : raw.toList.count '/' % 2 = 0 := by omega
      cases collectionSegments (pieces (· == '/') raw.toList) <;>
        simp [hlegal, heven, Except.map]

/-- A well-formed path is spelled by its segments. -/
theorem WellFormed.spells {p : Path} (h : p.WellFormed) :
    Spells (p.segments.map (·.value)) p.raw := by
  constructor
  case raw_eq =>
    rw [← String.toList_inj, toList_intercalate_slash, h.raw_eq, List.map_map]
    rfl
  case odd => rw [List.length_map, h.odd]
  case ne_empty =>
    intro s hs
    obtain ⟨segment, hmem, rfl⟩ := List.mem_map.1 hs
    exact h.row.ne_empty hmem
  case isSegmentChar =>
    intro s hs c hc
    obtain ⟨segment, hmem, rfl⟩ := List.mem_map.1 hs
    obtain ⟨hchar, hslash⟩ := h.isPathChar segment hmem c hc
    exact (isPathChar_iff.1 hchar).resolve_right hslash
  case ne_star =>
    intro j hj hstar
    rw [List.getElem?_map, Option.map_eq_some_iff] at hstar
    obtain ⟨segment, hsegment, hvalue⟩ := hstar
    exact (row_iff.1 h.row j segment hsegment).ne_star (by omega) hvalue

/-- No text that segments spell is refused. -/
theorem Spells.validate_ne_error {ss : List String} {raw : String} (h : Spells ss raw) (f : Fault) :
    validate raw ≠ .error f := by
  have hlegal : ¬Illegal raw := by
    rintro (hempty | ⟨c, hc, hnot⟩)
    -- The empty text is cut into one segment, which is empty too.
    · have hlength := h.cuts.length_eq
      rw [hempty] at hlength
      obtain ⟨s, rfl⟩ := List.length_eq_one_iff.1 hlength
      have hraw := h.raw_eq
      rw [String.intercalate_singleton, hempty] at hraw
      exact h.ne_empty s List.mem_cons_self hraw.symm
    · rw [h.raw_eq, toList_intercalate_slash] at hc
      rcases mem_joinWith hc with rfl | ⟨part, hpart, hmem⟩
      · exact hnot (.inr rfl)
      · obtain ⟨s, hs, rfl⟩ := List.mem_map.1 hpart
        exact hnot (.inl (h.isSegmentChar s hs c hmem))
  have heven : raw.toList.count '/' % 2 = 0 := by
    have hlength := h.cuts.length_eq
    have hodd := h.odd
    omega
  have hoffender : ∀ s, ¬FirstOffender raw s := by
    rintro s ⟨ts, hts, j, hj, hoffends, -⟩
    rw [hts.unique h.cuts] at hj
    rcases hoffends with rfl | ⟨heven, rfl⟩
    · exact h.ne_empty "" (List.mem_of_getElem? hj) rfl
    · exact h.ne_star j (by omega) hj
  rw [ne_eq, validate_eq_error]
  simp [hlegal, heven, hoffender]

/-- Validation accepts exactly the texts that segments spell. -/
theorem exists_validate_eq_ok {raw : String} :
    (∃ p, validate raw = .ok p) ↔ ∃ ss, Spells ss raw := by
  constructor
  · rintro ⟨p, hp⟩
    obtain ⟨rfl, h⟩ := validate_eq_ok.1 hp
    exact ⟨_, h.spells⟩
  · rintro ⟨ss, h⟩
    cases hp : validate raw with
    | ok p => exact ⟨p, rfl⟩
    | error f => exact absurd hp (h.validate_ne_error f)

theorem WellFormed.accepted {p : Path} (h : p.WellFormed) : Accepted p.raw p := by
  have hliteral : ∀ (j : Nat) (s : Segment), j % 2 = 0 → p.segments[j]? = some s →
      s.kind = .literal := by
    intro j s hj hs
    rw [Segment.kind_eq_literal, (row_iff.1 h.row j s hs).wildcard_iff]
    omega
  constructor
  case raw_eq => rfl
  case intercalate_eq => exact h.spells.raw_eq.symm
  case wildcard_iff => exact fun s hs => h.row.wildcard_iff hs
  case odd_of_wildcard =>
    intro j s hs hwild
    have := ((row_iff.1 h.row j s hs).wildcard_iff.1 hwild).1
    omega
  case head =>
    obtain ⟨s, hs⟩ := Option.isSome_iff_exists.1 (List.isSome_head?.2 h.segments_ne_nil)
    exact ⟨s, hs, hliteral 0 s rfl (by rwa [← List.head?_eq_getElem?])⟩
  case last =>
    obtain ⟨s, hs⟩ := Option.isSome_iff_exists.1 (List.getLast?_isSome.2 h.segments_ne_nil)
    refine ⟨s, hs, hliteral (p.segments.length - 1) s ?_ (by rwa [← List.getLast?_eq_getElem?])⟩
    have := h.odd
    omega

theorem refused_of_validate {raw element : String} {f : Fault} (h : validate raw = .error f) :
    Refused raw element (f.diagnostic raw element) := by
  rcases validate_eq_error.1 h with ⟨hillegal, rfl⟩ | ⟨hlegal, hodd, rfl⟩ |
    ⟨hlegal, heven, ⟨rfl, hfirst⟩ | ⟨rfl, hfirst⟩⟩
  · refine ⟨rfl, rfl, ?_, ?_, ?_, fun hcode => nomatch hcode⟩ <;>
      simp [Fault.diagnostic, Fault.code, hillegal]
  · refine ⟨rfl, rfl, ?_, ?_, ?_, fun hcode => nomatch hcode⟩ <;>
      simp [Fault.diagnostic, Fault.code, hlegal, hodd]
  · refine ⟨rfl, rfl, ?_, ?_, ?_, fun _ => .inl ⟨rfl, hfirst⟩⟩ <;>
      simp [Fault.diagnostic, Fault.code, hlegal, heven]
  · refine ⟨rfl, rfl, ?_, ?_, ?_, fun _ => .inr ⟨rfl, hfirst⟩⟩ <;>
      simp [Fault.diagnostic, Fault.code, hlegal, heven]

/-- A text is accepted just when segments spell it; what is found is the text, and a text that is
refused gets the diagnostic that it deserves. -/
theorem judged_of_validate (raw : String) :
    ((∃ p, validate raw = .ok p) ↔ ∃ ss, Spells ss raw) ∧
      (∀ p, validate raw = .ok p → Accepted raw p) ∧
      ∀ f element, validate raw = .error f → Refused raw element (f.diagnostic raw element) := by
  refine ⟨exists_validate_eq_ok, ?_, fun f element => refused_of_validate⟩
  intro p hp
  obtain ⟨rfl, h⟩ := validate_eq_ok.1 hp
  exact h.accepted

example : validate "*/b//c/d" = .error .wildcardName := by decide

example : validate "a//*" = .error .emptySegment := by decide

end Path

end CollectionSchema
