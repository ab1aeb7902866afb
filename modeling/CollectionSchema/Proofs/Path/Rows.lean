import CollectionSchema.Path
import CollectionSchema.Proofs.Text.Cuts

/-!
# Rows of segments

The segments of a path stand in a row in which even positions name collections and odd positions
stand for documents. `Segment.StandsAt` says which segment may stand where, and `Row` says it of
a whole row. `Path.WellFormed` adds that the segments, with `/` between them, are the text of the
path, and `Path.validate_eq_ok` shows that validation finds exactly the well-formed path of a text.
-/

namespace CollectionSchema

open Text

/-! ## Rows -/

def Segment.chars (s : Segment) : List Char :=
  s.value.toList

/-- Whether a segment may stand at a position: no segment is empty, `*` names no collection, and
the wildcards are the segments `*` that stand for documents. -/
structure Segment.StandsAt (s : Segment) (position : Nat) : Prop where
  ne_empty : s.value ≠ ""
  ne_star : position % 2 = 0 → s.value ≠ "*"
  wildcard_iff : s.kind = .wildcard ↔ position % 2 = 1 ∧ s.value = "*"

/-- A row of segments of which the first stands at a position. -/
def Row : Nat → List Segment → Prop
  | _, [] => True
  | i, s :: ss => s.StandsAt i ∧ Row (i + 1) ss

/-- The characters of a row, with `/` between the segments. -/
def rowChars (ss : List Segment) : List Char :=
  joinWith ['/'] (ss.map Segment.chars)

theorem row_append {i : Nat} {ss ts : List Segment} :
    Row i (ss ++ ts) ↔ Row i ss ∧ Row (i + ss.length) ts := by
  induction ss generalizing i with
  | nil => simp [Row]
  | cons s ss ih =>
    rw [List.cons_append, Row, Row, ih, and_assoc, List.length_cons, Nat.add_assoc,
      Nat.add_comm 1]

theorem row_iff {i : Nat} {ss : List Segment} :
    Row i ss ↔ ∀ (j : Nat) (s : Segment), ss[j]? = some s → s.StandsAt (i + j) := by
  induction ss generalizing i with
  | nil => simp [Row]
  | cons s ss ih =>
    rw [Row, ih]
    constructor
    · rintro ⟨hs, h⟩ (_ | j) t ht
      · cases ht
        exact hs
      · have := h j t ht
        rwa [Nat.add_assoc, Nat.add_comm 1] at this
    · intro h
      refine ⟨h 0 s rfl, fun j t ht => ?_⟩
      have := h (j + 1) t ht
      rwa [Nat.add_comm j, ← Nat.add_assoc] at this

theorem Row.wildcard_iff {i : Nat} {ss : List Segment} (h : Row i ss) {s : Segment}
    (hs : s ∈ ss) : s.kind = .wildcard ↔ s.value = "*" := by
  obtain ⟨j, hj⟩ := List.mem_iff_getElem?.1 hs
  have hat := row_iff.1 h j s hj
  rw [hat.wildcard_iff, and_iff_right_iff_imp]
  intro hstar
  rcases Nat.mod_two_eq_zero_or_one (i + j) with heven | hodd
  · exact absurd hstar (hat.ne_star heven)
  · exact hodd

theorem Row.ne_empty {i : Nat} {ss : List Segment} (h : Row i ss) {s : Segment}
    (hs : s ∈ ss) : s.value ≠ "" := by
  obtain ⟨j, hj⟩ := List.mem_iff_getElem?.1 hs
  exact (row_iff.1 h j s hj).ne_empty

theorem toList_eq_star_iff {s : String} : s.toList = ['*'] ↔ s = "*" := by
  rw [← String.toList_inj]
  rfl

/-! ## Validation -/

theorem Segment.kind_eq_literal {s : Segment} : s.kind = .literal ↔ ¬s.kind = .wildcard := by
  cases s.kind <;> simp

theorem Except.map_eq_ok {ε α β : Type} {x : Except ε α} {f : α → β} {b : β} :
    x.map f = .ok b ↔ ∃ a, x = .ok a ∧ f a = b := by
  cases x <;> simp [Except.map]

namespace Path

/-- A part that names a collection is the literal segment of its row. -/
theorem standsAt_name_iff {i : Nat} (hi : i % 2 = 0) {s : Segment} {part : List Char} :
    s.chars = part ∧ s.StandsAt i ↔ s = ⟨.ofList part, .literal⟩ ∧ part ≠ [] ∧ part ≠ ['*'] := by
  constructor
  · rintro ⟨rfl, h⟩
    have hkind : s.kind = .literal := by
      rw [Segment.kind_eq_literal, h.wildcard_iff]
      omega
    refine ⟨?_, fun e => h.ne_empty (String.toList_eq_nil_iff.1 e),
      fun e => h.ne_star hi (toList_eq_star_iff.1 e)⟩
    rw [Segment.chars, String.ofList_toList, ← hkind]
  · rintro ⟨rfl, hne, hstar⟩
    rw [← String.toList_ofList (l := part)] at hne hstar
    refine ⟨String.toList_ofList, fun e => hne (String.toList_eq_nil_iff.2 e),
      fun _ e => hstar (toList_eq_star_iff.2 e), ?_⟩
    simp only [reduceCtorEq, false_iff]
    omega

/-- A part that stands for a document is the segment that validation makes of it. -/
theorem standsAt_document_iff {i : Nat} (hi : i % 2 = 1) {s : Segment} {part : List Char} :
    s.chars = part ∧ s.StandsAt i ↔ s = documentSegment part ∧ part ≠ [] := by
  constructor
  · rintro ⟨rfl, h⟩
    refine ⟨?_, fun e => h.ne_empty (String.toList_eq_nil_iff.1 e)⟩
    obtain ⟨value, kind⟩ := s
    simp only [documentSegment, Segment.chars, String.ofList_toList, toList_eq_star_iff,
      Segment.mk.injEq, true_and]
    have hkind : kind = .wildcard ↔ value = "*" := by
      simpa [hi] using h.wildcard_iff
    split
    · next hstar => exact hkind.2 hstar
    · next hstar =>
      cases kind with
      | literal => rfl
      | wildcard => exact absurd (hkind.1 rfl) hstar
  · rintro ⟨rfl, hne⟩
    rw [← String.toList_ofList (l := part)] at hne
    refine ⟨String.toList_ofList, fun e => hne (String.toList_eq_nil_iff.2 e), fun e => ?_, ?_⟩
    · omega
    · by_cases hstar : part = ['*']
      · simp [documentSegment, hstar, hi]
      · have : String.ofList part ≠ "*" := by
          rw [ne_eq, ← toList_eq_star_iff, String.toList_ofList]
          exact hstar
        simp [documentSegment, hstar, this]

theorem map_chars_cons_and_row {i : Nat} {s : Segment} {ts : List Segment} {part : List Char}
    {parts : List (List Char)} :
    (s :: ts).map Segment.chars = part :: parts ∧ Row i (s :: ts) ↔
      (s.chars = part ∧ s.StandsAt i) ∧ ts.map Segment.chars = parts ∧ Row (i + 1) ts := by
  rw [List.map_cons, List.cons.injEq, Row, and_and_and_comm]

theorem collectionSegments_cons_eq_ok {part : List Char} {parts : List (List Char)}
    {ss : List Segment} : collectionSegments (part :: parts) = .ok ss ↔
      part ≠ [] ∧ part ≠ ['*'] ∧
        ∃ ts, documentSegments parts = .ok ts ∧ ⟨.ofList part, .literal⟩ :: ts = ss := by
  rw [collectionSegments]
  by_cases hne : part = []
  · simp [hne]
  · by_cases hstar : part = ['*']
    · simp [hstar]
    · simp [hne, hstar, Except.map_eq_ok]

theorem documentSegments_cons_eq_ok {part : List Char} {parts : List (List Char)}
    {ss : List Segment} : documentSegments (part :: parts) = .ok ss ↔
      part ≠ [] ∧ ∃ ts, collectionSegments parts = .ok ts ∧ documentSegment part :: ts = ss := by
  rw [documentSegments]
  by_cases hne : part = []
  · simp [hne]
  · simp [hne, Except.map_eq_ok]

/-- The segments that are found for some parts are the row that consists of these parts. The
first part names a collection or stands for a document, as its position says. -/
theorem segments_eq_ok (parts : List (List Char)) (i : Nat) (ss : List Segment) :
    (i % 2 = 0 → (collectionSegments parts = .ok ss ↔
      ss.map Segment.chars = parts ∧ Row i ss)) ∧
    (i % 2 = 1 → (documentSegments parts = .ok ss ↔
      ss.map Segment.chars = parts ∧ Row i ss)) := by
  induction parts generalizing i ss with
  | nil =>
    constructor <;> intro _
    · rw [collectionSegments]
      cases ss <;> simp [Row]
    · rw [documentSegments]
      cases ss <;> simp [Row]
  | cons part parts ih =>
    have hnil : ¬(([] : List Segment).map Segment.chars = part :: parts ∧ Row i []) :=
      fun h => List.cons_ne_nil part parts h.1.symm
    constructor <;> intro hi
    · have hrest := fun ts => (ih (i + 1) ts).2 (by omega)
      rw [collectionSegments_cons_eq_ok]
      constructor
      · rintro ⟨hne, hstar, ts, hts, rfl⟩
        have hs := (standsAt_name_iff hi).2 ⟨rfl, hne, hstar⟩
        exact map_chars_cons_and_row.2 ⟨hs, (hrest ts).1 hts⟩
      · cases ss with
        | nil => exact fun h => absurd h hnil
        | cons s ts =>
          intro h
          obtain ⟨hs, hts⟩ := map_chars_cons_and_row.1 h
          obtain ⟨rfl, hne, hstar⟩ := (standsAt_name_iff hi).1 hs
          exact ⟨hne, hstar, ts, (hrest ts).2 hts, rfl⟩
    · have hrest := fun ts => (ih (i + 1) ts).1 (by omega)
      rw [documentSegments_cons_eq_ok]
      constructor
      · rintro ⟨hne, ts, hts, rfl⟩
        exact map_chars_cons_and_row.2 ⟨(standsAt_document_iff hi).2 ⟨rfl, hne⟩, (hrest ts).1 hts⟩
      · cases ss with
        | nil => exact fun h => absurd h hnil
        | cons s ts =>
          intro h
          obtain ⟨hs, hts⟩ := map_chars_cons_and_row.1 h
          obtain ⟨rfl, hne⟩ := (standsAt_document_iff hi).1 hs
          exact ⟨hne, ts, (hrest ts).2 hts, rfl⟩

/-- A path that validation can find: a row of segments, odd in number, that are joined to the text
and made of the other characters of paths. -/
structure WellFormed (p : Path) : Prop where
  raw_eq : p.raw.toList = rowChars p.segments
  isPathChar : ∀ s ∈ p.segments, ∀ c ∈ s.chars, isPathChar c = true ∧ c ≠ '/'
  row : Row 0 p.segments
  odd : p.segments.length % 2 = 1

theorem WellFormed.segments_ne_nil {p : Path} (h : p.WellFormed) : p.segments ≠ [] := by
  intro e
  have := h.odd
  rw [e] at this
  cases this

theorem WellFormed.exists_last? {p : Path} (h : p.WellFormed) : ∃ last, p.last? = some last := by
  rw [← Option.isSome_iff_exists, last?, Option.isSome_map, List.getLast?_isSome]
  exact h.segments_ne_nil

theorem WellFormed.not_mem_chars {p : Path} (h : p.WellFormed) :
    ∀ part ∈ p.segments.map Segment.chars, '/' ∉ part := by
  intro part hpart hmem
  obtain ⟨s, hs, rfl⟩ := List.mem_map.1 hpart
  exact (h.isPathChar s hs '/' hmem).2 rfl

theorem WellFormed.pieces_raw {p : Path} (h : p.WellFormed) :
    pieces (· == '/') p.raw.toList = p.segments.map Segment.chars := by
  rw [h.raw_eq]
  exact pieces_joinWith (by simpa using h.segments_ne_nil) h.not_mem_chars

theorem WellFormed.raw_ne_nil {p : Path} (h : p.WellFormed) : p.raw.toList ≠ [] := by
  intro e
  have hp := h.pieces_raw
  rw [e, pieces] at hp
  obtain ⟨s, hs, hnil⟩ := List.mem_map.1 (hp ▸ List.mem_singleton.2 rfl)
  exact h.row.ne_empty hs (String.toList_eq_nil_iff.1 hnil)

theorem WellFormed.all_raw {p : Path} (h : p.WellFormed) : p.raw.toList.all Path.isPathChar := by
  rw [List.all_eq_true, h.raw_eq]
  intro c hc
  rcases mem_joinWith hc with rfl | ⟨part, hpart, hc⟩
  · rfl
  · obtain ⟨s, hs, rfl⟩ := List.mem_map.1 hpart
    exact (h.isPathChar s hs c hc).1

/-- Validation finds exactly the well-formed path of a text. -/
theorem validate_eq_ok {raw : String} {p : Path} :
    validate raw = .ok p ↔ p.raw = raw ∧ p.WellFormed := by
  have hsegments := (segments_eq_ok (pieces (· == '/') raw.toList) 0 p.segments).1 rfl
  constructor
  · intro h
    have hraw := raw_of_validate h
    simp only [validate] at h
    split at h
    · cases h
    · next hchars =>
      split at h
      · cases h
      · next hodd =>
        obtain ⟨ss, hss, rfl⟩ := Except.map_eq_ok.1 h
        obtain ⟨hparts, hrow⟩ := hsegments.1 hss
        simp only [Bool.or_eq_true, Bool.not_eq_true', not_or, Bool.not_eq_false,
          List.all_eq_true] at hchars
        refine ⟨rfl, ?_, ?_, hrow, ?_⟩
        · rw [rowChars, hparts, joinWith_pieces]
        · intro s hs c hc
          have hpart : s.chars ∈ pieces (· == '/') raw.toList :=
            hparts ▸ List.mem_map_of_mem hs
          refine ⟨hchars.2 c ?_, ?_⟩
          · rw [← joinWith_pieces '/' raw.toList]
            exact mem_joinWith_of_mem hpart hc
          · simpa using not_mem_of_mem_pieces hpart c hc
        · rw [← hparts, List.length_map] at hodd
          omega
  · rintro ⟨rfl, h⟩
    have hfound := hsegments.2 ⟨h.pieces_raw.symm, h.row⟩
    have hempty : p.raw.toList.isEmpty = false := by simpa using h.raw_ne_nil
    have hodd : ¬(pieces (· == '/') p.raw.toList).length % 2 = 0 := by
      rw [h.pieces_raw, List.length_map, h.odd]
      decide
    simp only [validate, hempty, h.all_raw, Bool.not_true, Bool.or_false, Bool.false_eq_true,
      if_false, if_neg hodd, hfound]
    rfl

/-- A text is that of one well-formed path only. -/
theorem WellFormed.eq_of_raw_eq {p q : Path} (hp : p.WellFormed) (hq : q.WellFormed)
    (h : p.raw = q.raw) : p = q :=
  Except.ok.inj ((validate_eq_ok.2 ⟨h, hp⟩).symm.trans (validate_eq_ok.2 ⟨rfl, hq⟩))

end Path

end CollectionSchema
