import CollectionSchema.Proofs.Path.Rows

/-!
# The owner of a path

The parent of a path is found by a search for the last `/*/` of its text. For a validated path this
agrees with the segments: `Path.WellFormed.parent?_eq` shows that the search finds the text of the
segments in front of the last wildcard. `Path.OwnedBy` is the cut at that wildcard; what stands in
front of it is a validated path again (`Path.WellFormed.ownedBy`), and it has one wildcard less
(`Path.OwnedBy.depth`).
-/

namespace CollectionSchema

open Text

/-- The segments in front of the last wildcard, if there is one. -/
def beforeWildcard? : List Segment → Option (List Segment)
  | [] => none
  | s :: ss =>
    match beforeWildcard? ss with
    | some before => some (s :: before)
    | none => if s.kind = .wildcard then some [] else none

theorem beforeWildcard?_eq_none {ss : List Segment} :
    beforeWildcard? ss = none ↔ ∀ s ∈ ss, s.kind ≠ .wildcard := by
  induction ss with
  | nil => simp [beforeWildcard?]
  | cons s ss ih =>
    rw [beforeWildcard?, List.forall_mem_cons]
    cases h : beforeWildcard? ss with
    | none =>
      rw [h] at ih
      simpa using fun _ => ih.1 rfl
    | some before =>
      rw [h] at ih
      simpa using fun _ => ih

/-- The segments in front of the last wildcard, that wildcard, and the segments behind it make the
row. -/
theorem eq_append_of_beforeWildcard? {ss before : List Segment}
    (h : beforeWildcard? ss = some before) :
    ∃ w rest, ss = before ++ w :: rest ∧ w.kind = .wildcard ∧ ∀ s ∈ rest, s.kind ≠ .wildcard := by
  induction ss generalizing before with
  | nil => cases h
  | cons s ss ih =>
    rw [beforeWildcard?] at h
    split at h
    · next before' hbefore =>
      cases h
      obtain ⟨w, rest, rfl, hw, hrest⟩ := ih hbefore
      exact ⟨w, rest, rfl, hw, hrest⟩
    · next hnone =>
      split at h
      · next hs =>
        cases h
        exact ⟨s, ss, rfl, hs, beforeWildcard?_eq_none.1 hnone⟩
      · cases h

/-! ## The search in the text -/

/-- The characters of a row with `/` in front of each segment. -/
def slashedChars (ss : List Segment) : List Char :=
  ss.flatMap fun s => '/' :: s.chars

theorem rowChars_cons (s : Segment) (ss : List Segment) :
    rowChars (s :: ss) = s.chars ++ slashedChars ss := by
  induction ss generalizing s with
  | nil => simp [rowChars, joinWith, slashedChars]
  | cons t ss ih =>
    have hrest : joinWith ['/'] (t.chars :: ss.map Segment.chars) = rowChars (t :: ss) := rfl
    rw [rowChars, List.map_cons, List.map_cons, joinWith, hrest, ih]
    simp [slashedChars]

theorem rowChars_append_cons {ss : List Segment} (hne : ss ≠ []) (t : Segment)
    (ts : List Segment) : rowChars (ss ++ t :: ts) = rowChars ss ++ '/' :: rowChars (t :: ts) := by
  cases ss with
  | nil => exact absurd rfl hne
  | cons s ss => simp [rowChars_cons, slashedChars]

theorem beforeLastWildcard?_append {part : List Char} (cs : List Char) (h : '/' ∉ part) :
    beforeLastWildcard? (part ++ cs) = (beforeLastWildcard? cs).map (part ++ ·) := by
  induction part with
  | nil => simp
  | cons c part ih =>
    rw [List.mem_cons, not_or] at h
    rw [List.cons_append, beforeLastWildcard?, ih h.2]
    cases beforeLastWildcard? cs with
    | none => simp [List.isPrefixOf, h.1]
    | some before => simp

/-- A segment is met by `/*/` if it is `*` and not the last one. -/
theorem isPrefixOf_slashedChars {s : Segment} {ss : List Segment} (hs : '/' ∉ s.chars) :
    ['/', '*', '/'].isPrefixOf ('/' :: (s.chars ++ slashedChars ss)) = true ↔
      s.value = "*" ∧ ss ≠ [] := by
  rw [← toList_eq_star_iff]
  change _ ↔ s.chars = ['*'] ∧ _
  cases hchars : s.chars with
  | nil => cases ss <;> simp [slashedChars, List.isPrefixOf]
  | cons c cs =>
    cases cs with
    | nil => cases ss <;> simp [slashedChars, List.isPrefixOf, eq_comm (a := '*')]
    | cons d cs =>
      have hd : '/' ≠ d := by
        rintro rfl
        simp [hchars] at hs
      simp [List.isPrefixOf, hd]

/-- The search finds what stands in front of the last wildcard of a row that does not end with
one. -/
theorem beforeLastWildcard?_slashedChars {i : Nat} {ss : List Segment} (hrow : Row i ss)
    (hslash : ∀ s ∈ ss, '/' ∉ s.chars) (hlast : ∀ s, ss.getLast? = some s → s.kind ≠ .wildcard) :
    beforeLastWildcard? (slashedChars ss) = (beforeWildcard? ss).map slashedChars := by
  induction ss generalizing i with
  | nil => rfl
  | cons s ss ih =>
    have hs : '/' ∉ s.chars := hslash s List.mem_cons_self
    have hrest : beforeLastWildcard? (slashedChars ss) = (beforeWildcard? ss).map slashedChars := by
      refine ih hrow.2 (fun t ht => hslash t (List.mem_cons_of_mem s ht)) fun t ht => ?_
      refine hlast t ?_
      cases ss with
      | nil => cases ht
      | cons u ss => simpa using ht
    have hstar : (s.value = "*" ∧ ss ≠ []) ↔ s.kind = .wildcard := by
      rw [hrow.wildcard_iff List.mem_cons_self, and_iff_left_iff_imp]
      rintro hstar rfl
      exact hlast s rfl ((hrow.wildcard_iff List.mem_cons_self).2 hstar)
    have hcons : slashedChars (s :: ss) = '/' :: (s.chars ++ slashedChars ss) := by
      simp [slashedChars]
    rw [hcons, beforeLastWildcard?, beforeLastWildcard?_append _ hs, hrest, beforeWildcard?]
    cases beforeWildcard? ss with
    | some before => simp [slashedChars]
    | none =>
      simp only [Option.map_none, isPrefixOf_slashedChars hs, hstar]
      split <;> rfl

namespace Path

theorem WellFormed.getLast_ne_wildcard {p : Path} (h : p.WellFormed) :
    ∀ s, p.segments.getLast? = some s → s.kind ≠ .wildcard := by
  intro s hs
  rw [List.getLast?_eq_getElem?] at hs
  have hat := row_iff.1 h.row _ s hs
  have hodd := h.odd
  rw [ne_eq, hat.wildcard_iff]
  omega

/-- The search for the parent finds the text of the segments in front of the last wildcard. -/
theorem WellFormed.parent?_eq {p : Path} (h : p.WellFormed) :
    p.parent? = (beforeWildcard? p.segments).map fun before => .ofList (rowChars before) := by
  have hslash : ∀ s ∈ p.segments, '/' ∉ s.chars :=
    fun s hs => h.not_mem_chars _ (List.mem_map_of_mem hs)
  have hlast := h.getLast_ne_wildcard
  have hrow := h.row
  rw [parent?, parentPathOf?, h.raw_eq]
  cases hss : p.segments with
  | nil => exact absurd hss h.segments_ne_nil
  | cons s ss =>
    rw [hss] at hslash hlast hrow
    have hs : ¬s.kind = .wildcard := by
      rw [hrow.1.wildcard_iff]
      omega
    have hrest := beforeLastWildcard?_slashedChars hrow.2
      (fun t ht => hslash t (List.mem_cons_of_mem s ht)) fun t ht => hlast t (by
        cases ss with
        | nil => cases ht
        | cons u ss => simpa using ht)
    rw [rowChars_cons, beforeLastWildcard?_append _ (hslash s List.mem_cons_self), hrest,
      beforeWildcard?]
    cases beforeWildcard? ss with
    | none => simp [hs]
    | some before => simp [rowChars_cons]

theorem WellFormed.parent?_isSome {p : Path} (h : p.WellFormed) :
    p.parent?.isSome = p.isNested := by
  rw [h.parent?_eq, Option.isSome_map, Bool.eq_iff_iff, Option.isSome_iff_ne_none, ne_eq,
    beforeWildcard?_eq_none, isNested]
  simp

/-! ## The owner -/

/-- The number of wildcards of a path: how many collections lie above it. -/
def depth (p : Path) : Nat :=
  p.segments.countP (·.kind = .wildcard)

theorem isNested_eq_false {p : Path} :
    p.isNested = false ↔ ∀ s ∈ p.segments, s.kind ≠ .wildcard := by
  simp [isNested]

theorem depth_eq_zero {p : Path} : p.depth = 0 ↔ p.isNested = false := by
  rw [depth, List.countP_eq_zero, isNested_eq_false]
  simp

theorem WellFormed.parent?_eq_none {p : Path} (h : p.WellFormed) :
    p.parent? = none ↔ p.isNested = false := by
  rw [← h.parent?_isSome, Option.isSome_eq_false_iff, Option.isNone_iff_eq_none]

/-- The cut of `p` at its last wildcard: `owner` stands in front of it and `rest` behind it. -/
structure OwnedBy (p owner : Path) (rest : List Segment) : Prop where
  wellFormed : owner.WellFormed
  segments_eq : p.segments = owner.segments ++ ⟨"*", .wildcard⟩ :: rest
  rest_literal : ∀ s ∈ rest, s.kind ≠ .wildcard

/-- The parent that is found for a well-formed path is well-formed, and the path is cut there. -/
theorem WellFormed.ownedBy {p : Path} (h : p.WellFormed) {parentPath : String}
    (hparent : p.parent? = some parentPath) :
    ∃ owner rest, owner.raw = parentPath ∧ p.OwnedBy owner rest := by
  rw [h.parent?_eq, Option.map_eq_some_iff] at hparent
  obtain ⟨before, hbefore, rfl⟩ := hparent
  obtain ⟨w, rest, hss, hw, hrest⟩ := eq_append_of_beforeWildcard? hbefore
  have hrow := h.row
  rw [hss, row_append, Nat.zero_add] at hrow
  have hposition := hrow.2.1.wildcard_iff.1 hw
  have hstar : w = ⟨"*", .wildcard⟩ := by
    rw [← hposition.2, ← hw]
  subst hstar
  refine ⟨⟨_, before⟩, rest, rfl, ⟨String.toList_ofList, ?_, hrow.1, hposition.1⟩, hss, hrest⟩
  intro s hs
  exact h.isPathChar s (hss ▸ List.mem_append_left _ hs)

namespace OwnedBy

variable {p owner : Path} {rest : List Segment}

/-- Cutting at the last wildcard takes away exactly one wildcard. -/
theorem depth (h : p.OwnedBy owner rest) : p.depth = owner.depth + 1 := by
  have hrest : rest.countP (·.kind = .wildcard) = 0 := by
    rw [List.countP_eq_zero]
    simpa using h.rest_literal
  rw [Path.depth, h.segments_eq, List.countP_append, List.countP_cons_of_pos (by simp), hrest,
    Path.depth]

theorem length_rest (h : p.OwnedBy owner rest) (hp : p.WellFormed) : rest.length % 2 = 1 := by
  have hodd := hp.odd
  have howner := h.wellFormed.odd
  rw [h.segments_eq, List.length_append, List.length_cons] at hodd
  omega

theorem rest_ne_nil (h : p.OwnedBy owner rest) (hp : p.WellFormed) : rest ≠ [] := by
  rintro rfl
  cases h.length_rest hp

/-- The text of a path is that of the owner, `/*/`, and that of what stands behind the wildcard. -/
theorem raw_eq (h : p.OwnedBy owner rest) (hp : p.WellFormed) :
    p.raw = owner.raw ++ "/*/" ++ .ofList (rowChars rest) := by
  obtain ⟨t, ts, rfl⟩ := List.exists_cons_of_ne_nil (h.rest_ne_nil hp)
  rw [← String.toList_inj, hp.raw_eq, h.segments_eq,
    rowChars_append_cons h.wellFormed.segments_ne_nil, rowChars_cons, String.toList_append,
    String.toList_append, String.toList_ofList, h.wellFormed.raw_eq, List.append_assoc]
  simp [slashedChars, rowChars_cons, Segment.chars]

theorem last?_eq (h : p.OwnedBy owner rest) (hp : p.WellFormed) :
    p.last? = rest.getLast?.map (·.value) := by
  obtain ⟨t, ts, rfl⟩ := List.exists_cons_of_ne_nil (h.rest_ne_nil hp)
  rw [last?, h.segments_eq, List.getLast?_append, List.getLast?_cons_cons,
    List.getLast?_eq_some_getLast (List.cons_ne_nil t ts), Option.some_or]

end OwnedBy

/-! ## Fixed documents -/

/-- No fixed document stands behind a wildcard: from the first wildcard on, names and wildcards take
turns. -/
def AlternatesBelow (p : Path) : Prop :=
  ∀ i j s t, i < j → j % 2 = 1 → p.segments[i]? = some s → p.segments[j]? = some t →
    s.kind = .wildcard → t.kind = .wildcard

theorem alternatesBelow_of_not_nested {p : Path} (h : p.isNested = false) : p.AlternatesBelow :=
  fun _ _ s _ _ _ hs _ hwild => absurd hwild (isNested_eq_false.1 h s (List.mem_of_getElem? hs))

namespace OwnedBy

variable {p owner : Path} {rest : List Segment}

/-- Names and wildcards take turns just when they do so in the owner and one name follows. -/
theorem alternatesBelow_iff (h : p.OwnedBy owner rest) (hp : p.WellFormed) :
    p.AlternatesBelow ↔ owner.AlternatesBelow ∧ rest.length = 1 := by
  have howner := h.wellFormed.odd
  have hrest := h.length_rest hp
  constructor
  · intro halt
    refine ⟨fun i j s t hlt hj hs ht => ?_, Classical.byContradiction fun hlong => ?_⟩
    · have hi := (List.getElem?_eq_some_iff.1 hs).1
      have hj' := (List.getElem?_eq_some_iff.1 ht).1
      refine halt i j s t hlt hj ?_ ?_ <;> rw [h.segments_eq]
      · rwa [List.getElem?_append_left hi]
      · rwa [List.getElem?_append_left hj']
    · obtain ⟨a, b, ts, rfl⟩ : ∃ a b ts, rest = a :: b :: ts := by
        match rest, hrest, hlong with
        | [_], _, hlong => exact absurd rfl hlong
        | a :: b :: ts, _, _ => exact ⟨a, b, ts, rfl⟩
      refine h.rest_literal b (by simp) (halt owner.segments.length (owner.segments.length + 2)
        ⟨"*", .wildcard⟩ b (by omega) (by omega) ?_ ?_ rfl) <;> simp [h.segments_eq]
  · rintro ⟨halt, hone⟩ i j s t hlt hj hs ht hwild
    have hlength : p.segments.length = owner.segments.length + 2 := by
      rw [h.segments_eq, List.length_append, List.length_cons, hone]
    have hj' := (List.getElem?_eq_some_iff.1 ht).1
    rw [h.segments_eq] at hs ht
    rcases Nat.lt_or_ge j owner.segments.length with hin | hout
    · rw [List.getElem?_append_left (by omega)] at hs ht
      exact halt i j s t hlt hj hs ht hwild
    · have hat : j = owner.segments.length := by omega
      rw [hat, List.getElem?_append_right (Nat.le_refl _), Nat.sub_self] at ht
      cases ht
      rfl

/-- A path that is put together from a part of the owner's text and the last segment is no longer
than the path, and it is the path just when nothing is left out. -/
theorem append_last_eq_raw_iff (h : p.OwnedBy owner rest) (hp : p.WellFormed) {last text : String}
    (hlast : p.last? = some last) (htext : text.toList.length ≤ owner.raw.toList.length) :
    (text ++ "/*/" ++ last).toList.length ≤ p.raw.toList.length ∧
      (text ++ "/*/" ++ last = p.raw ↔ text = owner.raw ∧ rest.length = 1) := by
  obtain ⟨init, l, rfl⟩ : ∃ init l, rest = init ++ [l] :=
    ⟨_, _, (List.dropLast_concat_getLast (h.rest_ne_nil hp)).symm⟩
  have hvalue : last = l.value := by
    rw [h.last?_eq hp, List.getLast?_concat, Option.map_some] at hlast
    exact (Option.some.inj hlast).symm
  have hone : rowChars [l] = last.toList := by
    rw [rowChars_cons, hvalue]
    simp [slashedChars, Segment.chars]
  rw [h.raw_eq hp]
  simp only [← String.toList_inj, String.toList_append, String.toList_ofList]
  cases init with
  | nil =>
    rw [List.nil_append, hone, List.append_assoc, List.append_assoc, List.append_cancel_right_eq]
    refine ⟨?_, by simp⟩
    simp only [List.length_append]
    omega
  | cons a init =>
    rw [rowChars_append_cons (List.cons_ne_nil a init), hone]
    have hlt : (text.toList ++ "/*/".toList ++ last.toList).length < (owner.raw.toList ++
        "/*/".toList ++ (rowChars (a :: init) ++ '/' :: last.toList)).length := by
      simp only [List.length_append, List.length_cons]
      omega
    refine ⟨Nat.le_of_lt hlt, fun heq => ?_, fun hlen => ?_⟩
    · rw [heq] at hlt
      exact absurd hlt (Nat.lt_irrefl _)
    · simp at hlen

end OwnedBy

end Path

end CollectionSchema
