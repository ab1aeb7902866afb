import CollectionSchema.Text.Pieces

/-!
# Texts cut at a character

A text is cut at a character into the parts that are the text with this character between them and
that do not hold it (`CutAt`). There is exactly one way to cut a text (`exists_cutAt`,
`CutAt.unique`), and `pieces` finds it (`CutAt.pieces_eq`).
-/

namespace CollectionSchema.Text

/-! ## The characters of joined parts -/

theorem mem_joinWith {s c : Char} {parts : List (List Char)} (h : c ∈ joinWith [s] parts) :
    c = s ∨ ∃ p ∈ parts, c ∈ p := by
  induction parts with
  | nil => simp [joinWith] at h
  | cons p parts ih =>
    cases parts with
    | nil => exact .inr ⟨p, List.mem_cons_self, h⟩
    | cons q parts =>
      rw [joinWith, List.append_assoc, List.mem_append, List.singleton_append, List.mem_cons] at h
      rcases h with h | rfl | h
      · exact .inr ⟨p, List.mem_cons_self, h⟩
      · exact .inl rfl
      · refine (ih h).imp_right ?_
        rintro ⟨r, hr, hc⟩
        exact ⟨r, List.mem_cons_of_mem p hr, hc⟩

theorem mem_joinWith_of_mem {sep p : List Char} {c : Char} {parts : List (List Char)}
    (hp : p ∈ parts) (hc : c ∈ p) : c ∈ joinWith sep parts := by
  induction parts with
  | nil => cases hp
  | cons q parts ih =>
    cases parts with
    | nil => simpa [joinWith, List.mem_singleton.1 hp] using hc
    | cons r parts =>
      rw [joinWith, List.mem_append, List.mem_append]
      rcases List.mem_cons.1 hp with rfl | hp
      · exact .inl (.inl hc)
      · exact .inr (ih hp)

theorem toList_intercalate_singleton (s : Char) (parts : List String) :
    ((String.singleton s).intercalate parts).toList = joinWith [s] (parts.map String.toList) := by
  rw [String.toList_intercalate, String.toList_singleton, joinWith_eq_intercalate]

/-! ## Cuts -/

/-- A text is cut into parts at every separator. -/
structure CutAt (sep : Char) (text : String) (parts : List String) : Prop where
  text_eq : text = (String.singleton sep).intercalate parts
  ne_nil : parts ≠ []
  not_mem : ∀ part ∈ parts, sep ∉ part.toList

section

variable {sep : Char} {text : String} {parts others : List String}

theorem CutAt.pieces_eq (h : CutAt sep text parts) :
    pieces (· == sep) text.toList = parts.map String.toList := by
  rw [h.text_eq, toList_intercalate_singleton]
  refine pieces_joinWith (by simpa using h.ne_nil) ?_
  simpa using h.not_mem

theorem CutAt.unique (h : CutAt sep text parts) (hothers : CutAt sep text others) :
    parts = others := by
  have hpieces := h.pieces_eq.symm.trans hothers.pieces_eq
  exact (List.map_inj_right fun _ _ => String.toList_inj.1).1 hpieces

end

theorem exists_cutAt (sep : Char) (text : String) : ∃ parts, CutAt sep text parts := by
  refine ⟨(pieces (· == sep) text.toList).map String.ofList, ?_, ?_, ?_⟩
  · have hid : String.toList ∘ String.ofList = id := funext fun _ => String.toList_ofList
    rw [← String.toList_inj, toList_intercalate_singleton, List.map_map, hid, List.map_id,
      joinWith_pieces]
  · simpa using pieces_ne_nil _ _
  · intro part hpart hsep
    obtain ⟨piece, hpiece, rfl⟩ := List.mem_map.1 hpart
    rw [String.toList_ofList] at hsep
    simpa using not_mem_of_mem_pieces hpiece sep hsep

end CollectionSchema.Text
