import CollectionSchema.Table
import Mathlib.Data.List.Induction
import Mathlib.Data.List.Nodup

/-!
# Tables by keys

Writing distinct keys one after the other gives the table of just these pairs (`ofList_of_nodup`).
-/

namespace CollectionSchema

theorem nodup_map_append_singleton {α κ : Type} {l : List α} {a : α} {key : α → κ} :
    ((l ++ [a]).map key).Nodup ↔ key a ∉ l.map key ∧ (l.map key).Nodup := by
  rw [List.map_append, List.map_singleton, ← List.concat_eq_append, List.nodup_concat]

/-- Where a key belongs to one element only, a search for the key finds this element. -/
theorem find?_eq_some_iff_of_nodup {α κ : Type} [DecidableEq κ] {l : List α} {key : α → κ}
    (h : (l.map key).Nodup) {k : κ} {a : α} :
    l.find? (fun b => decide (key b = k)) = some a ↔ a ∈ l ∧ key a = k := by
  constructor
  · intro hfind
    exact ⟨List.mem_of_find?_eq_some hfind, by simpa using List.find?_some hfind⟩
  · rintro ⟨hmem, rfl⟩
    have hsome : (l.find? fun b => decide (key b = key a)).isSome := by
      rw [List.find?_isSome]
      exact ⟨a, hmem, by simp⟩
    obtain ⟨b, hb⟩ := Option.isSome_iff_exists.1 hsome
    have hkey : key b = key a := by simpa using List.find?_some hb
    rw [hb, List.inj_on_of_nodup_map h (List.mem_of_find?_eq_some hb) hmem hkey]

theorem find?_eq_of_perm {α κ : Type} [DecidableEq κ] {l m : List α} {key : α → κ}
    (h : (l.map key).Nodup) (hperm : l.Perm m) (k : κ) :
    l.find? (fun b => decide (key b = k)) = m.find? (fun b => decide (key b = k)) := by
  have hm : (m.map key).Nodup := (hperm.map key).nodup_iff.1 h
  ext a
  rw [find?_eq_some_iff_of_nodup h, find?_eq_some_iff_of_nodup hm, hperm.mem_iff]

namespace Table

variable {κ ν : Type} [DecidableEq κ]

theorem insertPair_append_of_not_mem {k : κ} (v : ν) {ps : List (κ × ν)} (h : k ∉ ps.map (·.1))
    (qs : List (κ × ν)) : insertPair k v (ps ++ qs) = ps ++ insertPair k v qs := by
  induction ps with
  | nil => rfl
  | cons p ps ih =>
    rw [List.map_cons, List.mem_cons, not_or] at h
    rw [List.cons_append, insertPair, if_neg fun e => h.1 e.symm, ih h.2, List.cons_append]

theorem insertPair_of_not_mem {k : κ} (v : ν) {ps : List (κ × ν)} (h : k ∉ ps.map (·.1)) :
    insertPair k v ps = ps ++ [(k, v)] := by
  have hempty := insertPair_append_of_not_mem v h []
  rwa [List.append_nil] at hempty

theorem insert_of_not_mem {t : Table κ ν} {k : κ} (v : ν) (h : k ∉ t.keys) :
    t.insert k v = ⟨t.pairs ++ [(k, v)]⟩ := by
  rw [insert, insertPair_of_not_mem v h]

theorem insert_last {ps : List (κ × ν)} {k : κ} (h : k ∉ ps.map (·.1)) (v w : ν) :
    (⟨ps ++ [(k, v)]⟩ : Table κ ν).insert k w = ⟨ps ++ [(k, w)]⟩ := by
  rw [insert, insertPair_append_of_not_mem w h, insertPair, if_pos rfl]

theorem find?_last {ps : List (κ × ν)} {k : κ} (h : k ∉ ps.map (·.1)) (v : ν) :
    (⟨ps ++ [(k, v)]⟩ : Table κ ν).find? k = some v := by
  have hinsert := find?_insert (⟨ps⟩ : Table κ ν) k k v
  rwa [insert_of_not_mem v h, if_pos rfl] at hinsert

theorem foldl_insert_of_nodup (ps : List (κ × ν)) {qs : List (κ × ν)}
    (h : ((ps ++ qs).map (·.1)).Nodup) :
    qs.foldl (fun t q => t.insert q.1 q.2) (⟨ps⟩ : Table κ ν) = ⟨ps ++ qs⟩ := by
  induction qs generalizing ps with
  | nil => simp
  | cons q qs ih =>
    have hq : q.1 ∉ ps.map (·.1) := by
      rw [List.map_append, List.map_cons, List.nodup_append] at h
      exact fun hmem => h.2.2 q.1 hmem q.1 List.mem_cons_self rfl
    have hinsert : (⟨ps⟩ : Table κ ν).insert q.1 q.2 = ⟨ps ++ [q]⟩ := by
      rw [insert, insertPair_of_not_mem q.2 hq]
    rw [List.foldl_cons, hinsert, ih _ (by simpa using h), List.append_assoc, List.singleton_append]

theorem ofList_of_nodup {ps : List (κ × ν)} (h : (ps.map (·.1)).Nodup) : ofList ps = ⟨ps⟩ :=
  foldl_insert_of_nodup [] h

theorem find?_eq_none {t : Table κ ν} {k : κ} : t.find? k = none ↔ k ∉ t.keys := by
  rw [find?, Option.map_eq_none_iff, List.find?_eq_none, keys]
  simp only [decide_eq_true_eq, List.mem_map, not_exists, not_and]

theorem find?_ofList_eq_some {ps : List (κ × ν)} (h : (ps.map (·.1)).Nodup) {k : κ} {v : ν} :
    (ofList ps).find? k = some v ↔ (k, v) ∈ ps := by
  rw [ofList_of_nodup h, find?, Option.map_eq_some_iff]
  constructor
  · rintro ⟨⟨j, w⟩, hfind, rfl⟩
    obtain ⟨hmem, rfl⟩ := (find?_eq_some_iff_of_nodup h).1 hfind
    exact hmem
  · intro hmem
    exact ⟨(k, v), (find?_eq_some_iff_of_nodup h).2 ⟨hmem, rfl⟩, rfl⟩

theorem find?_ofList_eq_none {ps : List (κ × ν)} (h : (ps.map (·.1)).Nodup) {k : κ} :
    (ofList ps).find? k = none ↔ k ∉ ps.map (·.1) := by
  rw [ofList_of_nodup h, find?_eq_none, keys]

end Table

end CollectionSchema
