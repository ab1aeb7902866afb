import CollectionSchema.Proofs.Work
import Mathlib.Data.List.Nodup

/-!
# Attachments

The two memories of `Links` are written one after the other, so that they could come to disagree.
`Links.Records` says that both tell of the same attachments: the owner of a thing is the one that it
was attached to, and what a thing owns is what was attached to it, in order. Nothing is attached
twice. `Links.Records.attach` keeps this over one attachment, for which both writes are needed, and
`Links.records_ofAttachments` follows for all attachments that are made in a row. Attaching in a
hierarchy does both writes or, where it fails, neither (`Hierarchy.ends_attach_of_free`,
`Hierarchy.ends_attach_of_owned`).
-/

namespace CollectionSchema

namespace Links

/-- Both memories tell of some attachments of owners and owned, in the order in which they were
made. -/
structure Records (l : Links) (made : List (Nat × Nat)) : Prop where
  owner?_eq_some_iff : ∀ p c, l.owner? c = some p ↔ (p, c) ∈ made
  children_eq : ∀ p, l.children p = (made.filter (·.1 = p)).map (·.2)
  nodup : (made.map (·.2)).Nodup

/-- The links after both writes of an attachment. -/
def attached (l : Links) (pair : Nat × Nat) : Links :=
  (l.setOwner pair.2 pair.1).addChild pair.1 pair.2

/-- The links after some attachments, made in order. -/
def ofAttachments (made : List (Nat × Nat)) : Links :=
  made.foldl attached {}

namespace Records

variable {l : Links} {made : List (Nat × Nat)}

theorem empty : Records {} [] where
  owner?_eq_some_iff p c := by simp [owner?]
  children_eq p := by simp [children]
  nodup := List.nodup_nil

theorem owner?_eq_none_iff (h : l.Records made) {c : Nat} :
    l.owner? c = none ↔ c ∉ made.map (·.2) := by
  rw [Option.eq_none_iff_forall_ne_some]
  simp only [ne_eq, h.owner?_eq_some_iff, List.mem_map, Prod.exists, exists_eq_right, not_exists]

/-- The write to the owned and the write to the owner add the same attachment. -/
theorem attach (h : l.Records made) {p c : Nat} (hfree : l.owner? c = none) :
    (l.attached (p, c)).Records (made ++ [(p, c)]) where
  owner?_eq_some_iff q d := by
    rw [attached, owner?_addChild, owner?_setOwner, List.mem_append, List.mem_singleton]
    by_cases hd : c = d
    · subst hd
      have hnone : (q, c) ∉ made := by
        rw [← h.owner?_eq_some_iff, hfree]
        nofun
      simp [hnone, eq_comm]
    · simp [hd, h.owner?_eq_some_iff, Ne.symm hd]
  children_eq q := by
    rw [attached, children_addChild, children_setOwner, h.children_eq, List.filter_append,
      List.map_append]
    by_cases hq : p = q <;> simp [hq]
  nodup := by
    rw [List.map_append, List.map_singleton, List.nodup_append_comm]
    exact List.nodup_cons.2 ⟨h.owner?_eq_none_iff.1 hfree, h.nodup⟩

/-- Attachments of different things that have no owner yet. -/
theorem foldl_attached (h : l.Records made) {more : List (Nat × Nat)}
    (hnodup : ((made ++ more).map (·.2)).Nodup) :
    (more.foldl attached l).Records (made ++ more) := by
  induction more generalizing l made with
  | nil =>
    rw [List.append_nil]
    exact h
  | cons pair more ih =>
    have hfree : l.owner? pair.2 = none := by
      rw [h.owner?_eq_none_iff]
      rw [List.map_append, List.map_cons, List.nodup_middle, List.nodup_cons] at hnodup
      exact fun hmem => hnodup.1 (List.mem_append_left _ hmem)
    rw [← List.singleton_append, ← List.append_assoc] at hnodup ⊢
    exact ih (h.attach hfree) hnodup

end Records

theorem records_ofAttachments {made : List (Nat × Nat)} (h : (made.map (·.2)).Nodup) :
    (ofAttachments made).Records made :=
  Records.empty.foldl_attached h

end Links

namespace Hierarchy

variable {h : Hierarchy} {c : Nat}

theorem ends_attach_of_free (p : Nat) (hfree : h.links.owner? c = none) :
    (attach p c).ends h = ({ h with links := h.links.attached (p, c) }, .ok ()) := by
  rw [attach, Work.ends_get_bind, hfree]
  rfl

/-- What has an owner is refused before anything is written. -/
theorem ends_attach_of_owned {q : Nat} (p : Nat) (howned : h.links.owner? c = some q) :
    (attach p c).ends h = (h, .error (.alreadyAttached ((h.pathOf? c).getD ""))) := by
  rw [attach, Work.ends_get_bind, howned]
  rfl

end Hierarchy

end CollectionSchema
