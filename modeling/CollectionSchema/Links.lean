import CollectionSchema.Table

/-!
# Links

Who owns whom among numbered things. Each thing remembers its owner, and each thing remembers in
order what it owns; these are two memories (`owners` and `owned`), each with a write of its own
(`setOwner` and `addChild`).
-/

namespace CollectionSchema

/-- What numbered things remember of each other. -/
structure Links where
  /-- The owner of each thing that was attached. -/
  owners : Table Nat Nat := .empty
  /-- What was attached to each thing, in order. -/
  owned : Table Nat (List Nat) := .empty
deriving Repr

namespace Links

/-- The owner that `c` remembers, if it has one. -/
def owner? (l : Links) (c : Nat) : Option Nat :=
  l.owners.find? c

/-- What `p` remembers to own, in order. -/
def children (l : Links) (p : Nat) : List Nat :=
  (l.owned.find? p).getD []

/-- Writes to `c` that `p` is its owner. -/
def setOwner (l : Links) (c p : Nat) : Links :=
  { l with owners := l.owners.insert c p }

/-- Writes to `p` that it also owns `c`. -/
def addChild (l : Links) (p c : Nat) : Links :=
  { l with owned := l.owned.insert p (l.children p ++ [c]) }

@[simp]
theorem owner?_setOwner (l : Links) (c p d : Nat) :
    (l.setOwner c p).owner? d = if c = d then some p else l.owner? d :=
  Table.find?_insert l.owners c d p

@[simp]
theorem children_setOwner (l : Links) (c p q : Nat) :
    (l.setOwner c p).children q = l.children q := rfl

@[simp]
theorem owner?_addChild (l : Links) (p c d : Nat) : (l.addChild p c).owner? d = l.owner? d := rfl

@[simp]
theorem children_addChild (l : Links) (p c q : Nat) :
    (l.addChild p c).children q = l.children q ++ if p = q then [c] else [] := by
  rw [children, addChild, Table.find?_insert]
  by_cases h : p = q
  · simp [h]
  · simp [h, children]

end Links

end CollectionSchema
