/-!
# Ordered tables

A `Table` maps keys to values and remembers the order in which keys first came: writing a key again
changes its value and keeps its place.
-/

namespace CollectionSchema

/-- Keys with their values, in the order in which the keys first came. -/
structure Table (κ ν : Type) where
  pairs : List (κ × ν)
deriving Repr

namespace Table

variable {κ ν : Type} [DecidableEq κ]

def empty : Table κ ν :=
  ⟨[]⟩

/-- The keys, in the order in which they first came. -/
def keys (t : Table κ ν) : List κ :=
  t.pairs.map (·.1)

def values (t : Table κ ν) : List ν :=
  t.pairs.map (·.2)

def find? (t : Table κ ν) (k : κ) : Option ν :=
  (t.pairs.find? (·.1 = k)).map (·.2)

def contains (t : Table κ ν) (k : κ) : Bool :=
  (t.find? k).isSome

/-- The pairs of a table after one key has been written. -/
def insertPair (k : κ) (v : ν) : List (κ × ν) → List (κ × ν)
  | [] => [(k, v)]
  | p :: ps => if p.1 = k then (k, v) :: ps else p :: insertPair k v ps

/-- The table with `k` mapped to `v`. -/
def insert (t : Table κ ν) (k : κ) (v : ν) : Table κ ν :=
  ⟨insertPair k v t.pairs⟩

/-- The table that results from writing the pairs one after the other. -/
def ofList (pairs : List (κ × ν)) : Table κ ν :=
  pairs.foldl (fun t p => t.insert p.1 p.2) empty

@[simp]
theorem find?_empty (k : κ) : (empty : Table κ ν).find? k = none := rfl

/-- The key written last has the value written last, and the others keep theirs. -/
theorem find?_insert (t : Table κ ν) (k j : κ) (v : ν) :
    (t.insert k v).find? j = if k = j then some v else t.find? j := by
  obtain ⟨ps⟩ := t
  simp only [find?, insert]
  induction ps with
  | nil =>
    by_cases h : k = j <;> simp [insertPair, h]
  | cons p ps ih =>
    rw [insertPair]
    by_cases hp : p.1 = k
    · simp only [hp, if_true, List.find?_cons]
      by_cases h : k = j <;> simp [h]
    · simp only [hp, if_false, List.find?_cons]
      by_cases hj : p.1 = j
      · have : k ≠ j := fun h => hp (hj.trans h.symm)
        simp [hj, this]
      · simp [hj, ih]

end Table

end CollectionSchema
