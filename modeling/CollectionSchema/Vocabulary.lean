/-!
# Vocabularies

Several closed types of the compiler have a written form: kinds of types, diagnostic codes,
artifacts. A `Vocabulary` lists the members of such a type in their fixed order and gives each its
word. Words are distinct and the list is complete (`find_word`), so reading undoes writing
(`ofWord?_word`).
-/

namespace CollectionSchema

/-- A closed type whose members are each written as one word. -/
class Vocabulary (α : Type) where
  /-- Every member, in the order in which they are listed to a reader. -/
  members : List α
  /-- The written form of a member. -/
  word : α → String
  /-- Each member is the first of the list with its word. -/
  find_word : ∀ a, members.find? (fun b => word b == word a) = some a := by
    intro a; cases a <;> rfl

namespace Vocabulary

variable {α : Type} [Vocabulary α]

def words (α : Type) [Vocabulary α] : List String :=
  (members : List α).map word

def ofWord? (w : String) : Option α :=
  members.find? (word · == w)

@[simp]
theorem ofWord?_word (a : α) : ofWord? (word a) = some a :=
  find_word a

theorem word_injective {a b : α} (h : word a = word b) : a = b := by
  have := ofWord?_word a
  rw [h, ofWord?_word] at this
  simpa using this.symm

theorem mem_members (a : α) : a ∈ (members : List α) :=
  List.mem_of_find?_eq_some (find_word a)

end Vocabulary

end CollectionSchema
