/-!
# Checked results

Reading an untyped value gives a result or the list of everything that is wrong with it. Which of
both is for the library to say that reads the values; this module has what it answers. Readings are
combined side by side: the parts of a result are all read, and the issues of all of them are kept in
order (`Checked.seq`).
-/

namespace CollectionSchema.Input

/-- One step from a value into a part of it. -/
inductive Key where
  | name (s : String)
  | index (n : Nat)
deriving Repr, DecidableEq

/-- One thing that is wrong with a value: its kind, what is said of it, and the place where it is,
seen from the value that is read. -/
structure Issue where
  kind : String
  message : String
  location : List Key
deriving Repr, DecidableEq

/-- A result, or everything that is wrong with what it was read from. -/
inductive Checked (α : Type) where
  | valid (a : α)
  | invalid (issues : List Issue)
deriving Repr

namespace Checked

variable {α β : Type}

/-- The issues of a reading; none if it is valid. -/
def issues : Checked α → List Issue
  | valid _ => []
  | invalid is => is

/-- The reading of a part, seen from the whole. -/
def under (key : Key) : Checked α → Checked α
  | valid a => valid a
  | invalid is => invalid (is.map fun i => { i with location := key :: i.location })

def map (f : α → β) : Checked α → Checked β
  | valid a => valid (f a)
  | invalid is => invalid is

/-- Two readings side by side: both must be valid, and the issues of both are kept. -/
def seq (f : Checked (α → β)) (x : Checked α) : Checked β :=
  match f, x with
  | valid f, valid a => valid (f a)
  | valid _, invalid is => invalid is
  | invalid is, x => invalid (is ++ x.issues)

instance : Applicative Checked where
  pure := valid
  seq f x := seq f (x ())

end Checked

end CollectionSchema.Input
