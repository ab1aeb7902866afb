import CollectionSchema.Links
import CollectionSchema.Placement
import CollectionSchema.Work

/-!
# Hierarchies

Collections with their places among each other. The collections are numbered in the order in which
they were added; `Links` says which owns which, and each collection has a mark that says whether its
class name comes from the path. `placement?` gives all that generated code can see of a
collection.
-/

namespace CollectionSchema

/-- A collection and whether its class name comes from the path. -/
structure Entry where
  collection : Collection
  qualified : Bool := false
deriving Repr

def Entry.named (e : Entry) : NamedCollection :=
  ⟨e.collection, e.collection.className e.qualified⟩

/-- Numbered collections and the links between them. -/
structure Hierarchy where
  entries : List Entry := []
  links : Links := {}
deriving Repr

namespace Hierarchy

/-- Unlinked collections with plain class names, numbered in order. -/
def ofCollections (cs : List Collection) : Hierarchy :=
  { entries := cs.map fun c => { collection := c } }

/-- The hierarchy with one more collection, unlinked; its number is the former number of
collections. -/
def add (h : Hierarchy) (c : Collection) : Hierarchy :=
  { h with entries := h.entries ++ [{ collection := c }] }

def named? (h : Hierarchy) (i : Nat) : Option NamedCollection :=
  (h.entries[i]?).map Entry.named

def pathOf? (h : Hierarchy) (i : Nat) : Option String :=
  (h.entries[i]?).map (·.collection.pathText)

def placement? (h : Hierarchy) (i : Nat) : Option Placement :=
  (h.named? i).map fun c => {
    toNamedCollection := c
    parent := (h.links.owner? i).bind h.named?
    children := (h.links.children i).filterMap h.named? }

/-- Attaches the collection `c` to the collection `p`, unless it was attached before: `c` remembers
its parent first, and then `p` remembers its child. -/
def attach (p c : Nat) : Work Hierarchy Unit := do
  let h ← .get
  if (h.links.owner? c).isSome then .fail (.alreadyAttached ((h.pathOf? c).getD ""))
  .modify fun h => { h with links := h.links.setOwner c p }
  .modify fun h => { h with links := h.links.addChild p c }

/-- From now on the class name of the collection comes from its path. -/
def qualify (h : Hierarchy) (i : Nat) : Hierarchy :=
  { h with entries := h.entries.modify i fun e => { e with qualified := true } }

end Hierarchy

end CollectionSchema
