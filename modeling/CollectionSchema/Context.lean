import CollectionSchema.Work

/-!
# Compilation contexts

A context holds the diagnostics of one compilation unit. Its mode says what becomes of a diagnostic
that is added (`addError`): in collecting mode it is recorded, with a warning, and in fail-fast mode
it is raised, and nothing is recorded.
-/

namespace CollectionSchema

/-- What a diagnostic does to a compilation. -/
inductive Mode where
  | collecting
  | failFast
deriving Repr, DecidableEq

/-- The diagnostics of one compilation unit so far. -/
structure Context where
  mode : Mode := .collecting
  errors : List Diagnostic := []
deriving Repr

/-- The warning with which a diagnostic is recorded. -/
def Diagnostic.warning (d : Diagnostic) : Log.Record :=
  ⟨.warning, .diagnostics,
    Vocabulary.word d.code ++ ": " ++ d.message ++ " (" ++ d.element ++ ")"⟩

namespace Context

variable {α : Type}

def isValid (c : Context) : Bool :=
  c.errors.isEmpty

def codes (c : Context) : List Code :=
  c.errors.map (·.code)

/-- Records a diagnostic, or fails with it at once. -/
def addError (d : Diagnostic) : Work Context Unit := do
  match (← Work.get).mode with
  | .failFast => .fail (.diagnostic d)
  | .collecting => do
    .log d.warning
    .modify fun c => { c with errors := c.errors ++ [d] }

/-- Adds diagnostics one by one. -/
def addErrors : List Diagnostic → Work Context Unit
  | [] => pure ()
  | d :: ds => do
    addError d
    addErrors ds

/-- Work with the answer whether it recorded anything, which shows in the number of diagnostics. -/
def watch (w : Work Context α) : Work Context (α × Bool) := do
  let before ← .get
  let a ← w
  let after ← .get
  return (a, before.errors.length < after.errors.length)

/-- The context after some work, and what of the work is logged and how it ends. -/
def absorb (c : Context) (w : Work Context α) : Context × Report Log.Record α :=
  w c

/-- Fails with the aggregate of the recorded diagnostics, if there are any. -/
def finish (c : Context) : Except Failure Unit :=
  if c.isValid then .ok () else .error (.aggregate c.errors)

end Context

/-- The diagnostics that work adds to an empty context that collects them. -/
def Work.problems {α : Type} (w : Work Context α) : List Diagnostic :=
  (w {}).1.errors

end CollectionSchema
