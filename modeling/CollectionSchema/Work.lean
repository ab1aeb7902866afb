import CollectionSchema.Report

/-!
# Work on a state

Compiling works step by step on a state that lasts. A step can write to the state, log a record and
fail. A failure ends the work there and then: what was written before it stays written, and what was
to be written after it is not (`Work.bind`). Only `rescue` goes on after a failure, from the state
in which the failure left it.
-/

namespace CollectionSchema

/-- What work makes of a state, with what it logs and how it ends. -/
def Work (σ α : Type) : Type :=
  σ → σ × Report Log.Record α

namespace Work

variable {σ τ α β : Type}

/-- The second piece of work, run on the value of the first and from the state after it. -/
def bind (w : Work σ α) (f : α → Work σ β) : Work σ β := fun s =>
  let ended := w s
  match ended.2.value with
  | .ok a =>
    let next := f a ended.1
    (next.1, ⟨ended.2.events ++ next.2.events, next.2.value⟩)
  | .error e => (ended.1, ⟨ended.2.events, .error e⟩)

instance : Monad (Work σ) where
  pure a := fun s => (s, pure a)
  bind := bind

def get : Work σ σ := fun s =>
  (s, pure s)

def modify (f : σ → σ) : Work σ Unit := fun s =>
  (f s, pure ())

/-- Work that has nothing to do with the state. -/
def ofReport (r : Report Log.Record α) : Work σ α := fun s =>
  (s, r)

def log (r : Log.Record) : Work σ Unit :=
  ofReport (.emit r)

def fail (f : Failure) : Work σ α :=
  ofReport (.fail f)

def lift (v : Except Failure α) : Work σ α :=
  ofReport (.lift v)

/-- Work that is handed its diagnostic if it fails with one, and goes on from there. -/
def rescue (w : Work σ α) (handle : Diagnostic → Work σ α) : Work σ α := fun s =>
  let ended := w s
  match ended.2.value with
  | .error (.diagnostic d) =>
    let next := handle d ended.1
    (next.1, ⟨ended.2.events ++ next.2.events, next.2.value⟩)
  | _ => ended

/-- Work on a part of the state. -/
def within (part : σ → τ) (put : σ → τ → σ) (w : Work τ α) : Work σ α := fun s =>
  let ended := w (part s)
  (put s ended.1, ended.2)

/-- The state after some work, as a result. -/
def exec (w : Work σ Unit) (s : σ) : Report Log.Record σ :=
  let ended := w s
  (fun _ => ended.1) <$> ended.2

end Work

end CollectionSchema
