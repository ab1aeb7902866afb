import CollectionSchema.Failure
import CollectionSchema.Log.Record

/-!
# Reports

A piece of work reports events while it runs and ends with a value or a failure. A `Report` keeps
the events in order, also those before a failure, and reports are run one after the other as a
monad: a failure ends the work. Most reports hold log records.
-/

namespace CollectionSchema

/-- The events of a piece of work, in order, and how it ended. -/
structure Report (ε α : Type) where
  events : List ε
  value : Except Failure α

namespace Report

variable {ε α β : Type}

/-- The second piece of work, run on the value of the first. -/
def bind (r : Report ε α) (f : α → Report ε β) : Report ε β :=
  match r.value with
  | .ok a =>
    let next := f a
    ⟨r.events ++ next.events, next.value⟩
  | .error e => ⟨r.events, .error e⟩

instance : Monad (Report ε) where
  pure a := ⟨[], .ok a⟩
  bind := bind

theorem map_eq (f : α → β) (r : Report ε α) : f <$> r = ⟨r.events, r.value.map f⟩ := by
  obtain ⟨es, v⟩ := r
  cases v <;> simp [Functor.map, bind, Except.map]

instance : LawfulMonad (Report ε) := by
  refine LawfulMonad.mk' (Report ε) ?_ ?_ ?_
  · rintro α ⟨es, v⟩
    cases v <;> simp [map_eq, Except.map]
  · intro α β a f
    rfl
  · rintro α β γ ⟨es, v⟩ f g
    cases v with
    | error e => rfl
    | ok a =>
      simp only [Bind.bind, bind]
      cases (f a).value <;> simp

def emit (e : ε) : Report ε Unit :=
  ⟨[e], .ok ()⟩

def fail (f : Failure) : Report ε α :=
  ⟨[], .error f⟩

/-- A result that was found silently. -/
def lift (v : Except Failure α) : Report ε α :=
  ⟨[], v⟩

def debug (channel : Log.Channel) (message : String) : Report Log.Record Unit :=
  emit ⟨.debug, channel, message⟩

/-- Work that ends with a value is followed by the work on that value. -/
theorem bind_of_value {r : Report ε α} {a : α} (h : r.value = .ok a) (f : α → Report ε β) :
    r >>= f = ⟨r.events ++ (f a).events, (f a).value⟩ := by
  obtain ⟨es, v⟩ := r
  cases h
  rfl

theorem value_bind (r : Report ε α) (f : α → Report ε β) :
    (r >>= f).value = r.value.bind fun a => (f a).value := by
  obtain ⟨events, value⟩ := r
  cases value <;> rfl

end Report

end CollectionSchema
