import CollectionSchema.Builder

/-!
# Work in both modes

What work finds is the same in both modes, but not what becomes of it. `Reports` says of work on a
context that it ends with a value and finds some diagnostics: a context that collects them has them
behind its own afterwards, and a fail-fast context is left as it was and the first of them is
raised. `Enacts` says the same of work on a builder, which also has `Effects` on what the builder
notes; a builder that fails fast must not note anything, neither before it fails nor where there is
nothing to find.

Both are proved step by step: one lemma for each way in which work is put together, the write to the
context and the notes behind it among them.
-/

namespace CollectionSchema

/-! ## How work ends -/

namespace Work

variable {σ τ α β : Type}

/-- The state after some work and how the work ends, without what it logs. -/
def ends (w : Work σ α) (s : σ) : σ × Except Failure α :=
  ((w s).1, (w s).2.value)

theorem ends_bind_of_ok {w : Work σ α} {s t : σ} {a : α} (h : w.ends s = (t, .ok a))
    (f : α → Work σ β) : (w >>= f).ends s = (f a).ends t := by
  obtain ⟨rfl, hvalue⟩ := Prod.mk.inj h
  simp only [ends, Bind.bind, bind, hvalue]

theorem ends_bind_of_error {w : Work σ α} {s t : σ} {e : Failure} (h : w.ends s = (t, .error e))
    (f : α → Work σ β) : (w >>= f).ends s = (t, .error e) := by
  obtain ⟨rfl, hvalue⟩ := Prod.mk.inj h
  simp only [ends, Bind.bind, bind, hvalue]

theorem ends_get_bind (f : σ → Work σ α) (s : σ) : (get >>= f).ends s = (f s).ends s := rfl

theorem ends_modify_bind (f : σ → σ) (g : Unit → Work σ α) (s : σ) :
    (modify f >>= g).ends s = (g ()).ends (f s) := rfl

theorem ends_pure (a : α) (s : σ) : (pure a : Work σ α).ends s = (s, .ok a) := rfl

theorem ends_rescue_of_ok {w : Work σ α} {s t : σ} {a : α} (h : w.ends s = (t, .ok a))
    (handle : Diagnostic → Work σ α) : (w.rescue handle).ends s = (t, .ok a) := by
  obtain ⟨rfl, hvalue⟩ := Prod.mk.inj h
  simp only [ends, rescue, hvalue]

theorem ends_rescue_of_diagnostic {w : Work σ α} {s t : σ} {d : Diagnostic}
    (h : w.ends s = (t, .error (.diagnostic d))) (handle : Diagnostic → Work σ α) :
    (w.rescue handle).ends s = (handle d).ends t := by
  obtain ⟨rfl, hvalue⟩ := Prod.mk.inj h
  simp only [ends, rescue, hvalue]

theorem value_exec {w : Work σ Unit} {s t : σ} (h : w.ends s = (t, .ok ())) :
    (w.exec s).value = .ok t := by
  obtain ⟨rfl, hvalue⟩ := Prod.mk.inj h
  rw [exec, Report.map_eq, hvalue]
  rfl

end Work

/-- The value `a`, or the first of some diagnostics raised. -/
def raiseFirst {α : Type} (a : α) : List Diagnostic → Except Failure α
  | [] => .ok a
  | d :: _ => .error (.diagnostic d)

/-! ## Work on contexts -/

/-- The work ends with `a` and finds some diagnostics, whatever the context holds. -/
structure Reports {α : Type} (w : Work Context α) (a : α) (found : List Diagnostic) : Prop where
  collecting : ∀ errors, w.ends ⟨.collecting, errors⟩ = (⟨.collecting, errors ++ found⟩, .ok a)
  failFast : ∀ errors, w.ends ⟨.failFast, errors⟩ = (⟨.failFast, errors⟩, raiseFirst a found)

namespace Reports

variable {α β : Type}

theorem ofReport {r : Report Log.Record α} {a : α} (h : r.value = .ok a) :
    Reports (.ofReport r) a [] where
  collecting errors := by rw [List.append_nil, Work.ends, Work.ofReport, h]
  failFast errors := by rw [Work.ends, Work.ofReport, h, raiseFirst]

theorem pure (a : α) : Reports (Pure.pure a) a [] :=
  ofReport rfl

theorem bind {w : Work Context α} {f : α → Work Context β} {a : α} {b : β}
    {found more : List Diagnostic} (hw : Reports w a found) (hf : Reports (f a) b more) :
    Reports (w >>= f) b (found ++ more) where
  collecting errors := by
    rw [Work.ends_bind_of_ok (hw.collecting errors), hf.collecting, List.append_assoc]
  failFast errors := by
    have hfirst := hw.failFast errors
    cases found with
    | nil => rw [Work.ends_bind_of_ok hfirst, hf.failFast, List.nil_append]
    | cons d found => rw [Work.ends_bind_of_error hfirst, List.cons_append, raiseFirst]

theorem bind_silent {w : Work Context α} {f : α → Work Context β} {a : α} {b : β}
    {found : List Diagnostic} (hw : Reports w a []) (hf : Reports (f a) b found) :
    Reports (w >>= f) b found :=
  hw.bind hf

theorem bind_pure {w : Work Context α} {f : α → β} {a : α} {found : List Diagnostic}
    (hw : Reports w a found) : Reports (w >>= fun a => Pure.pure (f a)) (f a) found := by
  have h := hw.bind (f := fun a => Pure.pure (f a)) (pure (f a))
  rwa [List.append_nil] at h

/-- A diagnostic is written to a context that collects, and raised before anything is written to
one that fails fast. -/
theorem addError (d : Diagnostic) : Reports (Context.addError d) () [d] where
  collecting _ := rfl
  failFast _ := rfl

theorem addErrors (ds : List Diagnostic) : Reports (Context.addErrors ds) () ds := by
  induction ds with
  | nil => exact pure ()
  | cons d ds ih => exact (addError d).bind ih

theorem rescue_of_ok {w : Work Context α} {a : α} (handle : Diagnostic → Work Context α)
    (hw : ∀ c, w.ends c = (c, .ok a)) : Reports (w.rescue handle) a [] where
  collecting errors := by rw [Work.ends_rescue_of_ok (hw _), List.append_nil]
  failFast errors := by rw [Work.ends_rescue_of_ok (hw _), raiseFirst]

/-- A diagnostic that is caught in a fail-fast context is raised once more by its handler. -/
theorem rescue_of_diagnostic {w : Work Context α} {handle : Diagnostic → Work Context α}
    {d : Diagnostic} {a : α} {found : List Diagnostic}
    (hw : ∀ c, w.ends c = (c, .error (.diagnostic d))) (hhandle : Reports (handle d) a found) :
    Reports (w.rescue handle) a found where
  collecting errors := by rw [Work.ends_rescue_of_diagnostic (hw _), hhandle.collecting]
  failFast errors := by rw [Work.ends_rescue_of_diagnostic (hw _), hhandle.failFast]

theorem watch {w : Work Context α} {a : α} {found : List Diagnostic} (hw : Reports w a found) :
    Reports (Context.watch w) (a, !found.isEmpty) found where
  collecting errors := by
    have hlonger : decide (errors.length < (errors ++ found).length) = !found.isEmpty := by
      cases found <;> simp
    rw [Context.watch, Work.ends_get_bind, Work.ends_bind_of_ok (hw.collecting errors),
      Work.ends_get_bind, Work.ends_pure, hlonger]
  failFast errors := by
    have hfirst := hw.failFast errors
    rw [Context.watch, Work.ends_get_bind]
    cases found with
    | nil =>
      rw [Work.ends_bind_of_ok hfirst, Work.ends_get_bind, Work.ends_pure]
      simp [raiseFirst]
    | cons d found => rw [Work.ends_bind_of_error hfirst, raiseFirst]

theorem problems {w : Work Context α} {a : α} {found : List Diagnostic} (hw : Reports w a found) :
    w.problems = found :=
  congrArg (·.1.errors) (hw.collecting [])

end Reports

/-! ## Work on builders -/

/-- What some work adds to the memory of a builder in collecting mode. -/
structure Effects where
  errors : List Diagnostic := []
  indexed : List (Nat × Diagnostic) := []
  failedPaths : List String := []

namespace Effects

protected def append (e f : Effects) : Effects :=
  ⟨e.errors ++ f.errors, e.indexed ++ f.indexed, e.failedPaths ++ f.failedPaths⟩

instance : Append Effects :=
  ⟨Effects.append⟩

theorem append_empty (e : Effects) : e ++ {} = e := by
  change e.append {} = e
  simp [Effects.append]

/-- Diagnostics that were found and noted for positions. -/
def noted (found : List (Nat × Diagnostic)) (failedPaths : List String := []) : Effects :=
  ⟨found.map (·.2), found, failedPaths⟩

theorem noted_append_noted (found more : List (Nat × Diagnostic)) (ps qs : List String) :
    noted found ps ++ noted more qs = noted (found ++ more) (ps ++ qs) := by
  change Effects.append _ _ = _
  simp [Effects.append, noted]

/-- Failed paths are noted in the first pass only. -/
theorem noted_append (found more : List (Nat × Diagnostic)) (ps : List String) :
    noted (found ++ more) ps = noted found ps ++ noted more := by
  rw [noted_append_noted, List.append_nil]

end Effects

/-- The builder with some effects on its memory. -/
def Builder.after (b : Builder) (e : Effects) : Builder :=
  { b with
    context := { b.context with errors := b.context.errors ++ e.errors }
    failedPaths := b.failedPaths ++ e.failedPaths
    indexed := b.indexed ++ e.indexed }

theorem Builder.after_after (b : Builder) (e f : Effects) :
    (b.after e).after f = b.after (e ++ f) := by
  change _ = b.after (e.append f)
  simp [after, Effects.append]

theorem Builder.after_of_quiet (b : Builder) {e : Effects} (h : e = {}) : b.after e = b := by
  simp [after, h]

/-- The work ends with `a` and has some effects, on every builder that knows the failed paths
`known`. Nothing is noted where nothing was found. -/
structure Enacts {α : Type} (known : List String) (w : Work Builder α) (a : α) (e : Effects) :
    Prop where
  collecting : ∀ b : Builder, b.context.mode = .collecting → b.failedPaths = known →
    w.ends b = (b.after e, .ok a)
  failFast : ∀ b : Builder, b.context.mode = .failFast → b.failedPaths = known →
    w.ends b = (b, raiseFirst a e.errors)
  quiet : e.errors = [] → e = {}

namespace Enacts

variable {α β : Type} {known : List String}

theorem ofReport {r : Report Log.Record α} {a : α} (h : r.value = .ok a) :
    Enacts known (.ofReport r) a {} where
  collecting b _ _ := by rw [b.after_of_quiet rfl, Work.ends, Work.ofReport, h]
  failFast b _ _ := by rw [Work.ends, Work.ofReport, h, raiseFirst]
  quiet _ := rfl

theorem pure (a : α) : Enacts known (Pure.pure a) a {} :=
  ofReport rfl

theorem bind {w : Work Builder α} {f : α → Work Builder β} {a : α} {b : β} {e more : Effects}
    (hw : Enacts known w a e) (hf : Enacts (known ++ e.failedPaths) (f a) b more) :
    Enacts known (w >>= f) b (e ++ more) where
  collecting s hmode hknown := by
    have hafter : (s.after e).failedPaths = known ++ e.failedPaths := by
      rw [← hknown]
      rfl
    rw [Work.ends_bind_of_ok (hw.collecting s hmode hknown),
      hf.collecting (s.after e) hmode hafter, Builder.after_after]
  failFast s hmode hknown := by
    have hfirst := hw.failFast s hmode hknown
    cases herrors : e.errors with
    | nil =>
      cases hw.quiet herrors
      rw [Work.ends_bind_of_ok hfirst, hf.failFast s hmode (by rw [hknown, List.append_nil])]
      rfl
    | cons d found =>
      have happend : (e ++ more).errors = d :: (found ++ more.errors) :=
        congrArg (· ++ more.errors) herrors
      rw [herrors] at hfirst
      rw [Work.ends_bind_of_error hfirst, happend, raiseFirst]
  quiet h := by
    obtain ⟨hnil, hmore⟩ := List.append_eq_nil_iff.1 h
    rw [hw.quiet hnil, hf.quiet hmore]
    rfl

theorem bind_silent {w : Work Builder α} {f : α → Work Builder β} {a : α} {b : β} {e : Effects}
    (hw : Enacts known w a {}) (hf : Enacts known (f a) b e) : Enacts known (w >>= f) b e := by
  have h := hw.bind (f := f) (by rwa [List.append_nil])
  exact h

theorem bind_pure {w : Work Builder α} {f : α → β} {a : α} {e : Effects}
    (hw : Enacts known w a e) : Enacts known (w >>= fun a => Pure.pure (f a)) (f a) e := by
  have h := hw.bind (f := fun a => Pure.pure (f a)) (pure (f a))
  rwa [Effects.append_empty] at h

/-- What is done next may depend on what the builder remembers. -/
theorem get_bind {f : Builder → Work Builder α} {a : α} {e : Effects}
    (h : ∀ b : Builder, b.failedPaths = known → Enacts known (f b) a e) :
    Enacts known (Work.get >>= f) a e where
  collecting b hmode hknown := (h b hknown).collecting b hmode hknown
  failFast b hmode hknown := (h b hknown).failFast b hmode hknown
  quiet := (h { declarations := [], failedPaths := known } rfl).quiet

theorem onContext {w : Work Context α} {a : α} {found : List Diagnostic} (hw : Reports w a found) :
    Enacts known (Builder.onContext w) a { errors := found } where
  collecting b hmode _ := by
    obtain ⟨_, ⟨_, errors⟩, _, _⟩ := b
    cases hmode
    obtain ⟨hcontext, hvalue⟩ := Prod.mk.inj (hw.collecting errors)
    simp only [Work.ends, Builder.onContext, Work.within, hcontext, hvalue, Builder.after,
      List.append_nil]
  failFast b hmode _ := by
    obtain ⟨_, ⟨_, errors⟩, _, _⟩ := b
    cases hmode
    obtain ⟨hcontext, hvalue⟩ := Prod.mk.inj (hw.failFast errors)
    simp only [Work.ends, Builder.onContext, Work.within, hcontext, hvalue]
  quiet h := congrArg (Effects.mk · [] []) h

theorem addError (d : Diagnostic) : Enacts known (Builder.addError d) () { errors := [d] } :=
  onContext (.addError d)

/-- The diagnostics that work has added to the context are those that are noted for a position. -/
theorem noting {w : Work Builder α} {a : α} {found : List Diagnostic} {failedPaths : List String}
    (i : Nat) (hw : Enacts known w a { errors := found, failedPaths := failedPaths }) :
    Enacts known (Builder.noting i w) a (.noted (found.map (i, ·)) failedPaths) where
  collecting b hmode hknown := by
    rw [Builder.noting, Work.ends_get_bind, Work.ends_bind_of_ok (hw.collecting b hmode hknown),
      Work.ends_modify_bind, Work.ends_pure]
    simp [Builder.after, Effects.noted, Function.comp_def]
  failFast b hmode hknown := by
    have hfirst := hw.failFast b hmode hknown
    rw [Builder.noting, Work.ends_get_bind]
    cases found with
    | nil =>
      rw [Work.ends_bind_of_ok hfirst, Work.ends_modify_bind, Work.ends_pure]
      simp [Effects.noted, raiseFirst]
    | cons d found =>
      rw [Work.ends_bind_of_error hfirst]
      rfl
  quiet h := by
    have hnil : found = [] := by simpa [Effects.noted] using h
    subst hnil
    have hquiet := congrArg Effects.failedPaths (hw.quiet rfl)
    simp only at hquiet
    rw [hquiet]
    rfl

end Enacts

end CollectionSchema
