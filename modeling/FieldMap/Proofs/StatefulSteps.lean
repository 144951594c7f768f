import FieldMap.Reporting

/-!
# Steps of a computation with a state

A computation that can fail and has a state comes to an outcome and a state.  What a sequence
comes to is told from its first step: `run_bind_of_ok` and `run_bind_of_error` follow a step that
is known, `run_bind_eq_ok_iff` takes a success apart into those of the steps and
`run_bind_eq_error_iff` finds the step that has failed.
-/

namespace FieldMap

section
variable {σ ε ε' α β : Type} {s next : σ}

theorem bind_of_eq {x : StateM σ α} {f : α → StateM σ β} {a : α} (hx : x s = (a, next)) :
    (x >>= f) s = f a next := by
  show StateT.bind x f s = f a next
  rw [StateT.bind, hx]
  rfl

theorem run_bind_of_ok {x : ExceptT ε (StateM σ) α} {f : α → ExceptT ε (StateM σ) β} {a : α}
    (hx : x.run s = (.ok a, next)) : (x >>= f).run s = (f a).run next := by
  show StateT.bind x.run (ExceptT.bindCont f) s = (f a).run next
  rw [StateT.bind, hx]
  rfl

theorem run_bind_of_error {x : ExceptT ε (StateM σ) α} {f : α → ExceptT ε (StateM σ) β} {e : ε}
    (hx : x.run s = (.error e, next)) : (x >>= f).run s = (.error e, next) := by
  show StateT.bind x.run (ExceptT.bindCont f) s = (.error e, next)
  rw [StateT.bind, hx]
  rfl

/-- A sequence succeeds when its first step does, and then what follows does. -/
theorem run_bind_eq_ok_iff {x : ExceptT ε (StateM σ) α} {f : α → ExceptT ε (StateM σ) β} {b : β}
    {last : σ} : (x >>= f).run s = (.ok b, last) ↔
      ∃ a next, x.run s = (.ok a, next) ∧ (f a).run next = (.ok b, last) := by
  rcases hx : x.run s with ⟨e | a, next⟩
  · rw [run_bind_of_error hx]
    constructor
    · intro h
      cases h
    · rintro ⟨_, _, h, _⟩
      cases h
  · rw [run_bind_of_ok hx]
    constructor
    · intro h
      exact ⟨a, next, rfl, h⟩
    · rintro ⟨_, _, h, hrest⟩
      cases h
      exact hrest

/-- A sequence fails when its first step does, or when what follows it does. -/
theorem run_bind_eq_error_iff {x : ExceptT ε (StateM σ) α} {f : α → ExceptT ε (StateM σ) β}
    {e : ε} {last : σ} : (x >>= f).run s = (.error e, last) ↔
      x.run s = (.error e, last) ∨
        ∃ a next, x.run s = (.ok a, next) ∧ (f a).run next = (.error e, last) := by
  rcases hx : x.run s with ⟨e' | a, next⟩
  · rw [run_bind_of_error hx]
    constructor
    · intro h
      cases h
      exact .inl rfl
    · rintro (h | ⟨_, _, h, _⟩)
      · cases h
        rfl
      · cases h
  · rw [run_bind_of_ok hx]
    constructor
    · intro h
      exact .inr ⟨a, next, rfl, h⟩
    · rintro (h | ⟨_, _, h, hrest⟩)
      · cases h
      · cases h
        exact hrest

theorem run_adapt (reword : ε → ε') (x : ExceptT ε (StateM σ) α) (s : σ) :
    (ExceptT.adapt reword x).run s = ((x.run s).1.mapError reword, (x.run s).2) :=
  rfl

theorem run_adapt_of_ok {x : ExceptT ε (StateM σ) α} {a : α} (reword : ε → ε')
    (hx : x.run s = (.ok a, next)) : (ExceptT.adapt reword x).run s = (.ok a, next) := by
  rw [run_adapt, hx]
  rfl

/-- Rewording an error makes no success and loses none. -/
theorem run_adapt_eq_ok_iff {x : ExceptT ε (StateM σ) α} {a : α} {reword : ε → ε'} :
    (ExceptT.adapt reword x).run s = (.ok a, next) ↔ x.run s = (.ok a, next) := by
  rw [run_adapt]
  rcases x.run s with ⟨e | found, here⟩
  · constructor
    · rintro ⟨⟩
    · rintro ⟨⟩
  · constructor
    · rintro ⟨⟩
      rfl
    · rintro ⟨⟩
      rfl

theorem run_adapt_eq_error_iff {x : ExceptT ε (StateM σ) α} {e' : ε'} {reword : ε → ε'} :
    (ExceptT.adapt reword x).run s = (.error e', next) ↔
      ∃ e, x.run s = (.error e, next) ∧ e' = reword e := by
  rw [run_adapt]
  rcases x.run s with ⟨e | found, here⟩
  · constructor
    · rintro ⟨⟩
      exact ⟨e, rfl, rfl⟩
    · rintro ⟨_, h, rfl⟩
      cases h
      rfl
  · constructor
    · rintro ⟨⟩
    · rintro ⟨_, h, _⟩
      cases h

theorem run_lift (x : StateM σ α) (s : σ) :
    (ExceptT.lift x : ExceptT ε (StateM σ) α).run s = (.ok (x s).1, (x s).2) :=
  rfl

/-- The events of a traced computation are reported, whatever its result is. -/
theorem run_perform [Reporting (StateM σ)] (x : Traced ε α) (s : σ) :
    (perform x : ExceptT ε (StateM σ) α).run s =
      (x.result, ((Reporting.report x.events : StateM σ Unit) s).2) :=
  rfl

/-- A result that is known already leaves the state as it is. -/
theorem run_mk_pure_eq_ok_iff {result : Except ε α} {a : α} :
    (ExceptT.mk (pure result) : ExceptT ε (StateM σ) α).run s = (.ok a, next) ↔
      result = .ok a ∧ next = s := by
  show (result, s) = (.ok a, next) ↔ _
  rw [Prod.mk.injEq, eq_comm (a := s)]

theorem run_mk_pure_eq_error_iff {result : Except ε α} {e : ε} :
    (ExceptT.mk (pure result) : ExceptT ε (StateM σ) α).run s = (.error e, next) ↔
      result = .error e ∧ next = s := by
  show (result, s) = (.error e, next) ↔ _
  rw [Prod.mk.injEq, eq_comm (a := s)]

end

end FieldMap
