import FieldMap.Traced

/-!
# Outcomes of sequences

How the outcome of a computation in several steps comes out of those of its steps, for
plain results and for the results of traced computations.
-/

namespace FieldMap

section
variable {ε α β : Type} {x : Except ε α}

theorem ok_bind (a : α) (f : α → Except ε β) : (Except.ok a >>= f) = f a :=
  rfl

theorem error_bind (e : ε) (f : α → Except ε β) : (Except.error e >>= f) = .error e :=
  rfl

theorem bind_eq_ok_iff {f : α → Except ε β} {b : β} :
    (x >>= f) = .ok b ↔ ∃ a, x = .ok a ∧ f a = .ok b := by
  cases x with
  | error e => simp [error_bind]
  | ok a => simp [ok_bind]

theorem map_eq_ok_iff {f : α → β} {b : β} : x.map f = .ok b ↔ ∃ a, x = .ok a ∧ f a = b := by
  cases x with
  | error e => simp [Except.map]
  | ok a => simp [Except.map]

theorem bind_eq_error_iff {f : α → Except ε β} {e : ε} :
    (x >>= f) = .error e ↔ x = .error e ∨ ∃ a, x = .ok a ∧ f a = .error e := by
  cases x with
  | error e' => simp [error_bind]
  | ok a => simp [ok_bind]

theorem map_eq_error_iff {f : α → β} {e : ε} : x.map f = .error e ↔ x = .error e := by
  cases x with
  | error e' => simp [Except.map]
  | ok a => simp [Except.map]

end

namespace Traced

variable {ε α β σ : Type}

theorem bind_eq_ok_iff {x : Traced ε α} {f : α → Traced ε β} {b : β} :
    (x >>= f).result = .ok b ↔ ∃ a, x.result = .ok a ∧ (f a).result = .ok b := by
  rw [result_bind, FieldMap.bind_eq_ok_iff]

/-- A fold with something to follow it goes on after its first step. -/
theorem result_fold_cons_bind (f : σ → α → Traced ε σ) (s : σ) (a : α) (rest : List α)
    (finish : σ → Traced ε β) :
    (fold f s (a :: rest) >>= finish).result =
      (f s a).result >>= fun next => (fold f next rest >>= finish).result := by
  rw [fold_cons, result_bind, result_bind]
  cases (f s a).result with
  | error e => rfl
  | ok next => rw [ok_bind, ok_bind, result_bind]

/-- What every step of a fold keeps, a fold that succeeds keeps. -/
theorem fold_induction {f : σ → α → Traced ε σ} {items : List α} (motive : σ → Prop)
    (hstep : ∀ s a s', motive s → (f s a).result = .ok s' → motive s') {s s' : σ}
    (hfold : (fold f s items).result = .ok s') (hs : motive s) : motive s' := by
  induction items generalizing s with
  | nil =>
      cases hfold
      exact hs
  | cons a rest ih =>
      rw [fold_cons, bind_eq_ok_iff] at hfold
      obtain ⟨next, hnext, hrest⟩ := hfold
      exact ih hrest (hstep s a next hs hnext)

end Traced
end FieldMap
