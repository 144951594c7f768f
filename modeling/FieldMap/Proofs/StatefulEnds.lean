import FieldMap.Proofs.StatefulSteps

/-!
# Where computations with a state end

Two statements about a computation that can fail and has a state:

* `Ends`: from states with one property it leads to values and states that are related by another
  one, or to states with a third one if it fails;
* `Keeps`: what is looked at in the state is the same before and after, whatever the outcome.

There is one rule for each way of putting computations together.
-/

namespace FieldMap

/-- From states with the first property the computation leads to a value and a state that are
related by the second one when it succeeds, and to states with the third one when it fails. -/
structure Ends {σ ε α : Type} (before : σ → Prop) (x : ExceptT ε (StateM σ) α)
    (good : α → σ → Prop) (bad : σ → Prop) : Prop where
  ok : ∀ s a next, before s → x.run s = (.ok a, next) → good a next
  error : ∀ s e next, before s → x.run s = (.error e, next) → bad next

/-- What is looked at stays the same. -/
def Keeps {σ τ ε α : Type} (look : σ → τ) (x : ExceptT ε (StateM σ) α) : Prop :=
  ∀ s, look (x.run s).2 = look s

section
variable {σ τ ε ε' α β : Type} {before before' bad bad' late : σ → Prop}
  {good good' between : α → σ → Prop} {last : β → σ → Prop} {look : σ → τ}
  {x : ExceptT ε (StateM σ) α} {f : α → ExceptT ε (StateM σ) β}

theorem Ends.weaken (h : Ends before x good bad) (hbefore : ∀ s, before' s → before s)
    (hgood : ∀ a s, good a s → good' a s) (hbad : ∀ s, bad s → bad' s) :
    Ends before' x good' bad' where
  ok s a next hs hrun := hgood a _ (h.ok s a next (hbefore _ hs) hrun)
  error s e next hs hrun := hbad _ (h.error s e next (hbefore _ hs) hrun)

/-- A fact about values may be used as one. -/
theorem ends_assuming {fact : Prop} (h : fact → Ends before x good bad) :
    Ends (fun s => before s ∧ fact) x good bad where
  ok s a next hs hrun := (h hs.2).ok s a next hs.1 hrun
  error s e next hs hrun := (h hs.2).error s e next hs.1 hrun

/-! ## Sequences -/

theorem Ends.bind (hx : Ends before x between bad)
    (hf : ∀ a, Ends (between a) (f a) last bad) : Ends before (x >>= f) last bad := by
  constructor
  · intro s b final hs hrun
    obtain ⟨a, next, hfirst, hrest⟩ := run_bind_eq_ok_iff.mp hrun
    exact (hf a).ok next b final (hx.ok s a next hs hfirst) hrest
  · intro s e final hs hrun
    rcases run_bind_eq_error_iff.mp hrun with hfirst | ⟨a, next, hfirst, hrest⟩
    · exact hx.error s e final hs hfirst
    · exact (hf a).error next e final (hx.ok s a next hs hfirst) hrest

/-- What follows a computation may look at its failure. -/
theorem Ends.attempt {x : ExceptT ε' (StateM σ) α} {f : Except ε' α → ExceptT ε (StateM σ) β}
    (hx : Ends before x between late) (hok : ∀ a, Ends (between a) (f (.ok a)) last bad)
    (herror : ∀ e, Ends late (f (.error e)) last bad) :
    Ends before (ExceptT.lift x.run >>= f) last bad := by
  have hbind (s : σ) : (ExceptT.lift x.run >>= f).run s = (f (x.run s).1).run (x.run s).2 :=
    run_bind_of_ok (run_lift x.run s)
  constructor
  · intro s b final hs hrun
    rw [hbind] at hrun
    rcases hfirst : x.run s with ⟨e | a, next⟩
    · rw [hfirst] at hrun
      exact (herror e).ok next b final (hx.error s e next hs hfirst) hrun
    · rw [hfirst] at hrun
      exact (hok a).ok next b final (hx.ok s a next hs hfirst) hrun
  · intro s e' final hs hrun
    rw [hbind] at hrun
    rcases hfirst : x.run s with ⟨e | a, next⟩
    · rw [hfirst] at hrun
      exact (herror e).error next e' final (hx.error s e next hs hfirst) hrun
    · rw [hfirst] at hrun
      exact (hok a).error next e' final (hx.ok s a next hs hfirst) hrun

theorem Keeps.bind (hx : Keeps look x) (hf : ∀ a, Keeps look (f a)) : Keeps look (x >>= f) := by
  intro s
  rcases hfirst : x.run s with ⟨e | a, next⟩
  · rw [run_bind_of_error hfirst]
    exact (congrArg (look ∘ Prod.snd) hfirst).symm.trans (hx s)
  · rw [run_bind_of_ok hfirst]
    exact (hf a next).trans ((congrArg (look ∘ Prod.snd) hfirst).symm.trans (hx s))

/-- What is looked at stays the same, so what holds of it does. -/
theorem Keeps.ends (hx : Keeps look x) (held : τ → Prop) :
    Ends (fun s => held (look s)) x (fun _ s => held (look s)) fun s => held (look s) := by
  constructor
  · intro s a next hs hrun
    have hkept := hx s
    rw [hrun] at hkept
    exact hkept.symm ▸ hs
  · intro s e next hs hrun
    have hkept := hx s
    rw [hrun] at hkept
    exact hkept.symm ▸ hs

theorem Keeps.of_run {outcome : Except ε α} {s next : σ} (hx : Keeps look x)
    (h : x.run s = (outcome, next)) : look next = look s := by
  have hkept := hx s
  rwa [h] at hkept

/-- Steps that keep what is looked at may come first, if one of them may be the last. -/
theorem Keeps.bind_ends (hx : Keeps look x) (held : τ → Prop)
    (hbad : ∀ s, held (look s) → bad s) (hf : ∀ a, Ends (fun s => held (look s)) (f a) last bad) :
    Ends (fun s => held (look s)) (x >>= f) last bad :=
  ((hx.ends held).weaken (fun _ hs => hs) (fun _ _ hs => hs) hbad).bind hf

/-! ## Single steps -/

theorem ends_pure (a : α) (h : ∀ s, before s → good a s) :
    Ends before (pure a : ExceptT ε (StateM σ) α) good bad := by
  constructor
  · rintro s _ _ hs ⟨⟩
    exact h _ hs
  · rintro s e next hs ⟨⟩

theorem keeps_pure (a : α) : Keeps look (pure a : ExceptT ε (StateM σ) α) :=
  fun _ => rfl

theorem ends_throw (e : ε) : Ends before (throw e : ExceptT ε (StateM σ) α) good before := by
  constructor
  · rintro s a next hs ⟨⟩
  · rintro s _ _ hs ⟨⟩
    exact hs

theorem keeps_throw (e : ε) : Keeps look (throw e : ExceptT ε (StateM σ) α) :=
  fun _ => rfl

/-- A result that is known already. -/
theorem ends_mk_pure (before : σ → Prop) (result : Except ε α) :
    Ends before (ExceptT.mk (pure result) : ExceptT ε (StateM σ) α)
      (fun a s => before s ∧ result = .ok a) before := by
  constructor
  · intro s a next hs hrun
    obtain ⟨hresult, rfl⟩ := run_mk_pure_eq_ok_iff.mp hrun
    exact ⟨hs, hresult⟩
  · intro s e next hs hrun
    obtain ⟨-, rfl⟩ := run_mk_pure_eq_error_iff.mp hrun
    exact hs

theorem keeps_mk_pure (result : Except ε α) :
    Keeps look (ExceptT.mk (pure result) : ExceptT ε (StateM σ) α) :=
  fun _ => rfl

theorem Ends.adapt (hx : Ends before x good bad) (reword : ε → ε') :
    Ends before (ExceptT.adapt reword x) good bad := by
  constructor
  · intro s a next hs hrun
    exact hx.ok s a next hs (run_adapt_eq_ok_iff.mp hrun)
  · intro s e next hs hrun
    obtain ⟨cause, hfirst, -⟩ := run_adapt_eq_error_iff.mp hrun
    exact hx.error s cause next hs hfirst

theorem Keeps.adapt (hx : Keeps look x) (reword : ε → ε') :
    Keeps look (ExceptT.adapt reword x) := by
  intro s
  rw [run_adapt]
  exact hx s

/-- A computation that cannot fail. -/
theorem ends_lift (y : StateM σ α) :
    Ends before (ExceptT.lift y : ExceptT ε (StateM σ) α)
      (fun a next => ∃ s, before s ∧ y s = (a, next)) bad := by
  constructor
  · rintro s _ _ hs ⟨⟩
    exact ⟨s, hs, rfl⟩
  · rintro s e next hs ⟨⟩

theorem keeps_lift {y : StateM σ α} (hy : ∀ s, look (y s).2 = look s) :
    Keeps look (ExceptT.lift y : ExceptT ε (StateM σ) α) :=
  hy

theorem keeps_perform [Reporting (StateM σ)]
    (hreport : ∀ events s, look ((Reporting.report events : StateM σ Unit) s).2 = look s)
    (x : Traced ε α) : Keeps look (perform x : ExceptT ε (StateM σ) α) :=
  Keeps.bind (keeps_lift (hreport _)) fun _ => keeps_mk_pure _

end

end FieldMap
