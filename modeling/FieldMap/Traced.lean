import FieldMap.Event

/-!
# Computations that report events

A traced computation pairs a result, which may be an error, with the events
reported until then.  Events reported before a failure stay.  Taking the result
is a monad morphism to `Except`, so statements about values need not mention
events, and the events of a sequence are those of its steps one after another.
-/

namespace FieldMap

/-- The events of a computation and what it came to. -/
structure Traced (ε α : Type) where
  events : List Event
  result : Except ε α

namespace Traced

variable {ε ε' α β σ : Type}

/-- The second computation runs only after a success of the first. -/
@[inline] protected def bind (x : Traced ε α) (f : α → Traced ε β) : Traced ε β :=
  match x.result with
  | .ok a =>
    let y := f a
    ⟨x.events ++ y.events, y.result⟩
  | .error e => ⟨x.events, .error e⟩

instance : Monad (Traced ε) where
  pure a := ⟨[], .ok a⟩
  bind := Traced.bind

/-- Reports one event. -/
def report (event : Event) : Traced ε Unit :=
  ⟨[event], .ok ()⟩

/-- Reports several events. -/
def reportAll (events : List Event) : Traced ε Unit :=
  ⟨events, .ok ()⟩

/-- Fails without an event. -/
def fail (e : ε) : Traced ε α :=
  ⟨[], .error e⟩

/-- A computation that reports nothing. -/
def ofExcept (result : Except ε α) : Traced ε α :=
  ⟨[], result⟩

/-- The same computation with its error reworded. -/
def mapError (f : ε → ε') (x : Traced ε α) : Traced ε' α :=
  ⟨x.events, x.result.mapError f⟩

/-- The steps of a fold, with the events of the steps before them newest first. -/
def foldAux (f : σ → α → Traced ε σ) (seen : List Event) (s : σ) : List α → Traced ε σ
  | [] => ⟨seen.reverse, .ok s⟩
  | a :: rest =>
    match f s a with
    | ⟨events, .ok s⟩ => foldAux f (events.reverseAux seen) s rest
    | ⟨events, .error e⟩ => ⟨(events.reverseAux seen).reverse, .error e⟩

/-- Passes a state through the steps for the elements of a list, in order, until
one of them fails. -/
def fold (f : σ → α → Traced ε σ) (s : σ) (items : List α) : Traced ε σ :=
  foldAux f [] s items

@[simp] theorem result_pure (a : α) : (pure a : Traced ε α).result = .ok a := rfl

@[simp] theorem events_pure (a : α) : (pure a : Traced ε α).events = [] := rfl

@[simp] theorem result_report (event : Event) :
    (report event : Traced ε Unit).result = .ok () := rfl

@[simp] theorem result_reportAll (events : List Event) :
    (reportAll events : Traced ε Unit).result = .ok () := rfl

@[simp] theorem result_fail (e : ε) : (fail e : Traced ε α).result = .error e := rfl

@[simp] theorem result_ofExcept (result : Except ε α) : (ofExcept result).result = result := rfl

/-- Taking the result commutes with sequencing. -/
theorem result_bind (x : Traced ε α) (f : α → Traced ε β) :
    (x >>= f).result = x.result >>= fun a => (f a).result := by
  obtain ⟨events, result⟩ := x
  cases result <;> rfl

theorem foldAux_eq (f : σ → α → Traced ε σ) (seen : List Event) (s : σ) (items : List α) :
    foldAux f seen s items =
      ⟨seen.reverse ++ (foldAux f [] s items).events, (foldAux f [] s items).result⟩ := by
  induction items generalizing seen s with
  | nil => simp [foldAux]
  | cons a rest ih =>
    unfold foldAux
    cases f s a with
    | mk events result =>
      cases result with
      | error e => simp
      | ok s' =>
        simp only
        rw [ih (events.reverseAux seen), ih (events.reverseAux [])]
        simp

@[simp] theorem fold_nil (f : σ → α → Traced ε σ) (s : σ) : fold f s [] = pure s := rfl

/-- A fold is its first step followed by the fold of the rest. -/
theorem fold_cons (f : σ → α → Traced ε σ) (s : σ) (a : α) (rest : List α) :
    fold f s (a :: rest) = f s a >>= fun s' => fold f s' rest := by
  show foldAux f [] s (a :: rest) = Traced.bind (f s a) fun s' => foldAux f [] s' rest
  rw [foldAux, Traced.bind]
  cases f s a with
  | mk events result =>
    cases result with
    | error e => simp
    | ok s' =>
      simp only
      rw [foldAux_eq]
      simp

end Traced
end FieldMap
