import Mathlib.Order.Bounds.Basic

/-!
# Edit scripts

An edit inserts, deletes or replaces one character anywhere in a text, and a script is a number
of edits, one after another.  `leastEdits` looks at the first characters of two texts only, at
what is left when one of them or both are taken away, and yet no script does better:

* `leastEdits_le_of_edit` says that one edit changes the value by one at most, whatever the other
  text is, so that a script is at least as long as the value it starts from;
* `edits_leastEdits` gives a script of that length.

Together they are `isLeast_leastEdits`.
-/

namespace FieldMap
namespace Text

/-- One character is inserted, deleted or replaced. -/
inductive Edit : List Char → List Char → Prop
  | insertion (front back : List Char) (c : Char) : Edit (front ++ back) (front ++ c :: back)
  | deletion (front back : List Char) (c : Char) : Edit (front ++ c :: back) (front ++ back)
  | substitution (front back : List Char) (c d : Char) :
      Edit (front ++ c :: back) (front ++ d :: back)

/-- So many edits, one after another, turn the first text into the second. -/
inductive Edits : Nat → List Char → List Char → Prop
  | none (a : List Char) : Edits 0 a a
  | step {n : Nat} {a b c : List Char} (first : Edit a b) (rest : Edits n b c) : Edits (n + 1) a c

section
variable {a b c : List Char} {m n : Nat}

theorem Edit.symm (h : Edit a b) : Edit b a := by
  cases h with
  | insertion front back c => exact .deletion front back c
  | deletion front back c => exact .insertion front back c
  | substitution front back c d => exact .substitution front back d c

theorem Edit.cons (h : Edit a b) (x : Char) : Edit (x :: a) (x :: b) := by
  cases h with
  | insertion front back c => exact .insertion (x :: front) back c
  | deletion front back c => exact .deletion (x :: front) back c
  | substitution front back c d => exact .substitution (x :: front) back c d

theorem Edit.reverse (h : Edit a b) : Edit a.reverse b.reverse := by
  cases h with
  | insertion front back c => simpa using Edit.insertion back.reverse front.reverse c
  | deletion front back c => simpa using Edit.deletion back.reverse front.reverse c
  | substitution front back c d => simpa using Edit.substitution back.reverse front.reverse c d

/-- What can be done to every text between two edits can be done to a whole script. -/
theorem Edits.map {f : List Char → List Char} (hf : ∀ {a b}, Edit a b → Edit (f a) (f b))
    (h : Edits n a b) : Edits n (f a) (f b) := by
  induction h with
  | none a => exact .none (f a)
  | step first _ ih => exact .step (hf first) ih

theorem Edits.trans (hab : Edits m a b) (hbc : Edits n b c) : Edits (m + n) a c := by
  induction hab with
  | none a => simpa using hbc
  | step first _ ih =>
      rw [Nat.add_right_comm]
      exact .step first (ih hbc)

theorem Edits.symm (h : Edits n a b) : Edits n b a := by
  induction h with
  | none a => exact .none a
  | step first _ ih => exact ih.trans (.step first.symm (.none _))

theorem edits_reverse_iff : Edits n a.reverse b.reverse ↔ Edits n a b := by
  constructor
  · intro h
    simpa using h.map Edit.reverse
  · exact fun h => h.map Edit.reverse

theorem edits_comm : Edits n a b ↔ Edits n b a :=
  ⟨Edits.symm, Edits.symm⟩

theorem edits_zero_iff : Edits 0 a b ↔ a = b := by
  constructor
  · rintro ⟨⟩
    rfl
  · rintro rfl
    exact .none a

end

/-- What it costs to have the second character where the first one is. -/
def exchange (x y : Char) : Nat :=
  if x == y then 0 else 1

/-- The least number of edits that turn the first text into the second. -/
def leastEdits : List Char → List Char → Nat
  | [], b => b.length
  | a, [] => a.length
  | x :: a, y :: b =>
      min (min (leastEdits a (y :: b) + 1) (leastEdits (x :: a) b + 1))
        (leastEdits a b + exchange x y)
termination_by a b => a.length + b.length

@[simp] theorem leastEdits_nil_left (b : List Char) : leastEdits [] b = b.length := by
  rw [leastEdits]

@[simp] theorem leastEdits_nil_right (a : List Char) : leastEdits a [] = a.length := by
  cases a <;> simp [leastEdits]

theorem leastEdits_cons_cons (x y : Char) (a b : List Char) :
    leastEdits (x :: a) (y :: b) =
      min (min (leastEdits a (y :: b) + 1) (leastEdits (x :: a) b + 1))
        (leastEdits a b + exchange x y) := by
  rw [leastEdits]

theorem exchange_self (x : Char) : exchange x x = 0 := by
  simp [exchange]

theorem exchange_le (x y : Char) : exchange x y ≤ 1 := by
  unfold exchange
  split <;> omega

theorem exchange_triangle (x y z : Char) : exchange x z ≤ exchange x y + exchange y z := by
  by_cases hxy : x = y
  · subst hxy
    simp [exchange_self]
  · have hother : exchange x y = 1 := by simp [exchange, hxy]
    have hone := exchange_le x z
    omega

/-! ## No script is shorter -/

theorem leastEdits_self (a : List Char) : leastEdits a a = 0 := by
  induction a with
  | nil => simp
  | cons x a ih =>
      rw [leastEdits_cons_cons, ih, exchange_self]
      omega

/-- Without its first character the first text is one edit further away at most. -/
theorem leastEdits_cons_left_le (x : Char) (a t : List Char) :
    leastEdits (x :: a) t ≤ leastEdits a t + 1 := by
  cases t with
  | nil => simp
  | cons y t =>
      rw [leastEdits_cons_cons]
      omega

theorem leastEdits_cons_right_le (y : Char) (a t : List Char) :
    leastEdits a (y :: t) ≤ leastEdits a t + 1 := by
  cases a with
  | nil => simp
  | cons x a =>
      rw [leastEdits_cons_cons]
      omega

theorem leastEdits_le_cons_left (x : Char) (a t : List Char) :
    leastEdits a t ≤ leastEdits (x :: a) t + 1 := by
  induction t with
  | nil =>
      simp only [leastEdits_nil_right, List.length_cons]
      omega
  | cons y t ih =>
      have hfirst := leastEdits_cons_right_le y a t
      rw [leastEdits_cons_cons]
      omega

/-- Texts that are close to each other remain so when another character is put in front of
each of them, which costs no more than to exchange these characters. -/
theorem leastEdits_cons_le_cons {a b : List Char} {k : Nat}
    (h : ∀ t, leastEdits a t ≤ leastEdits b t + k) (x y : Char) (t : List Char) :
    leastEdits (x :: a) t ≤ leastEdits (y :: b) t + (k + exchange x y) := by
  induction t with
  | nil =>
      have hnil := h []
      simp only [leastEdits_nil_right, List.length_cons] at hnil ⊢
      omega
  | cons z t ih =>
      have hboth := h t
      have hleft := h (z :: t)
      have htriangle := exchange_triangle x y z
      rw [leastEdits_cons_cons, leastEdits_cons_cons]
      omega

/-- One edit changes the distance from any text by one at most. -/
theorem leastEdits_le_of_edit {a b : List Char} (h : Edit a b) (t : List Char) :
    leastEdits a t ≤ leastEdits b t + 1 := by
  -- The characters in front of the place are the same on both sides.
  have hfront {a b : List Char} (front : List Char)
      (hplace : ∀ t, leastEdits a t ≤ leastEdits b t + 1) (t : List Char) :
      leastEdits (front ++ a) t ≤ leastEdits (front ++ b) t + 1 := by
    induction front generalizing t with
    | nil => exact hplace t
    | cons x front ih => simpa [exchange_self] using leastEdits_cons_le_cons ih x x t
  cases h with
  | insertion front back c => exact hfront front (leastEdits_le_cons_left c back) t
  | deletion front back c => exact hfront front (leastEdits_cons_left_le c back) t
  | substitution front back c d =>
      refine hfront front (fun t => ?_) t
      have hsame := leastEdits_cons_le_cons (k := 0) (fun t => le_refl (leastEdits back t)) c d t
      have hone := exchange_le c d
      omega

theorem leastEdits_le_of_edits {a b : List Char} {n : Nat} (h : Edits n a b) :
    leastEdits a b ≤ n := by
  induction h with
  | none a => exact (leastEdits_self a).le
  | @step n a b c first _ ih =>
      have hfirst := leastEdits_le_of_edit first c
      omega

/-! ## A script of this length -/

theorem Edits.cons {a b : List Char} {n : Nat} (h : Edits n a b) (x : Char) :
    Edits n (x :: a) (x :: b) :=
  h.map fun hedit => hedit.cons x

/-- What stands in front may be exchanged before the rest is edited. -/
theorem Edits.exchange {a b : List Char} {n : Nat} (h : Edits n a b) (x y : Char) :
    Edits (n + exchange x y) (x :: a) (y :: b) := by
  unfold Text.exchange
  by_cases hxy : x = y
  · subst hxy
    simpa using h.cons x
  · simpa [hxy] using Edits.step (.substitution [] a x y) (h.cons y)

theorem edits_leastEdits (a b : List Char) : Edits (leastEdits a b) a b := by
  induction a generalizing b with
  | nil =>
      induction b with
      | nil => simpa using Edits.none []
      | cons y b ih => simpa using Edits.step (.insertion [] [] y) (ih.cons y)
  | cons x a iha =>
      induction b with
      | nil => simpa using Edits.step (.deletion [] a x) (iha [])
      | cons y b ihb =>
          have hdeletion : Edits (leastEdits a (y :: b) + 1) (x :: a) (y :: b) :=
            .step (.deletion [] a x) (iha (y :: b))
          have hinsertion : Edits (leastEdits (x :: a) b + 1) (x :: a) (y :: b) :=
            .step (.insertion [] (x :: a) y) (ihb.cons y)
          have hexchange := (iha b).exchange x y
          -- The least of the three is one of them.
          have hleast : leastEdits (x :: a) (y :: b) = leastEdits a (y :: b) + 1 ∨
              leastEdits (x :: a) (y :: b) = leastEdits (x :: a) b + 1 ∨
              leastEdits (x :: a) (y :: b) = leastEdits a b + Text.exchange x y := by
            rw [leastEdits_cons_cons]
            omega
          rcases hleast with h | h | h
          · rwa [h]
          · rwa [h]
          · rwa [h]

/-- The length of a shortest script. -/
theorem isLeast_leastEdits (a b : List Char) : IsLeast {n | Edits n a b} (leastEdits a b) :=
  ⟨edits_leastEdits a b, fun _ h => leastEdits_le_of_edits h⟩

end Text
end FieldMap
