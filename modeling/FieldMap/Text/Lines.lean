/-!
# Pieces and lines

`split` cuts a list at every occurrence of a separator, so that `n` separators
leave `n + 1` pieces.  A separator that ends a text closes its last line instead
of opening an empty one: `lines` leaves that piece out.  Both work on any list,
because lines are read from characters and from bytes.
-/

namespace FieldMap
namespace Text

variable {α : Type} [BEq α]

/-- The pieces between the separators, given the pieces already cut off and the
characters of the current piece, both newest first. -/
def splitAux (sep : α) (done : List (List α)) (piece : List α) : List α → List (List α)
  | [] => (piece.reverse :: done).reverse
  | x :: xs =>
    if x == sep then splitAux sep (piece.reverse :: done) [] xs
    else splitAux sep done (x :: piece) xs

/-- The pieces between the separators. -/
def split (sep : α) (xs : List α) : List (List α) :=
  splitAux sep [] [] xs

/-- The lines that `terminator` ends; the last one need not be ended by it. -/
def lines (terminator : α) (xs : List α) : List (List α) :=
  let pieces := split terminator xs
  if (pieces.getLast?.getD []).isEmpty then pieces.dropLast else pieces

/-- What a separator and a text that may hold more of them add to the pieces cut
off so far does not depend on those pieces. -/
theorem splitAux_eq (sep : α) (done : List (List α)) (piece xs : List α) :
    splitAux sep done piece xs = done.reverse ++ splitAux sep [] piece xs := by
  induction xs generalizing done piece with
  | nil => simp [splitAux]
  | cons x xs ih =>
    unfold splitAux
    split
    · rw [ih (piece.reverse :: done), ih [piece.reverse]]; simp
    · exact ih done (x :: piece)

theorem splitAux_eq_splitOnPPrepend (sep : α) (piece xs : List α) :
    splitAux sep [] piece xs = List.splitOnPPrepend (· == sep) xs piece := by
  induction xs generalizing piece with
  | nil => rfl
  | cons x xs ih =>
    rw [List.splitOnPPrepend_cons_eq_if, ← ih, splitAux]
    split
    · rw [splitAux_eq]
      exact congrArg (piece.reverse :: ·) (ih [])
    · rfl

/-- The pieces are those of the standard library. -/
theorem split_eq_splitOn (sep : α) (xs : List α) : split sep xs = xs.splitOn sep :=
  splitAux_eq_splitOnPPrepend sep [] xs

end Text
end FieldMap
