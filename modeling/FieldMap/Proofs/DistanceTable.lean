import FieldMap.Proofs.EditScripts
import FieldMap.Text.EditDistance

/-!
# The table of distances

The edit distance is computed by rows, each from the row before it, and only the last row is kept.
Every entry belongs to a beginning of each text: `prefixDistance p q` is the least number of edits
from one to the other, and a row holds these numbers for one beginning of the longer text.

* `prefixDistance_concat` is the rule by which an entry follows from the three beside it;
* `nextRow_distances` says that the computed row is the row of a beginning that is longer by one
  character, and `lastRow_eq` that the last row is that of the whole text.

What is left at the end of the last row is the length of a shortest script, and a script can be
read from either end, so it does not matter which text is the longer one.
-/

namespace FieldMap
namespace Text

/-- The least number of edits between two beginnings of texts, which grow at their ends. -/
def prefixDistance (p q : List Char) : Nat :=
  leastEdits p.reverse q.reverse

theorem prefixDistance_nil_left (q : List Char) : prefixDistance [] q = q.length := by
  simp [prefixDistance]

theorem prefixDistance_nil_right (p : List Char) : prefixDistance p [] = p.length := by
  simp [prefixDistance]

theorem prefixDistance_concat (p q : List Char) (x y : Char) :
    prefixDistance (p ++ [x]) (q ++ [y]) =
      min (min (prefixDistance p (q ++ [y]) + 1) (prefixDistance (p ++ [x]) q + 1))
        (prefixDistance p q + exchange x y) := by
  simp [prefixDistance, leastEdits_cons_cons]

theorem isLeast_prefixDistance (p q : List Char) :
    IsLeast {n | Edits n p q} (prefixDistance p q) := by
  have h := isLeast_leastEdits p.reverse q.reverse
  simp only [edits_reverse_iff] at h
  exact h

theorem prefixDistance_comm (p q : List Char) : prefixDistance p q = prefixDistance q p := by
  have h := isLeast_prefixDistance q p
  simp only [edits_comm (a := q)] at h
  exact (isLeast_prefixDistance p q).unique h

/-- The distances from a text to another one that grows from its beginning `q` by the characters
of `xs`, one at a time. -/
def distances (p q : List Char) : (xs : List Char) → List Nat
  | [] => []
  | x :: xs => prefixDistance p (q ++ [x]) :: distances p (q ++ [x]) xs

/-- The distances from a text to all beginnings of another one. -/
def distanceRow (p short : List Char) : List Nat :=
  prefixDistance p [] :: distances p [] short

/-- The rest of a row is computed from the entry to the left of it and from the row above. -/
theorem rowFrom_distances (p : List Char) (c : Char) (q xs : List Char) :
    rowFrom c (prefixDistance (p ++ [c]) q) (prefixDistance p q) xs (distances p q xs) =
      distances (p ++ [c]) q xs := by
  induction xs generalizing q with
  | nil => rfl
  | cons x xs ih =>
      have hentry : min (min (prefixDistance p (q ++ [x]) + 1) (prefixDistance (p ++ [c]) q + 1))
          (prefixDistance p q + if c == x then 0 else 1) =
            prefixDistance (p ++ [c]) (q ++ [x]) :=
        (prefixDistance_concat p q c x).symm
      simp only [distances, rowFrom, hentry, ih]

theorem nextRow_distances (p short : List Char) (c : Char) :
    nextRow short (distanceRow p short) c = distanceRow (p ++ [c]) short := by
  have hcorner : prefixDistance p [] + 1 = prefixDistance (p ++ [c]) [] := by
    simp [prefixDistance_nil_right]
  simp only [distanceRow, nextRow, hcorner, rowFrom_distances]

theorem foldl_nextRow (p short cs : List Char) :
    cs.foldl (nextRow short) (distanceRow p short) = distanceRow (p ++ cs) short := by
  induction cs generalizing p with
  | nil => simp
  | cons c cs ih => simp [nextRow_distances, ih]

/-- In the first row nothing can be done but to insert. -/
theorem distances_nil_left (q xs : List Char) :
    distances [] q xs = List.range' (q.length + 1) xs.length := by
  induction xs generalizing q with
  | nil => rfl
  | cons x xs ih => simp [distances, ih, prefixDistance_nil_left, List.range'_succ]

theorem lastRow_eq (long short : List Char) : lastRow long short = distanceRow long short := by
  have hfirst : List.range (short.length + 1) = distanceRow [] short := by
    rw [distanceRow, distances_nil_left, prefixDistance_nil_right, List.range_eq_range']
    rfl
  rw [lastRow, hfirst, foldl_nextRow, List.nil_append]

theorem getLastD_distances (p q xs : List Char) :
    (prefixDistance p q :: distances p q xs).getLastD 0 = prefixDistance p (q ++ xs) := by
  induction xs generalizing q with
  | nil => simp [distances]
  | cons x xs ih => simpa [distances] using ih (q ++ [x])

theorem getLastD_lastRow (long short : List Char) :
    (lastRow long short).getLastD 0 = prefixDistance long short := by
  rw [lastRow_eq]
  exact getLastD_distances long [] short

theorem editDistance_eq_prefixDistance (a b : List Char) :
    editDistance a b = prefixDistance a b := by
  unfold editDistance
  split
  · exact getLastD_lastRow a b
  · rw [getLastD_lastRow, prefixDistance_comm]

/-- The edit distance is the length of a shortest script.  So it is a metric: it does not depend on
the order of the two texts, it is zero between equal texts and no others, and a detour makes it no
shorter. -/
theorem editDistance_isLeast (a b c : List Char) :
    IsLeast {n | Edits n a b} (editDistance a b) ∧
      editDistance a b = editDistance b a ∧
      (editDistance a b = 0 ↔ a = b) ∧
      editDistance a c ≤ editDistance a b + editDistance b c := by
  simp only [editDistance_eq_prefixDistance]
  have hab := isLeast_prefixDistance a b
  have hbc := isLeast_prefixDistance b c
  have hac := isLeast_prefixDistance a c
  refine ⟨hab, prefixDistance_comm a b, ⟨?_, ?_⟩, ?_⟩
  · intro hzero
    rw [hzero] at hab
    exact edits_zero_iff.mp hab.1
  · intro hsame
    exact Nat.le_zero.mp (hab.2 (edits_zero_iff.mpr hsame))
  · exact hac.2 (hab.1.trans hbc.1)

example : editDistance "kitten".toList "sitting".toList = 3 := by decide

end Text
end FieldMap
