/-!
# Edit distance

The least number of insertions, deletions and substitutions of one character
that turn one text into another.  The table of the distances between prefixes is
kept one row at a time; the rows run along the shorter text.
-/

namespace FieldMap
namespace Text

/-- The rest of a row.  `above` is the row before it from the column of `diagonal`
on, whose first entry is `diagonal` itself; `left` is the entry already computed. -/
def rowFrom (c : Char) (left diagonal : Nat) : List Char → (above : List Nat) → List Nat
  | x :: xs, up :: above =>
    let entry := min (min (up + 1) (left + 1)) (diagonal + if c == x then 0 else 1)
    entry :: rowFrom c entry up xs above
  | _, _ => []

/-- The row that one more character of the longer text adds. -/
def nextRow (short : List Char) (row : List Nat) (c : Char) : List Nat :=
  match row with
  | [] => []
  | corner :: above => (corner + 1) :: rowFrom c (corner + 1) corner short above

/-- The last row of the table. -/
def lastRow (long short : List Char) : List Nat :=
  long.foldl (nextRow short) (List.range (short.length + 1))

/-- The edit distance between two lists of characters. -/
def editDistance (a b : List Char) : Nat :=
  if b.length ≤ a.length then (lastRow a b).getLastD 0 else (lastRow b a).getLastD 0

end Text
end FieldMap
