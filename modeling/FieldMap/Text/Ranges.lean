/-!
# Ranges of characters

A class of characters is written as a list of ranges of character numbers, each
by its first and its last member.
-/

namespace FieldMap
namespace Text

/-- The number lies in one of the ranges. -/
def inRanges (ranges : List (Nat × Nat)) (n : Nat) : Bool :=
  ranges.any fun range => range.1 ≤ n && n ≤ range.2

end Text
end FieldMap
