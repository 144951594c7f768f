/-!
# Blank characters

The characters that may stand between two tokens and around a line: the ones
Unicode calls white space, which are more than the blanks of ASCII.
-/

namespace FieldMap
namespace Text

/-- A character of white space. -/
def isBlank (c : Char) : Bool :=
  let n := c.toNat
  (0x9 ≤ n && n ≤ 0xD) || n == 0x20 || n == 0x85 || n == 0xA0 || n == 0x1680 ||
    (0x2000 ≤ n && n ≤ 0x200A) || n == 0x2028 || n == 0x2029 || n == 0x202F ||
    n == 0x205F || n == 0x3000

/-- The text from its first character that is not blank. -/
def skipBlank (cs : List Char) : List Char :=
  cs.dropWhile isBlank

/-- The text without the blanks at its ends. -/
def trim (cs : List Char) : List Char :=
  ((skipBlank cs).reverse.dropWhile isBlank).reverse

@[simp] theorem trim_nil : trim [] = [] := rfl

end Text
end FieldMap
