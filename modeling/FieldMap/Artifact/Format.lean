/-!
# The layout of a mapping file

A mapping file begins with the magic bytes `MRMP`, a version byte and a byte of
flags, of which the lowest bit says whether names are present.  A count of sizes
and the sizes follow, then a count of properties and the properties in preorder.
A property is a tag; the index of a leaf, or the number of children; the length
and the bytes of its name if names are present; and its children.  All numbers of
two bytes have their low byte first.
-/

namespace FieldMap
namespace Artifact

/-- The bytes every mapping file begins with. -/
def magic : List UInt8 := [0x4D, 0x52, 0x4D, 0x50]

/-- The only version there is. -/
def version : UInt8 := 1

/-- The flag of names. -/
def namesFlag : UInt8 := 1

/-- The tag of a leaf. -/
def leafTag : UInt8 := 0

/-- The tag of a property with children. -/
def interiorTag : UInt8 := 1

/-- The largest number of two bytes. -/
def maxWord : Nat := 65535

/-- The low byte of a number of two bytes. -/
def lowByte (n : Nat) : UInt8 :=
  UInt8.ofNat (n % 256)

/-- The high byte of a number of two bytes. -/
def highByte (n : Nat) : UInt8 :=
  UInt8.ofNat (n / 256)

/-- The number of two bytes. -/
def word (low high : UInt8) : Nat :=
  low.toNat + 256 * high.toNat

theorem word_le (low high : UInt8) : word low high ≤ maxWord := by
  have hl := low.toNat_lt
  have hh := high.toNat_lt
  unfold word maxWord
  omega

theorem word_bytes {n : Nat} (h : n ≤ maxWord) : word (lowByte n) (highByte n) = n := by
  unfold maxWord at h
  simp only [word, lowByte, highByte, UInt8.toNat_ofNat']
  omega

theorem lowByte_word (low high : UInt8) : lowByte (word low high) = low := by
  apply UInt8.toNat_inj.mp
  have hl := low.toNat_lt
  simp only [word, lowByte, UInt8.toNat_ofNat']
  omega

theorem highByte_word (low high : UInt8) : highByte (word low high) = high := by
  apply UInt8.toNat_inj.mp
  have hl := low.toNat_lt
  have hh := high.toNat_lt
  simp only [word, highByte, UInt8.toNat_ofNat']
  omega

end Artifact
end FieldMap
