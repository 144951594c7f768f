import FieldMap.Text.Digit
import Mathlib.Data.List.Induction
import Mathlib.Data.Nat.Digits.Defs

/-!
# Numerals

What `asciiNumber?` computes from left to right is the number that the digits write in base
ten, the last of them counting ones: `asciiNumber?_eq_some_iff`.
-/

namespace FieldMap
namespace Text

/-- The ASCII digits, of which there is at least one, write the number in base ten. -/
structure IsNumeral (digits : List Char) (n : Nat) : Prop where
  ne_nil : digits ≠ []
  isDigit : ∀ c ∈ digits, c.isDigit = true
  value : n = Nat.ofDigits 10 (digits.reverse.map fun c => c.toNat - '0'.toNat)

theorem foldl_digits_eq_ofDigits (cs : List Char) :
    cs.foldl (fun value c => 10 * value + (c.toNat - 0x30)) 0 =
      Nat.ofDigits 10 (cs.reverse.map fun c => c.toNat - '0'.toNat) := by
  -- The digit that is read last is the first of the reversed list.
  induction cs using List.reverseRecOn with
  | nil => rfl
  | append_singleton cs c ih =>
      have hzero : '0'.toNat = 0x30 := rfl
      rw [List.foldl_append, ih, List.reverse_append, List.reverse_singleton,
        List.singleton_append, List.map_cons, Nat.ofDigits_cons, hzero]
      simp only [List.foldl_cons, List.foldl_nil]
      omega

theorem asciiNumber?_eq_some_iff {cs : List Char} {n : Nat} :
    asciiNumber? cs = some n ↔ IsNumeral cs n := by
  unfold asciiNumber?
  rw [foldl_digits_eq_ofDigits]
  constructor
  · intro h
    split at h
    · cases h
    · next hdigits =>
        simp only [Bool.or_eq_true, Bool.not_eq_true', not_or, List.isEmpty_iff,
          Bool.not_eq_false, List.all_eq_true] at hdigits
        cases h
        exact ⟨hdigits.1, hdigits.2, rfl⟩
  · rintro ⟨hne, hdigits, rfl⟩
    have hall : cs.all Char.isDigit = true := List.all_eq_true.mpr hdigits
    have hempty : cs.isEmpty = false := List.isEmpty_eq_false_iff.mpr hne
    simp [hall, hempty]

end Text
end FieldMap
