/-!
# UTF-8

Text from its bytes and back.  The decoder also says where ill-formed bytes
begin and how many of them form no character: a sequence ends before the first
byte that cannot continue it, and input that stops inside a sequence has no such
byte.
-/

namespace FieldMap
namespace Text
namespace Utf8

/-- Where bytes stop being text: the offset of the first byte that belongs to no
character, and the number of bytes to be thrown away, which is unknown when the
input ends inside a sequence. -/
structure Fault where
  offset : Nat
  length : Option Nat
  deriving DecidableEq, Repr

/-- The wording of a fault. -/
def Fault.message : Fault → String
  | ⟨offset, some length⟩ => s!"invalid utf-8 sequence of {length} bytes from index {offset}"
  | ⟨offset, none⟩ => s!"incomplete utf-8 byte sequence from index {offset}"

/-- A range of bytes, by its first and its last member. -/
abbrev ByteRange := Nat × Nat

/-- The byte lies in the range. -/
def ByteRange.holds (range : ByteRange) (b : UInt8) : Bool :=
  range.1 ≤ b.toNat && b.toNat ≤ range.2

/-- The bytes that may continue a sequence. -/
def continuation : ByteRange := (0x80, 0xBF)

/-- The ranges of the bytes that follow a first byte; `none` if no sequence
begins with it.  The narrower ranges keep out longer spellings of a character,
the surrogates, and numbers above the last character. -/
def followers? (first : UInt8) : Option (List ByteRange) :=
  let n := first.toNat
  if n ≤ 0x7F then some []
  else if n < 0xC2 then none
  else if n ≤ 0xDF then some [continuation]
  else if n == 0xE0 then some [(0xA0, 0xBF), continuation]
  else if n == 0xED then some [(0x80, 0x9F), continuation]
  else if n ≤ 0xEF then some [continuation, continuation]
  else if n == 0xF0 then some [(0x90, 0xBF), continuation, continuation]
  else if n ≤ 0xF3 then some [continuation, continuation, continuation]
  else if n == 0xF4 then some [(0x80, 0x8F), continuation, continuation]
  else none

/-- The first fault of the bytes.  `start` is the offset of the sequence being
read, `taken` the number of its bytes already read, and `awaited` the ranges of
the ones to come; between two sequences nothing is taken and nothing awaited. -/
def scan (start taken : Nat) : (awaited : List ByteRange) → List UInt8 → Option Fault
  | [], [] => none
  | _ :: _, [] => some ⟨start, none⟩
  | [], b :: rest =>
    match followers? b with
    | none => some ⟨start + taken, some 1⟩
    | some awaited => scan (start + taken) 1 awaited rest
  | range :: awaited, b :: rest =>
    if range.holds b then scan start (taken + 1) awaited rest
    else some ⟨start, some taken⟩

/-- The bytes of a text. -/
def encode (s : String) : List UInt8 :=
  s.toByteArray.data.toList

/-- The text of the bytes, or their first fault. -/
def decode (bytes : List UInt8) : Except Fault String :=
  match String.fromUTF8? ⟨bytes.toArray⟩ with
  | some s => .ok s
  | none => .error ((scan 0 0 [] bytes).getD ⟨bytes.length, none⟩)

theorem decode_encode (s : String) : decode (encode s) = .ok s := by
  have h : (⟨(encode s).toArray⟩ : ByteArray) = s.toByteArray := by simp [encode]
  have hv : s.toByteArray.IsValidUTF8 := s.isValidUTF8
  simp only [decode, h, String.fromUTF8?, hv, dite_true]
  rfl

theorem encode_of_decode {bytes : List UInt8} {s : String} (h : decode bytes = .ok s) :
    encode s = bytes := by
  unfold decode String.fromUTF8? at h
  by_cases hv : (⟨bytes.toArray⟩ : ByteArray).IsValidUTF8
  · simp only [hv, dite_true, Except.ok.injEq] at h
    subst h
    simp [encode, String.fromUTF8]
  · simp [hv] at h

theorem length_encode (s : String) : (encode s).length = s.utf8ByteSize := by
  exact Array.length_toList

end Utf8
end Text
end FieldMap
