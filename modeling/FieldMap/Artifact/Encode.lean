import FieldMap.Artifact.Format
import FieldMap.Mapping
import FieldMap.Text.Utf8

/-!
# Writing a mapping file

Every number of two bytes is a count or a length, so a mapping can be written
exactly when none of them exceeds 65535.  The first excess in the order of the
file is the reason of a refusal; `bytes` is the file when there is none.
-/

namespace FieldMap
namespace Artifact

/-- The parts of a file whose entries are counted. -/
inductive Part
  | sizeTable | propertyList | childList | debugName
  deriving DecidableEq, Repr

/-- The name of a part in messages. -/
def Part.label : Part → String
  | sizeTable => "size table"
  | propertyList => "property list"
  | childList => "child list"
  | debugName => "debug name"

/-- A part with more entries than can be counted. -/
structure Excess where
  part : Part
  count : Nat
  deriving DecidableEq, Repr

/-- The wording of a refusal. -/
def Excess.message (e : Excess) : String :=
  s!"Mapping {e.part.label} has {e.count} entries, more than {maxWord} can be encoded"

/-- The excess of a part with so many entries. -/
def excessOf? (part : Part) (count : Nat) : Option Excess :=
  if count ≤ maxWord then none else some ⟨part, count⟩

/-- The bytes of a name; an absent one is written as the empty one. -/
def nameBytes (name : Option String) : List UInt8 :=
  Text.Utf8.encode (name.getD "")

/-- The excess of a property itself, its children before its name. -/
def ownExcess? (named : Bool) (name : Option String) (children : Forest) : Option Excess :=
  match excessOf? .childList children.length with
  | some excess => some excess
  | none => if named then excessOf? .debugName (name.getD "").utf8ByteSize else none

/-- The first excess among properties, in preorder. -/
def forestExcess? (named : Bool) : Forest → Option Excess
  | .nil => none
  | .cons _ name children siblings =>
    match ownExcess? named name children with
    | some excess => some excess
    | none =>
      match forestExcess? named children with
      | some excess => some excess
      | none => forestExcess? named siblings

/-- The first excess in the order of the file. -/
def excess? (m : Mapping) (named : Bool) : Option Excess :=
  match excessOf? .sizeTable m.sizes.length with
  | some excess => some excess
  | none =>
    match excessOf? .propertyList m.properties.length with
    | some excess => some excess
    | none => forestExcess? named m.properties

/-- A number of two bytes, onto bytes in reverse order. -/
def wordOnto (bytes : List UInt8) (n : Nat) : List UInt8 :=
  highByte n :: lowByte n :: bytes

/-- A name with its length, onto bytes in reverse order. -/
def nameOnto (named : Bool) (bytes : List UInt8) (name : Option String) : List UInt8 :=
  if named then
    let text := nameBytes name
    text.reverseAux (wordOnto bytes text.length)
  else bytes

/-- What stands before the name of a property, onto bytes in reverse order. -/
def headOnto (bytes : List UInt8) (index : UInt16) (children : Forest) : List UInt8 :=
  if children.isEmpty then wordOnto (leafTag :: bytes) index.toNat
  else wordOnto (interiorTag :: bytes) children.length

/-- The bytes of properties, onto bytes in reverse order. -/
def forestOnto (named : Bool) (bytes : List UInt8) : Forest → List UInt8
  | .nil => bytes
  | .cons index name children siblings =>
    forestOnto named (forestOnto named (nameOnto named (headOnto bytes index children) name)
      children) siblings

/-- The bytes of properties. -/
def forestBytes (named : Bool) (f : Forest) : List UInt8 :=
  (forestOnto named [] f).reverse

/-- The byte of flags. -/
def flags (named : Bool) : UInt8 :=
  if named then namesFlag else 0

/-- The bytes of a mapping without excess, with or without its names. -/
def bytes (m : Mapping) (named : Bool) : List UInt8 :=
  let head := wordOnto (flags named :: version :: magic.reverse) m.sizes.length
  let table := wordOnto (m.sizes.reverseAux head) m.properties.length
  (forestOnto named table m.properties).reverse

/-- The mapping file, with or without names. -/
def encode (m : Mapping) (named : Bool) : Except Excess (List UInt8) :=
  match excess? m named with
  | some excess => .error excess
  | none => .ok (bytes m named)

/-! ## What the accumulators stand for -/

/-- The two bytes of a number. -/
def wordBytes (n : Nat) : List UInt8 :=
  [lowByte n, highByte n]

/-- The bytes of a property before its children. -/
def nodeBytes (named : Bool) (index : UInt16) (name : Option String) (children : Forest) :
    List UInt8 :=
  (if children.isEmpty then leafTag :: wordBytes index.toNat
    else interiorTag :: wordBytes children.length) ++
  if named then wordBytes (nameBytes name).length ++ nameBytes name else []

theorem nameOnto_headOnto (named : Bool) (bytes : List UInt8) (index : UInt16)
    (name : Option String) (children : Forest) :
    nameOnto named (headOnto bytes index children) name =
      (nodeBytes named index name children).reverse ++ bytes := by
  cases h : children.isEmpty <;> cases named <;>
    simp [nameOnto, headOnto, nodeBytes, wordOnto, wordBytes, h]

theorem forestOnto_eq (named : Bool) (bytes : List UInt8) (f : Forest) :
    forestOnto named bytes f = (forestBytes named f).reverse ++ bytes := by
  unfold forestBytes
  induction f generalizing bytes with
  | nil => rfl
  | cons index name children siblings ihc ihs =>
    simp only [forestOnto, nameOnto_headOnto]
    rw [ihs, ihc, ihs (forestOnto named ((nodeBytes named index name children).reverse ++ [])
      children), ihc ((nodeBytes named index name children).reverse ++ [])]
    simp

@[simp] theorem forestBytes_nil (named : Bool) : forestBytes named .nil = [] := rfl

/-- A property is followed by its children, and these by its siblings. -/
theorem forestBytes_cons (named : Bool) (index : UInt16) (name : Option String)
    (children siblings : Forest) :
    forestBytes named (.cons index name children siblings) =
      nodeBytes named index name children ++ forestBytes named children ++
        forestBytes named siblings := by
  show (forestOnto named (forestOnto named _ children) siblings).reverse = _
  rw [forestOnto_eq, forestOnto_eq, nameOnto_headOnto]
  simp

/-- The parts of a file in order. -/
theorem bytes_eq (m : Mapping) (named : Bool) :
    bytes m named =
      magic ++ [version, flags named] ++ wordBytes m.sizes.length ++ m.sizes ++
        wordBytes m.properties.length ++ forestBytes named m.properties := by
  simp [bytes, forestOnto_eq, wordOnto, wordBytes]

end Artifact
end FieldMap
