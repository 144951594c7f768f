import FieldMap.Artifact.Format
import FieldMap.Mapping
import FieldMap.Text.Utf8

/-!
# Reading a mapping file

A reader takes bytes from the front and gives what it read with the rest, so that
what has been read never comes into play again and a reader that succeeds has
consumed exactly the bytes of what it gives.  The indices of properties with
children are not in the file: each is that of its first child.

As in the layout of a struct, the recursion is on the room for further levels, and
a reader for the level below is absent where there is none.  Properties side by
side are read in a loop that counts them down.
-/

namespace FieldMap
namespace Artifact

/-- Why bytes are no mapping file. -/
inductive FormatError
  | badMagic
  | unsupportedVersion (version : UInt8)
  | unrecognizedTag (tag : UInt8)
  | endOfFile
  | trailingBytes (count : Nat)
  | invalidName (fault : Text.Utf8.Fault)
  | indexOutOfRange (index : UInt16) (count : Nat)
  | emptyInterior
  | tooDeep
  deriving DecidableEq, Repr

/-- The wording of an error. -/
def FormatError.message : FormatError → String
  | badMagic => "missing MRMP header"
  | unsupportedVersion version => s!"unsupported format version {version.toNat}"
  | unrecognizedTag tag => s!"unrecognized node tag {tag.toNat}"
  | endOfFile => "attempted to read beyond the end of the file"
  | trailingBytes count => s!"{count} unexpected bytes after the property tree"
  | invalidName fault => fault.message
  | indexOutOfRange index count =>
    s!"leaf index {index.toNat} outside size table of {count} entries"
  | emptyInterior => "interior node without children"
  | tooDeep => s!"property tree nests deeper than {maxDepth} levels"

/-- Takes what it reads from the front of the bytes. -/
abbrev Reader (α : Type) := List UInt8 → Except FormatError (α × List UInt8)

/-- So many bytes, onto bytes in reverse order. -/
def takeOnto (taken : List UInt8) : (count : Nat) → Reader (List UInt8)
  | 0, rest => .ok (taken.reverse, rest)
  | _ + 1, [] => .error .endOfFile
  | count + 1, b :: rest => takeOnto (b :: taken) count rest

/-- So many bytes. -/
def take (count : Nat) : Reader (List UInt8) :=
  takeOnto [] count

/-- One byte. -/
def readByte : Reader UInt8
  | [] => .error .endOfFile
  | b :: rest => .ok (b, rest)

/-- A number of two bytes. -/
def readWord : Reader Nat
  | low :: high :: rest => .ok (word low high, rest)
  | _ => .error .endOfFile

/-- A name with its length, if names are present. -/
def readName (named : Bool) : Reader (Option String) := fun bytes =>
  if named then do
    let (length, rest) ← readWord bytes
    let (text, rest) ← take length rest
    match Text.Utf8.decode text with
    | .ok name => .ok (some name, rest)
    | .error fault => .error (.invalidName fault)
  else .ok (none, bytes)

/-- A leaf after its tag, with the entries of the size table that it may point to. -/
def readLeaf (named : Bool) (sizeCount : Nat) : Reader Node := fun bytes => do
  let (index, rest) ← readWord bytes
  if sizeCount ≤ index then
    .error (.indexOutOfRange (UInt16.ofNat index) sizeCount)
  else
    let (name, rest) ← readName named rest
    .ok (⟨UInt16.ofNat index, name, .nil⟩, rest)

/-- A property with children after its tag. -/
def readInterior (named : Bool) (below : Option (Nat → Reader Forest)) : Reader Node :=
  fun bytes => do
    let (count, rest) ← readWord bytes
    if count = 0 then .error .emptyInterior
    else
      match below with
      | none => .error .tooDeep
      | some readChildren =>
        let (name, rest) ← readName named rest
        let (children, rest) ← readChildren count rest
        .ok (⟨children.firstIndex?.getD 0, name, children⟩, rest)

/-- One property. -/
def readNode (named : Bool) (sizeCount : Nat) (below : Option (Nat → Reader Forest)) :
    Reader Node := fun bytes => do
  let (tag, rest) ← readByte bytes
  if tag = leafTag then readLeaf named sizeCount rest
  else if tag = interiorTag then readInterior named below rest
  else .error (.unrecognizedTag tag)

/-- So many more properties side by side, onto properties in reverse order. -/
def readNodesOnto (read : Reader Node) (nodes : List Node) : (count : Nat) → Reader Forest
  | 0, rest => .ok (.ofReversed nodes, rest)
  | count + 1, bytes =>
    match read bytes with
    | .ok (node, rest) => readNodesOnto read (node :: nodes) count rest
    | .error e => .error e

/-- Properties side by side, with room for so many levels of children. -/
def readForest (named : Bool) (sizeCount : Nat) : (room : Nat) → Nat → Reader Forest
  | 0 => readNodesOnto (readNode named sizeCount none) []
  | room + 1 =>
    readNodesOnto (readNode named sizeCount (some (readForest named sizeCount room))) []

/-- The mapping of a whole file. -/
def decode (bytes : List UInt8) : Except FormatError Mapping := do
  let (head, rest) ← take magic.length bytes
  if head ≠ magic then .error .badMagic
  else
    let (found, rest) ← readByte rest
    if found ≠ version then .error (.unsupportedVersion found)
    else
      let (flags, rest) ← readByte rest
      let named := flags &&& namesFlag ≠ 0
      let (sizeCount, rest) ← readWord rest
      let (sizes, rest) ← take sizeCount rest
      let (propertyCount, rest) ← readWord rest
      let (properties, rest) ← readForest named sizes.length maxDepth propertyCount rest
      if rest.isEmpty then .ok ⟨sizes, properties⟩
      else .error (.trailingBytes rest.length)

/-! ## Reading bytes -/

theorem takeOnto_append (taken bytes rest : List UInt8) :
    takeOnto taken bytes.length (bytes ++ rest) = .ok (taken.reverse ++ bytes, rest) := by
  induction bytes generalizing taken with
  | nil => simp [takeOnto]
  | cons b bytes ih =>
    show takeOnto (b :: taken) bytes.length (bytes ++ rest) = _
    rw [ih]
    simp

theorem takeOnto_of_length_lt (taken bytes : List UInt8) {count : Nat} (h : bytes.length < count) :
    takeOnto taken count bytes = .error .endOfFile := by
  induction bytes generalizing taken count with
  | nil =>
    cases count with
    | zero => simp at h
    | succ count => rfl
  | cons b bytes ih =>
    cases count with
    | zero => simp at h
    | succ count => exact ih (b :: taken) (by simpa using h)

/-- So many bytes can be taken exactly when there are so many. -/
theorem take_eq_ok_iff {count : Nat} {bytes taken rest : List UInt8} :
    take count bytes = .ok (taken, rest) ↔ bytes = taken ++ rest ∧ taken.length = count := by
  unfold take
  constructor
  · intro h
    rcases Nat.lt_or_ge bytes.length count with hlt | hge
    · rw [takeOnto_of_length_lt [] bytes hlt] at h
      cases h
    · have hlen : (bytes.take count).length = count := by simp; omega
      have happ := takeOnto_append [] (bytes.take count) (bytes.drop count)
      rw [hlen, List.take_append_drop, h] at happ
      simp only [List.reverse_nil, List.nil_append, Except.ok.injEq, Prod.mk.injEq] at happ
      obtain ⟨rfl, rfl⟩ := happ
      exact ⟨(List.take_append_drop count bytes).symm, hlen⟩
  · rintro ⟨rfl, rfl⟩
    simpa using takeOnto_append [] taken rest

end Artifact
end FieldMap
