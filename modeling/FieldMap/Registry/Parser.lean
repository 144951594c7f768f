import FieldMap.Registry
import FieldMap.Text.Blank
import FieldMap.Text.Digit
import FieldMap.Text.Lines
import FieldMap.Traced

/-!
# Registry files

A registry file is a sequence of blocks, each of which declares one primitive:

    // two packed halves
    prim vec2h
      size 4
    end

Blanks around a line do not matter, and empty lines and lines that begin with two
slashes are left out before anything else is looked at.  The last `size` line of a
block counts.  A block takes effect at its `end`, so when a file is refused the
blocks before the refused one have been added.
-/

namespace FieldMap

/-- What is wrong with a registry, or with a registry file. -/
inductive RegistryError
  | unexpectedLine (file : String) (line : Nat) (text : String)
  | invalidSize (file : String) (line : Nat) (text : String)
  | missingEnd (name file : String) (line : Nat)
  | missingSize (name file : String)
  | duplicateName (name file : String)
  | unreadable (file reason : String)
  | alreadyInstalled
  deriving DecidableEq, Repr

/-- The wording of an error. -/
def RegistryError.message : RegistryError → String
  | unexpectedLine file line text => s!"Unexpected line in {file}:{line}: {text}"
  | invalidSize file line text => s!"Invalid size in {file}:{line}: {text}"
  | missingEnd name file line =>
    s!"Missing 'end' for primitive '{name}' declared at {file}:{line}"
  | missingSize name file => s!"Missing 'size' field for primitive '{name}' in {file}"
  | duplicateName name file => s!"Duplicate primitive name '{name}' in {file}"
  | unreadable file reason => s!"Failed to read primitive registry {file}: {reason}"
  | alreadyInstalled => "Primitive registry was already initialized"

namespace Registry

/-- The rest of a line after a keyword and a space. -/
def keyword? : (word : List Char) → List Char → Option (List Char)
  | [], ' ' :: rest => some rest
  | w :: word, c :: cs => if w == c then keyword? word cs else none
  | _, _ => none

/-- The largest size. -/
def maxSize : Nat := 4294967295

/-- The value of a size: ASCII digits, perhaps after a plus sign, for a positive
number that fits in 32 bits. -/
def readSize? (cs : List Char) : Option Nat := do
  let digits := match cs with
    | '+' :: digits => digits
    | digits => digits
  let size ← Text.asciiNumber? digits
  if 0 < size ∧ size ≤ maxSize then some size else none

/-- A block that has not ended. -/
structure Block where
  name : String
  line : Nat
  size : Option Nat := none
  deriving DecidableEq, Repr

/-- How far the lines have been read. -/
structure Progress where
  registry : Registry
  block : Option Block := none
  deriving DecidableEq, Repr

/-- A refused file: the registry with the blocks before the refused one, and the
reason. -/
structure Refusal where
  registry : Registry
  error : RegistryError
  deriving DecidableEq, Repr

/-- The line holds neither a keyword nor anything unexpected. -/
def isSkipped : List Char → Bool
  | [] => true
  | '/' :: '/' :: _ => true
  | _ => false

/-- Ends a block: its primitive is added under a name that must be free. -/
def closeBlock (file : String) (registry : Registry) (block : Block) :
    Traced Refusal Progress :=
  match block.size with
  | none => Traced.fail ⟨registry, .missingSize block.name file⟩
  | some size =>
    if registry.contains block.name then
      Traced.fail ⟨registry, .duplicateName block.name file⟩
    else do
      Traced.report (.primitiveRegistered block.name size file)
      pure ⟨registry.add ⟨block.name, size⟩, none⟩

/-- One line that is not skipped, without the blanks around it, and its number. -/
def readLine (file : String) (progress : Progress) (line : List Char × Nat) :
    Traced Refusal Progress :=
  let (text, number) := line
  let unexpected : Traced Refusal Progress :=
    Traced.fail ⟨progress.registry, .unexpectedLine file number (String.ofList text)⟩
  match progress.block with
  | none =>
    match keyword? ['p', 'r', 'i', 'm'] text with
    | some rest =>
      pure { progress with block := some ⟨String.ofList (Text.trim rest), number, none⟩ }
    | none => unexpected
  | some block =>
    if text = ['e', 'n', 'd'] then closeBlock file progress.registry block
    else
      match keyword? ['s', 'i', 'z', 'e'] text with
      | none => unexpected
      | some rest =>
        let digits := Text.trim rest
        match readSize? digits with
        | some size => pure { progress with block := some { block with size := some size } }
        | none =>
          Traced.fail ⟨progress.registry, .invalidSize file number (String.ofList digits)⟩

/-- The end of the file, which must not fall inside a block. -/
def finish (file : String) (progress : Progress) : Traced Refusal Registry :=
  match progress.block with
  | none => pure progress.registry
  | some block => Traced.fail ⟨progress.registry, .missingEnd block.name file block.line⟩

/-- The lines that matter, without the blanks around them, with their numbers from 1. -/
def numberedLines (content : String) : List (List Char × Nat) :=
  (((Text.lines '\n' content.toList).map Text.trim).zipIdx 1).filter fun line =>
    !isSkipped line.1

/-- The registry with the primitives that a file declares. -/
def parse (registry : Registry) (content file : String) : Traced Refusal Registry := do
  let progress ← Traced.fold (readLine file) ⟨registry, none⟩ (numberedLines content)
  finish file progress

end Registry
end FieldMap
