import FieldMap.Text.Blank
import FieldMap.Text.Digit
import FieldMap.Text.Word

/-!
# Declarations in a schema text

Three forms are recognised at the start of a line or of a comma-separated part,
each after its surrounding blanks are gone:

* a header, `name :: struct {`, and whatever follows it;
* a field of a body line, `name : type,` or `name : type[digits],`, and whatever
  follows it;
* a field of a header line, the same without the comma and with nothing after it.

Blanks may stand between any two tokens except before a bracket and inside one.
A name or type is a run of word characters taken as long as possible, and no
other token begins with a word character, so that no form can be read in two ways.
-/

namespace FieldMap
namespace Schema

open Text (isBlank isWord isDigit skipBlank)

/-- What a field declares, its repeat count still as digits. -/
structure Field where
  name : String
  typeName : String
  digits : Option (List Char)
  deriving DecidableEq, Repr

/-- The rest after a fixed text. -/
def literal? : (text : List Char) → List Char → Option (List Char)
  | [], rest => some rest
  | _ :: _, [] => none
  | t :: text, c :: cs => if t == c then literal? text cs else none

/-- The longest word at the start, and the rest. -/
def word? (cs : List Char) : Option (String × List Char) :=
  match cs.span isWord with
  | ([], _) => none
  | (word, rest) => some (String.ofList word, rest)

/-- Digits in brackets at the start, if they are there, and the rest. -/
def bracket (cs : List Char) : Option (List Char) × List Char :=
  match cs with
  | '[' :: inside =>
    match inside.span isDigit with
    | (digit :: digits, ']' :: rest) => (some (digit :: digits), rest)
    | _ => (none, cs)
  | _ => (none, cs)

/-- The name in a struct header, and the text after its brace. -/
def header? (cs : List Char) : Option (String × List Char) := do
  let (name, rest) ← word? cs
  let rest ← literal? [':', ':'] (skipBlank rest)
  let rest ← literal? ['s', 't', 'r', 'u', 'c', 't'] (skipBlank rest)
  let rest ← literal? ['\x7b'] (skipBlank rest)
  some (name, rest)

/-- A field at the start, and the rest. -/
def field? (cs : List Char) : Option (Field × List Char) := do
  let (name, rest) ← word? cs
  let rest ← literal? [':'] (skipBlank rest)
  let (typeName, rest) ← word? (skipBlank rest)
  let (digits, rest) := bracket rest
  some (⟨name, typeName, digits⟩, rest)

/-- The field of a body line, which a comma ends. -/
def bodyField? (cs : List Char) : Option Field :=
  match field? cs with
  | some (field, rest) =>
    match skipBlank rest with
    | ',' :: _ => some field
    | _ => none
  | none => none

/-- The field of a part of a header line, which nothing follows. -/
def inlineField? (cs : List Char) : Option Field :=
  match field? cs with
  | some (field, []) => some field
  | _ => none

end Schema
end FieldMap
