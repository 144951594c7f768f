import FieldMap.Schema
import FieldMap.Schema.Declaration
import FieldMap.Text.Lines
import FieldMap.Traced

/-!
# Reading a schema

A schema text is read line by line.  Between structs, lines that are no header
are passed over.  A header opens a body: fields may stand on the header line
itself, up to a closing brace if there is one, and otherwise go on line by line.
The body ends at the first line that is no field, and that line is looked at
again as a line between structs, so it may open the next one.  A body that ends
otherwise than at a closing brace is kept and reported.

Three things are errors, and the first of them in reading order is the result:
two structs of one name, two members of one name in a struct, and a repeat count
that is zero or does not fit in 32 bits.
-/

namespace FieldMap

/-- What is wrong with a schema. -/
inductive SchemaFault
  | duplicateStruct (name : String)
  | zeroCount (member : String)
  | countTooLarge (digits member : String)
  | duplicateMember (member structName : String)
  deriving DecidableEq, Repr

/-- The wording of a fault. -/
def SchemaFault.message : SchemaFault → String
  | duplicateStruct name => s!"Duplicate struct '{name}'"
  | zeroCount member => s!"Repeat count of '{member}' must be at least 1"
  | countTooLarge digits member => s!"Repeat count '{digits}' of '{member}' is too large"
  | duplicateMember member structName => s!"Duplicate member '{member}' in struct '{structName}'"

/-- A fault and the line it is on. -/
structure ParseError where
  file : String
  line : Nat
  /-- The line without the blanks around it. -/
  text : String
  fault : SchemaFault
  deriving DecidableEq, Repr

/-- The wording of an error, with its place. -/
def ParseError.message (e : ParseError) : String :=
  s!"Parse error in {e.file}:{e.line}\n    {e.text}\n{e.fault.message}"

namespace Schema

/-- The largest repeat count. -/
def maxRepeat : Nat := 4294967295

/-- The value of bracketed digits.  Only ASCII digits have one here, so digits of
other scripts are refused as the numbers that do not fit are. -/
def readCount (member : String) : Option (List Char) → Except SchemaFault (Option Nat)
  | none => .ok none
  | some digits =>
    match Text.asciiNumber? digits with
    | some value =>
      if value == 0 then .error (.zeroCount member)
      else if value ≤ maxRepeat then .ok (some value)
      else .error (.countTooLarge (String.ofList digits) member)
    | none => .error (.countTooLarge (String.ofList digits) member)

/-- A struct whose body is being read. -/
structure Body where
  name : String
  line : Nat
  /-- The members read so far, newest first. -/
  members : List Member := []
  deriving DecidableEq, Repr

namespace Body

/-- The struct as it stands. -/
def toStruct (body : Body) : Struct :=
  ⟨body.name, body.line, body.members.reverse⟩

/-- Adds a declared field; the count is looked at before the name. -/
def add (body : Body) (line : Nat) (field : Field) : Except SchemaFault Body :=
  match readCount field.name field.digits with
  | .error fault => .error fault
  | .ok count =>
    if body.members.any (·.name == field.name) then
      .error (.duplicateMember field.name body.name)
    else
      .ok { body with members := ⟨field.name, field.typeName, count, line⟩ :: body.members }

/-- Adds the fields of a header line as far as they are well formed, and gives the
first part that is none. -/
def addInline (body : Body) : List (List Char) → Except SchemaFault (Body × Option (List Char))
  | [] => .ok (body, none)
  | part :: parts =>
    match inlineField? part with
    | none => .ok (body, some part)
    | some field =>
      match body.add body.line field with
      | .error fault => .error fault
      | .ok body => addInline body parts

end Body

/-- The parts of a header line between commas, without blanks and empty parts. -/
def inlineParts (cs : List Char) : List (List Char) :=
  ((Text.split ',' cs).map Text.trim).filter (!·.isEmpty)

/-- How far the lines have been read. -/
structure Scan where
  /-- The structs read so far, newest first. -/
  structs : List Struct := []
  /-- The body that the next line may go on with. -/
  body : Option Body := none
  deriving DecidableEq, Repr

/-- Reports a struct that is complete. -/
def reportStruct (s : Struct) : List Event :=
  .structParsed s.name s.members.length ::
    s.members.map fun member => .memberParsed member.name member.typeName member.count

/-- Ends a body. -/
def closeBody (structs : List Struct) (body : Body) : Traced ParseError Scan := do
  let s := body.toStruct
  Traced.reportAll (reportStruct s)
  pure ⟨s :: structs, none⟩

/-- A line between two structs. -/
def outerLine (file : String) (structs : List Struct) (number : Nat) (text : List Char) :
    Traced ParseError Scan :=
  let failWith (fault : SchemaFault) : Traced ParseError Scan :=
    Traced.fail ⟨file, number, String.ofList text, fault⟩
  match header? text with
  | none => pure ⟨structs, none⟩
  | some (name, rest) =>
    if structs.any (·.name == name) then failWith (.duplicateStruct name)
    else
      let (inside, brace) := rest.span (· != '\x7d')
      match Body.addInline ⟨name, number, []⟩ (inlineParts inside) with
      | .error fault => failWith fault
      | .ok (body, some part) => do
        Traced.report (.bodyEndsAtField file number name (String.ofList part))
        closeBody structs body
      | .ok (body, none) =>
        if brace.isEmpty then pure ⟨structs, some body⟩ else closeBody structs body

/-- One line, without the blanks around it, and its number. -/
def scanLine (file : String) (scan : Scan) (line : List Char × Nat) : Traced ParseError Scan :=
  let (text, number) := line
  match scan.body with
  | none => outerLine file scan.structs number text
  | some body =>
    match bodyField? text with
    | some field =>
      match body.add number field with
      | .ok body => pure ⟨scan.structs, some body⟩
      | .error fault => Traced.fail ⟨file, number, String.ofList text, fault⟩
    | none => do
      unless text.head? == some '\x7d' do
        Traced.report
          (.bodyEndsAtLine file number body.name (String.ofList text) body.members.length)
      let scan ← closeBody scan.structs body
      outerLine file scan.structs number text

/-- The end of the text. -/
def finish (file : String) (scan : Scan) : Traced ParseError (List Struct) :=
  match scan.body with
  | none => pure scan.structs.reverse
  | some body => do
    Traced.report (.bodyNotClosed file body.name)
    let scan ← closeBody scan.structs body
    pure scan.structs.reverse

/-- The lines of a text without the blanks around them, with their numbers from 1. -/
def numberedLines (source : String) : List (List Char × Nat) :=
  ((Text.lines '\n' source.toList).map Text.trim).zipIdx 1

/-- The structs that a text declares, in order.  `file` names the text in messages. -/
def parse (source : String) (file : String := "<schema>") : Traced ParseError (List Struct) := do
  let scan ← Traced.fold (scanLine file) {} (numberedLines source)
  finish file scan

end Schema
end FieldMap
