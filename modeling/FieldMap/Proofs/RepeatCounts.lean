import FieldMap.Proofs.ScannedDeclarations

/-!
# Repeat counts

A repeat count stands in brackets as decimal digits of any script, any number of them.  Whether a
field is accepted should depend on the number alone that they write.

* `Text.decimalValue` is this number; leading zeros do not change it.
* `Reached` is a field of a text that the reader comes to, because nothing is wrong with what
  stands before it.  `Reached.faults_eq` says that the text then comes to what is wrong with this
  field, or else to what is wrong with what stands behind it.
* `countFault?_of_ascii`: a count that is written in ASCII digits is judged by its number.

Digits of other scripts are admitted into the brackets, but no number is read from them: whatever
they write, the count is said to be too large.
-/

namespace FieldMap

namespace Text

/-- The number that decimal digits write in base ten, whatever scripts they are of. -/
def decimalValue (digits : List Char) : Nat :=
  Nat.ofDigits 10 (digits.reverse.map fun c => (digitValue? c).getD 0)

/-- ASCII digits are a numeral of their value. -/
theorem isNumeral_decimalValue {digits : List Char} (hne : digits ≠ [])
    (hascii : ∀ c ∈ digits, c.isDigit = true) : IsNumeral digits (decimalValue digits) where
  ne_nil := hne
  isDigit := hascii
  value := by
    rw [decimalValue]
    congr 1
    apply List.map_congr_left
    intro c hc
    simp [digitValue?, hascii c (List.mem_reverse.mp hc)]

theorem asciiNumber?_eq_none {digits : List Char} (h : ∃ c ∈ digits, c.isDigit = false) :
    asciiNumber? digits = none := by
  cases hnumber : asciiNumber? digits with
  | none => rfl
  | some n =>
      obtain ⟨c, hc, hother⟩ := h
      have hdigit := (asciiNumber?_eq_some_iff.mp hnumber).isDigit c hc
      rw [hother] at hdigit
      cases hdigit

end Text

namespace Schema

open Text (isDigit asciiNumber? decimalValue)

/-! ## One count -/

section
variable {field : Field} {digits : List Char} (h : field.digits = some digits)
include h

/-- A count in ASCII digits is judged by its value. -/
theorem countFault?_of_ascii (hne : digits ≠ []) (hascii : ∀ c ∈ digits, c.isDigit = true) :
    countFault? field =
      if decimalValue digits = 0 then some (.zeroCount field.name)
      else if decimalValue digits ≤ 4294967295 then none
      else some (.countTooLarge (String.ofList digits) field.name) := by
  have hnumber : asciiNumber? digits = some (decimalValue digits) :=
    Text.asciiNumber?_eq_some_iff.mpr (Text.isNumeral_decimalValue hne hascii)
  have hmax : maxRepeat = 4294967295 := rfl
  rw [countFault?, h, readCount]
  simp only [hnumber, beq_iff_eq, hmax]
  by_cases hzero : decimalValue digits = 0
  · simp only [if_pos hzero]
  · by_cases hfits : decimalValue digits ≤ 4294967295
    · simp only [if_neg hzero, if_pos hfits]
    · simp only [if_neg hzero, if_neg hfits]

/-- A count with a digit of another script is said to be too large. -/
theorem countFault?_of_not_ascii (hother : ∃ c ∈ digits, c.isDigit = false) :
    countFault? field = some (.countTooLarge (String.ofList digits) field.name) := by
  rw [countFault?, h, readCount]
  simp only [Text.asciiNumber?_eq_none hother]

end

/-! ## A field that is reached -/

/-- A field that the reader of some lines comes to: nothing is wrong with the structs before its
own, with its header, and with the fields before it. -/
structure Reached (lines : List (List Char × Nat)) where
  before : List Declaration
  declaration : Declaration
  after : List Declaration
  declarations_eq : declarations lines = before ++ declaration :: after
  fields : List FieldSite
  site : FieldSite
  later : List FieldSite
  fields_eq : declaration.fields = fields ++ site :: later
  faultless : Faultless (before ++ [{ declaration with fields := fields }])

namespace Reached

variable {source : String} {lines : List (List Char × Nat)}

/-- What is reported if something is wrong with the field. -/
def error (r : Reached lines) (file : String) (fault : SchemaFault) : ParseError :=
  ⟨file, r.site.line, String.ofList r.site.text, fault⟩

/-- The names of the members before the field, newest first. -/
def taken (r : Reached lines) : List String :=
  (r.fields.map (·.field.name)).reverse

/-- Everything that is wrong behind the field, in the order of the text. -/
def faultsBehind (r : Reached lines) (file : String) : List ParseError :=
  fieldFaults file r.declaration.name (r.site.field.name :: r.taken) r.later ++
    faults file (r.declaration.name :: (r.before.map Declaration.name).reverse) r.after

/-- The field is taken up as a member.  If anything is wrong with the text, it is behind the field;
if nothing is, the member stands in its struct in the place of the field. -/
structure TakenUp (r : Reached lines) (file : String) (result : Except ParseError (List Struct))
    (member : Member) : Prop where
  refused : ∀ e, result = .error e ↔ (r.faultsBehind file).head? = some e
  declared : ∀ structs, result = .ok structs →
    (structs[r.before.length]?.bind fun s => s.members[r.fields.length]?) = some member

/-- The count in the brackets of the field is read as a number from 1 to 4294967295. -/
structure ReadByValue (r : Reached lines) (file : String)
    (result : Except ParseError (List Struct)) (digits : List Char) : Prop where
  zero : decimalValue digits = 0 → result = .error (r.error file (.zeroCount r.site.field.name))
  excess : 4294967295 < decimalValue digits →
    result = .error (r.error file (.countTooLarge (String.ofList digits) r.site.field.name))
  counted : 1 ≤ decimalValue digits → decimalValue digits ≤ 4294967295 →
    r.site.field.name ∉ r.fields.map (·.field.name) →
      r.TakenUp file result ⟨r.site.field.name, r.site.field.typeName,
        some (decimalValue digits), r.site.line⟩

/-- The first thing that is wrong with the text is wrong with the field, or else stands behind
it. -/
theorem faults_eq (r : Reached lines) (file : String) :
    faults file [] (declarations lines) =
      ((fieldFault? r.declaration.name r.taken r.site.field).map (r.error file)).toList ++
        r.faultsBehind file := by
  have hnil : faults file [] (r.before ++ [{ r.declaration with fields := r.fields }]) = [] :=
    faults_eq_nil_iff.mpr r.faultless
  rw [faults_append, List.append_eq_nil_iff, faults, List.append_eq_nil_iff,
    List.append_eq_nil_iff] at hnil
  obtain ⟨hbefore, hheader, hfields, -⟩ := hnil
  rw [r.declarations_eq, faults_append, hbefore, List.nil_append, faults, hheader,
    List.nil_append, r.fields_eq, fieldFaults_append, hfields, List.nil_append, fieldFaults,
    List.append_assoc]
  simp only [List.append_nil]
  rfl

/-- The digits of a reached field are decimal digits, and there is one at least. -/
theorem digits_ne_nil (r : Reached lines) {digits : List Char}
    (h : r.site.field.digits = some digits) :
    digits ≠ [] ∧ ∀ c ∈ digits, isDigit c = true := by
  have hd : r.declaration ∈ declarations lines := by
    rw [r.declarations_eq]
    exact List.mem_append_cons_self
  have hsite : r.site ∈ r.declaration.fields := by
    rw [r.fields_eq]
    exact List.mem_append_cons_self
  obtain ⟨text, rest, _, _, _, _, -, -, -, -, -, -, hdigits, -⟩ :=
    exists_fieldForm_of_mem_declarations hd r.site hsite
  exact hdigits digits h

section
variable (r : Reached (numberedLines source)) (file : String)

/-- A text is refused for the field that is reached, if something is wrong with it. -/
theorem result_parse_of_fault {fault : SchemaFault}
    (h : fieldFault? r.declaration.name r.taken r.site.field = some fault) :
    (parse source file).result = .error (r.error file fault) := by
  rw [result_parse_eq_error_iff, r.faults_eq, h]
  rfl

/-- A field with which nothing is wrong is taken up. -/
theorem takenUp_of_no_fault (h : fieldFault? r.declaration.name r.taken r.site.field = none) :
    r.TakenUp file (parse source file).result r.site.member where
  refused e := by
    rw [result_parse_eq_error_iff, r.faults_eq, h]
    rfl
  declared structs hparse := by
    obtain ⟨-, rfl⟩ := result_parse_eq_ok_iff.mp hparse
    have hstruct : ((declarations (numberedLines source)).map
        Declaration.toStruct)[r.before.length]? = some r.declaration.toStruct := by
      rw [r.declarations_eq]
      simp
    have hmember : r.declaration.toStruct.members[r.fields.length]? = some r.site.member := by
      rw [Declaration.toStruct, r.fields_eq]
      simp
    rw [hstruct]
    exact hmember

end

end Reached

/-- The count of a field that is reached, once it is in ASCII digits and once it is not.

In ASCII digits, however many and with whatever zeros in front, it is read by its value: zero and
numbers above 4294967295 are refused, and any other becomes the count of the member, unless the
name is taken.  With a digit of another script among them it is refused as too large, whatever its
value. -/
theorem parse_reads_counts (source file : String) (r : Reached (numberedLines source))
    {digits : List Char} (h : r.site.field.digits = some digits) :
    (digits ≠ [] ∧ ∀ c ∈ digits, isDigit c = true) ∧
    ((∀ c ∈ digits, c.isDigit = true) →
      r.ReadByValue file (parse source file).result digits) ∧
    ((∃ c ∈ digits, c.isDigit = false) → (parse source file).result =
      .error (r.error file (.countTooLarge (String.ofList digits) r.site.field.name))) := by
  obtain ⟨hne, hdigits⟩ := r.digits_ne_nil h
  refine ⟨⟨hne, hdigits⟩, fun hascii => ?_, fun hother => ?_⟩
  · have hcount := countFault?_of_ascii h hne hascii
    refine ⟨fun hzero => ?_, fun hexcess => ?_, fun hone hmax hnew => ?_⟩
    · apply r.result_parse_of_fault
      rw [fieldFault?, hcount, if_pos hzero]
      rfl
    · apply r.result_parse_of_fault
      rw [fieldFault?, hcount, if_neg (by omega), if_neg (by omega)]
      rfl
    · have hnone : fieldFault? r.declaration.name r.taken r.site.field = none := by
        rw [fieldFault?, hcount, if_neg (by omega), if_pos hmax, Option.none_or, if_neg]
        exact fun hmem => hnew (List.mem_reverse.mp hmem)
      have hmember : r.site.member = ⟨r.site.field.name, r.site.field.typeName,
          some (decimalValue digits), r.site.line⟩ := by
        rw [FieldSite.member, h, Option.bind_some,
          Text.asciiNumber?_eq_some_iff.mpr (Text.isNumeral_decimalValue hne hascii)]
      rw [← hmember]
      exact r.takenUp_of_no_fault file hnone
  · apply r.result_parse_of_fault
    rw [fieldFault?, countFault?_of_not_ascii h hother]
    rfl

/-- A struct whose first count has zeros in front, and whose second one is an Arabic three. -/
def hallSource : String :=
  "Hall :: struct \x7b\n seats: u8[0007],\n rows: u8[\u0663],\n\x7d\n"

/-- The fields of the struct. -/
def hallFields : List FieldSite :=
  [⟨⟨"seats", "u8", some ['0', '0', '0', '7']⟩, 2, "seats: u8[0007],".toList⟩,
    ⟨⟨"rows", "u8", some ['\u0663']⟩, 3, "rows: u8[\u0663],".toList⟩]

/-- The struct, as it is declared. -/
def hallDeclaration : Declaration :=
  ⟨"Hall", 1, "Hall :: struct \x7b".toList, hallFields⟩

theorem declarations_hallSource : declarations (numberedLines hallSource) = [hallDeclaration] := by
  decide +kernel

/-- The first field is reached. -/
def hallSeats : Reached (numberedLines hallSource) where
  before := []
  declaration := hallDeclaration
  after := []
  declarations_eq := declarations_hallSource
  fields := []
  site := ⟨⟨"seats", "u8", some ['0', '0', '0', '7']⟩, 2, "seats: u8[0007],".toList⟩
  later := [⟨⟨"rows", "u8", some ['\u0663']⟩, 3, "rows: u8[\u0663],".toList⟩]
  fields_eq := rfl
  faultless := by
    refine (@faults_eq_nil_iff "hall" _).mp ?_
    decide +kernel

/-- The second field is reached, since nothing is wrong with the first one. -/
def hallRows : Reached (numberedLines hallSource) where
  before := []
  declaration := hallDeclaration
  after := []
  declarations_eq := declarations_hallSource
  fields := [⟨⟨"seats", "u8", some ['0', '0', '0', '7']⟩, 2, "seats: u8[0007],".toList⟩]
  site := ⟨⟨"rows", "u8", some ['\u0663']⟩, 3, "rows: u8[\u0663],".toList⟩
  later := []
  fields_eq := rfl
  faultless := by
    refine (@faults_eq_nil_iff "hall" _).mp ?_
    decide +kernel

/-- The seats are seven, and three rows are too many. -/
theorem hallSource_counts :
    hallSeats.site.field.digits = some ['0', '0', '0', '7'] ∧
    hallRows.site.field.digits = some ['\u0663'] ∧
    hallSeats.TakenUp "hall" (parse hallSource "hall").result ⟨"seats", "u8", some 7, 2⟩ ∧
    decimalValue ['\u0663'] = 3 ∧
    (parse hallSource "hall").result =
      .error ⟨"hall", 3, "rows: u8[\u0663],", .countTooLarge "\u0663" "rows"⟩ := by
  have hseats : hallSeats.site.field.digits = some ['0', '0', '0', '7'] := rfl
  have hrows : hallRows.site.field.digits = some ['\u0663'] := rfl
  refine ⟨hseats, hrows, ?_, by decide +kernel, ?_⟩
  · have hascii : ∀ c ∈ ['0', '0', '0', '7'], c.isDigit = true :=
      List.all_eq_true.mp rfl
    have hvalue : decimalValue ['0', '0', '0', '7'] = 7 := by decide +kernel
    have hread := (parse_reads_counts hallSource "hall" hallSeats hseats).2.1 hascii
    have htaken := hread.counted (by omega) (by omega) (by decide +kernel)
    rw [hvalue] at htaken
    exact htaken
  · have hother : ∃ c ∈ ['\u0663'], c.isDigit = false := ⟨_, List.mem_singleton_self _, rfl⟩
    exact (parse_reads_counts hallSource "hall" hallRows hrows).2.2 hother

/-- So not every count is read by its value. -/
theorem not_forall_readByValue :
    ¬ ∀ (source file : String) (r : Reached (numberedLines source)) (digits : List Char),
      r.site.field.digits = some digits →
        r.ReadByValue file (parse source file).result digits := by
  intro hall
  have hvalue : decimalValue ['\u0663'] = 3 := by decide +kernel
  have htaken := (hall hallSource "hall" hallRows ['\u0663'] rfl).counted (by omega) (by omega)
    (by decide +kernel)
  have hfails : (parse hallSource "hall").result =
      .error ⟨"hall", 3, "rows: u8[\u0663],", .countTooLarge "\u0663" "rows"⟩ := by
    decide +kernel
  -- Nothing is wrong behind the field, so the text would have to be accepted.
  have hbehind := (htaken.refused _).mp hfails
  exact absurd hbehind (by decide +kernel)

end Schema
end FieldMap
