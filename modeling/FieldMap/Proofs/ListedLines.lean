import FieldMap.Proofs.DeclarationForms
import FieldMap.Proofs.EndedLines
import FieldMap.Proofs.Numerals
import FieldMap.Proofs.TrimmedText
import FieldMap.Schema.Parser
import Mathlib.Data.List.Basic

/-!
# The lines of a listing

A listing of structs is made of whole lines: for each struct its header, a line for every
member, a closing brace, and an empty line.  A reader meets these lines without the blanks
around them, and each of them has one reading only:

* `numberedLines_listing`: the lines that are met, and their numbers;
* `header?_headerText` and `bodyField?_fieldText`: a header line reads as a header with
  nothing behind its brace, and a member line as the field of its member, the count being
  written in base ten;
* the lines of members, the closing brace and the empty line are no headers, and the closing
  brace is no field.

All this holds of structs that can be declared, those whose names are words.
-/

namespace FieldMap

namespace Text

theorem blanks_replicate (n : Nat) : Blanks (List.replicate n ' ') := by
  intro c hc
  rw [List.eq_of_mem_replicate hc]
  decide

theorem isDigit_of_mem_toDigits {n : Nat} {c : Char} (hc : c ∈ Nat.toDigits 10 n) :
    c.isDigit = true :=
  Nat.isDigit_of_mem_toDigits (by decide) (by decide) hc

/-- What is written in base ten is read back. -/
theorem asciiNumber?_toDigits (n : Nat) : asciiNumber? (Nat.toDigits 10 n) = some n := by
  have hempty : (Nat.toDigits 10 n).isEmpty = false :=
    List.isEmpty_eq_false_iff.mpr Nat.toDigits_ne_nil
  have hall : (Nat.toDigits 10 n).all Char.isDigit = true :=
    List.all_eq_true.mpr fun c => isDigit_of_mem_toDigits
  have hvalue := @Nat.ofDigitChars_ten_toDigits n
  rw [Nat.ofDigitChars_eq_foldl] at hvalue
  unfold asciiNumber?
  rw [hempty, hall]
  exact congrArg some hvalue

end Text

open Text (Blanks IsName isBlank isWord)

/-! ## What can be declared -/

/-- The member has the names and the count that a field can have. -/
structure Member.Declarable (member : Member) : Prop where
  name : IsName member.name.toList
  typeName : IsName member.typeName.toList
  count : ∀ count ∈ member.count, 1 ≤ count ∧ count ≤ 4294967295

/-- The struct has the name and the members that a declaration can have. -/
structure Struct.Declarable (s : Struct) : Prop where
  name : IsName s.name.toList
  members : ∀ member ∈ s.members, member.Declarable
  names : (s.members.map Member.name).Nodup

namespace Schema

/-! ## The text as lines -/

/-- The field that declares a member. -/
def memberField (member : Member) : Field :=
  ⟨member.name, member.typeName, member.count.map (Nat.toDigits 10)⟩

/-- The line that declares a member, without the blanks before it. -/
def fieldText (member : Member) : List Char :=
  member.name.toList ++ ([' ', ':', ' '] ++ (member.typeName.toList ++
    (bracketText (memberField member).digits ++ [','])))

/-- The line that begins the declaration of a struct. -/
def headerText (s : Struct) : List Char :=
  s.name.toList ++ [' ', ':', ':', ' ', 's', 't', 'r', 'u', 'c', 't', ' ', '\x7b']

/-- The lines of a struct in a listing, with blanks before those of its members. -/
def structLines (indent : List Char) (s : Struct) : List (List Char) :=
  headerText s :: (s.members.map (fun member => indent ++ fieldText member) ++ [['\x7d'], []])

theorem toList_foldl_append {α : Type} (f : α → String) (stop start : String) (items : List α) :
    (items.foldl (fun text item => text ++ f item ++ stop) start).toList =
      start.toList ++ items.flatMap fun item => (f item).toList ++ stop.toList := by
  induction items generalizing start with
  | nil => simp
  | cons item items ih => simp [ih]

theorem toList_showCount (count : Option Nat) :
    (Event.showCount count).toList = bracketText (count.map (Nat.toDigits 10)) := by
  cases count with
  | none => rfl
  | some count =>
      show ("[" ++ count.repr ++ "]").toList = '[' :: (Nat.toDigits 10 count ++ [']'])
      rw [String.toList_append, String.toList_append, Nat.toList_repr]
      rfl

/-- The blanks before the line of a member. -/
def indent : List Char :=
  [' ', ' ', ' ', ' ']

theorem toList_memberListing (member : Member) :
    member.listing.toList = indent ++ fieldText member := by
  show ("    " ++ member.name ++ " : " ++ member.typeName ++ Event.showCount member.count ++
    ",").toList = _
  simp only [String.toList_append, toList_showCount, List.append_assoc]
  rfl

theorem toList_structListing (s : Struct) :
    s.listing.toList ++ ['\n', '\n'] = (structLines indent s).flatMap (· ++ ['\n']) := by
  have hmembers : (s.members.map fun member => indent ++ fieldText member).flatMap (· ++ ['\n']) =
      s.members.flatMap fun member => member.listing.toList ++ ['\n'] := by
    simp only [List.flatMap_map, toList_memberListing]
  have hheader : (s.name ++ " :: struct \x7b\n").toList = headerText s ++ ['\n'] := by
    rw [String.toList_append, headerText, List.append_assoc]
    rfl
  rw [Struct.listing, String.toList_append, toList_foldl_append, hheader, structLines,
    List.flatMap_cons, List.flatMap_append, hmembers]
  simp only [List.append_assoc]
  rfl

/-- A listing is made of the lines of its structs. -/
theorem toList_listing (structs : List Struct) :
    (Schema.listing structs).toList =
      (structs.flatMap (structLines indent)).flatMap (· ++ ['\n']) := by
  rw [Schema.listing, toList_foldl_append, List.flatMap_assoc]
  simp only [← toList_structListing]
  rfl

/-! ## The lines as they are met -/

theorem newline_not_mem_name {word : List Char} (hword : IsName word) : '\n' ∉ word := by
  intro hmem
  have hblank := hword.isBlank_eq_false hmem
  exact absurd hblank (by decide)

theorem newline_not_mem_toDigits (n : Nat) : '\n' ∉ Nat.toDigits 10 n :=
  fun hmem => absurd (Text.isDigit_of_mem_toDigits hmem) (by decide)

theorem newline_not_mem_bracketText (count : Option Nat) :
    '\n' ∉ bracketText (count.map (Nat.toDigits 10)) := by
  cases count with
  | none => exact List.not_mem_nil
  | some count => simp [bracketText, newline_not_mem_toDigits]

theorem newline_not_mem_fieldText {member : Member} (hmember : member.Declarable) :
    '\n' ∉ indent ++ fieldText member := by
  have hname := newline_not_mem_name hmember.name
  have htypeName := newline_not_mem_name hmember.typeName
  have hcount := newline_not_mem_bracketText member.count
  simp [indent, fieldText, memberField, hname, htypeName, hcount]

/-- No line of a listing holds the end of a line. -/
theorem newline_not_mem_structLines {s : Struct} (hs : s.Declarable) :
    ∀ text ∈ structLines indent s, '\n' ∉ text := by
  have hheader : '\n' ∉ headerText s := by
    have hname := newline_not_mem_name hs.name
    simp [headerText, hname]
  have hclosing : ∀ text ∈ [['\x7d'], []], '\n' ∉ text := by decide
  refine List.forall_mem_cons.mpr ⟨hheader, List.forall_mem_append.mpr ⟨?_, hclosing⟩⟩
  intro text htext
  obtain ⟨member, hmember, rfl⟩ := List.mem_map.mp htext
  exact newline_not_mem_fieldText (hs.members member hmember)

theorem trim_headerText {s : Struct} (hs : s.Declarable) :
    Text.trim (headerText s) = headerText s := by
  have htext : headerText s = s.name.toList ++
      ([' ', ':', ':', ' ', 's', 't', 'r', 'u', 'c', 't', ' '] ++ ['\x7b']) := rfl
  have hgap : Blanks [] := nofun
  rw [htext]
  exact IsName.trim_append hgap hs.name _ (by decide)

theorem trim_fieldText {member : Member} (hmember : member.Declarable) :
    Text.trim (indent ++ fieldText member) = fieldText member := by
  have hindent : Blanks indent := Text.blanks_replicate 4
  have htext : fieldText member = member.name.toList ++ ([' ', ':', ' '] ++
      (member.typeName.toList ++ bracketText (memberField member).digits) ++ [',']) := by
    simp [fieldText]
  rw [htext]
  exact IsName.trim_append hindent hmember.name _ (by decide)

/-- The blanks before the lines are gone when they are read. -/
theorem map_trim_structLines {s : Struct} (hs : s.Declarable) :
    (structLines indent s).map Text.trim = structLines [] s := by
  have hmembers : (s.members.map fun member => indent ++ fieldText member).map Text.trim =
      s.members.map fun member => [] ++ fieldText member := by
    rw [List.map_map]
    apply List.map_congr_left
    intro member hmember
    exact trim_fieldText (hs.members member hmember)
  rw [structLines, List.map_cons, trim_headerText hs, List.map_append, hmembers]
  rfl

/-- The lines of a listing, as they are read. -/
theorem numberedLines_listing {structs : List Struct} (hstructs : ∀ s ∈ structs, s.Declarable) :
    numberedLines (Schema.listing structs) = (structs.flatMap (structLines [])).zipIdx 1 := by
  have hlines : ∀ text ∈ structs.flatMap (structLines indent), '\n' ∉ text := by
    intro text htext
    obtain ⟨s, hs, htext⟩ := List.mem_flatMap.mp htext
    exact newline_not_mem_structLines (hstructs s hs) text htext
  rw [numberedLines, toList_listing, Text.lines_flatMap hlines, List.map_flatMap]
  congr 1
  exact List.flatMap_congr fun s hs => map_trim_structLines (hstructs s hs)

/-! ## What the lines are -/

theorem header?_headerText {s : Struct} (hs : s.Declarable) :
    header? (headerText s) = some (s.name, []) := by
  have hblank : Blanks [' '] := Text.blanks_replicate 1
  refine header?_eq_some_iff.mpr ⟨s.name.toList, [' '], [' '], [' '], hs.name, ?_, hblank,
    hblank, hblank, rfl⟩
  rw [String.ofList_toList]

theorem bodyField?_fieldText {member : Member} (hmember : member.Declarable) :
    bodyField? (fieldText member) = some (memberField member) := by
  have hblank : Blanks [' '] := Text.blanks_replicate 1
  refine bodyField?_eq_some_iff.mpr ⟨[], [], nofun, member.name.toList, [' '], [' '],
    member.typeName.toList, hmember.name, ?_, hmember.typeName, ?_, hblank, hblank, ?_, rfl⟩
  · rw [String.ofList_toList]
    rfl
  · rw [String.ofList_toList]
    rfl
  · intro digits hdigits
    obtain ⟨count, -, rfl⟩ := Option.map_eq_some_iff.mp hdigits
    refine ⟨Nat.toDigits_ne_nil, fun c hc => ?_⟩
    have hc := Text.isDigit_of_mem_toDigits hc
    simp [Text.isDigit, Text.digitValue?, hc]

/-- Behind the first line of a struct there is no header before the next struct. -/
theorem header?_eq_none_of_mem_tail {s : Struct} (hs : s.Declarable) :
    ∀ text ∈ (structLines [] s).tail, header? text = none := by
  have hclosing : ∀ text ∈ [['\x7d'], []], header? text = none := by decide
  refine List.forall_mem_append.mpr ⟨?_, hclosing⟩
  intro text htext
  obtain ⟨member, hmember, rfl⟩ := List.mem_map.mp htext
  have hread := bodyField?_fieldText (hs.members member hmember)
  cases hheader : header? (fieldText member) with
  | none => exact hheader
  | some header =>
      -- A line of a member is a field, and no header is one.
      rw [bodyField?_eq_none_of_header? hheader] at hread
      cases hread

end Schema
end FieldMap
