import FieldMap.Proofs.NewNames
import FieldMap.Proofs.Numerals
import FieldMap.Schema.Parser

/-!
# What the lines of a schema declare

The reader of a schema carries a body from line to line.  Here the structs of a text are told
without it: every line that is a header declares a struct, and its members are read off that
line and the lines below it, with no regard to the lines above.

* `declaration?` is the struct of the first of some lines, and `declarations` are those of all
  lines from which on the text can be read.
* `faults` lists everything that is wrong with declarations, in the order of the text.  Each
  header and each field is judged by itself and by the names before it.
* `faults_eq_nil_iff`: nothing is wrong exactly when the names of the structs are different,
  the names within each struct are different, and all repeat counts can be read.
-/

namespace FieldMap
namespace Schema

/-! ## Structs and their fields -/

/-- A field, the line it stands on, and the text of that line. -/
structure FieldSite where
  field : Field
  line : Nat
  text : List Char
  deriving DecidableEq, Repr

/-- The member that a field declares. -/
def FieldSite.member (site : FieldSite) : Member :=
  ⟨site.field.name, site.field.typeName, site.field.digits.bind Text.asciiNumber?, site.line⟩

/-- A header with its line and text, and the fields of its body. -/
structure Declaration where
  name : String
  line : Nat
  text : List Char
  fields : List FieldSite
  deriving DecidableEq, Repr

/-- The struct that is declared. -/
def Declaration.toStruct (d : Declaration) : Struct :=
  ⟨d.name, d.line, d.fields.map FieldSite.member⟩

/-- What is read from the longest prefix on which something can be read from everything. -/
def longestPrefix {α β : Type} (read : α → Option β) : List α → List β
  | [] => []
  | a :: rest =>
    match read a with
    | some b => b :: longestPrefix read rest
    | none => []

/-- The parts between commas that hold more than blanks, without the blanks around them. -/
def partsOf (inside : List Char) : List (List Char) :=
  ((inside.splitOn ',').map Text.trim).filter (· ≠ [])

/-- The fields on the lines from the first one on, up to a line that is no field. -/
def fieldsBelow (below : List (List Char × Nat)) : List FieldSite :=
  longestPrefix (fun (text, line) => (bodyField? text).map (⟨·, line, text⟩)) below

/-- The parts of a header line behind its brace, up to a closing one. -/
def headerParts (rest : List Char) : List (List Char) :=
  partsOf (rest.takeWhile (· ≠ '\x7d'))

/-- The fields on a header line. -/
def headerFields (text : List Char) (line : Nat) (rest : List Char) : List FieldSite :=
  (longestPrefix inlineField? (headerParts rest)).map (⟨·, line, text⟩)

/-- The body goes on below the header line: it is not closed there, and does not break off at
something else than a field. -/
def GoesOn (rest : List Char) : Prop :=
  '\x7d' ∉ rest ∧ ∀ part ∈ headerParts rest, (inlineField? part).isSome = true

instance (rest : List Char) : Decidable (GoesOn rest) :=
  inferInstanceAs (Decidable (_ ∧ _))

/-- The struct that the first of the lines declares, if it is a header. -/
def declaration? : List (List Char × Nat) → Option Declaration
  | [] => none
  | (text, line) :: below =>
    (header? text).map fun (name, rest) =>
      ⟨name, line, text,
        headerFields text line rest ++ if GoesOn rest then fieldsBelow below else []⟩

/-- The structs that the lines declare, one for every header. -/
def declarations (lines : List (List Char × Nat)) : List Declaration :=
  lines.tails.filterMap declaration?

/-- Lines declare the struct that their first line begins, if it does, and those that the lines
below it declare. -/
theorem declarations_cons (line : List Char × Nat) (lines : List (List Char × Nat)) :
    declarations (line :: lines) = (declaration? (line :: lines)).toList ++ declarations lines := by
  rw [declarations, List.tails, List.filterMap_cons]
  cases declaration? (line :: lines) <;> rfl

/-! ## Longest prefixes -/

section
variable {α β : Type} {read : α → Option β} {items : List α}

theorem exists_of_mem_longestPrefix {b : β} (h : b ∈ longestPrefix read items) :
    ∃ a ∈ items, read a = some b := by
  induction items with
  | nil => cases h
  | cons a items ih =>
      rw [longestPrefix] at h
      split at h
      · next first hfirst =>
          rcases List.mem_cons.mp h with rfl | h
          · exact ⟨a, List.mem_cons_self, hfirst⟩
          · obtain ⟨later, hlater, hread⟩ := ih h
            exact ⟨later, List.mem_cons_of_mem a hlater, hread⟩
      · cases h

theorem length_longestPrefix (h : ∀ a ∈ items, (read a).isSome = true) :
    (longestPrefix read items).length = items.length := by
  induction items with
  | nil => rfl
  | cons a items ih =>
      obtain ⟨ha, hitems⟩ := List.forall_mem_cons.mp h
      obtain ⟨b, hb⟩ := Option.isSome_iff_exists.mp ha
      rw [longestPrefix, hb, List.length_cons, List.length_cons, ih hitems]

theorem longestPrefix_append_cons {a : α} (h : read a = none) (more : List α) :
    longestPrefix read (items ++ a :: more) = longestPrefix read items := by
  induction items with
  | nil => simp only [List.nil_append, longestPrefix, h]
  | cons first items ih => rw [List.cons_append, longestPrefix, longestPrefix, ih]

theorem longestPrefix_map {γ : Type} (f : γ → α) (items : List γ) :
    longestPrefix read (items.map f) = longestPrefix (fun c => read (f c)) items := by
  induction items with
  | nil => rfl
  | cons c items ih => rw [List.map_cons, longestPrefix, longestPrefix, ih]

theorem map_longestPrefix {γ : Type} (f : β → γ) :
    (longestPrefix read items).map f = longestPrefix (fun a => (read a).map f) items := by
  induction items with
  | nil => rfl
  | cons a items ih =>
      rw [longestPrefix, longestPrefix]
      cases read a with
      | none => rfl
      | some b => rw [List.map_cons, ih]; rfl

end

section
variable {text : List Char} (number : Nat) (below : List (List Char × Nat))

theorem fieldsBelow_cons_of_eq_none (h : bodyField? text = none) :
    fieldsBelow ((text, number) :: below) = [] := by
  simp only [fieldsBelow, longestPrefix, h, Option.map_none]

theorem fieldsBelow_cons_of_eq_some {field : Field} (h : bodyField? text = some field) :
    fieldsBelow ((text, number) :: below) = ⟨field, number, text⟩ :: fieldsBelow below := by
  simp only [fieldsBelow, longestPrefix, h, Option.map_some]

end

/-! ## Faults -/

/-- What is wrong with the repeat count of a field. -/
def countFault? (field : Field) : Option SchemaFault :=
  match readCount field.name field.digits with
  | .error fault => some fault
  | .ok _ => none

/-- What is wrong with a field, after fields with the given names: its count before its name. -/
def fieldFault? (structName : String) (before : List String) (field : Field) :
    Option SchemaFault :=
  (countFault? field).or
    (if field.name ∈ before then some (.duplicateMember field.name structName) else none)

/-- Everything that is wrong with the fields of a struct, in order. -/
def fieldFaults (file structName : String) (before : List String) :
    List FieldSite → List ParseError
  | [] => []
  | site :: sites =>
    ((fieldFault? structName before site.field).map
      (⟨file, site.line, String.ofList site.text, ·⟩)).toList ++
        fieldFaults file structName (site.field.name :: before) sites

/-- Everything that is wrong with structs, in order, after structs with the given names. -/
def faults (file : String) (before : List String) : List Declaration → List ParseError
  | [] => []
  | d :: rest =>
    (if d.name ∈ before then [⟨file, d.line, String.ofList d.text, .duplicateStruct d.name⟩]
      else []) ++
      (fieldFaults file d.name [] d.fields ++ faults file (d.name :: before) rest)

/-- Everything that is wrong with some fields is wrong with them if others follow. -/
theorem fieldFaults_append (file structName : String) (before : List String)
    (first second : List FieldSite) :
    fieldFaults file structName before (first ++ second) =
      fieldFaults file structName before first ++
        fieldFaults file structName ((first.map (·.field.name)).reverse ++ before) second := by
  induction first generalizing before with
  | nil => rfl
  | cons site first ih => simp [fieldFaults, ih]

/-- Everything that is wrong with some declarations is wrong with them if others follow. -/
theorem faults_append (file : String) (before : List String) (first second : List Declaration) :
    faults file before (first ++ second) =
      faults file before first ++
        faults file ((first.map Declaration.name).reverse ++ before) second := by
  induction first generalizing before with
  | nil => rfl
  | cons d first ih => simp [faults, ih]

/-- The count is absent, or the digits of a number from 1 to 4294967295. -/
def Field.Countable (field : Field) : Prop :=
  ∀ digits ∈ field.digits, ∃ n, Text.IsNumeral digits n ∧ 1 ≤ n ∧ n ≤ 4294967295

/-- The members of the struct have different names, and counts that can be read. -/
structure Declaration.Faultless (d : Declaration) : Prop where
  names : (d.fields.map (·.field.name)).Nodup
  counts : ∀ site ∈ d.fields, site.field.Countable

/-- The structs have different names, and nothing is wrong with their members. -/
structure Faultless (declared : List Declaration) : Prop where
  names : (declared.map Declaration.name).Nodup
  members : ∀ d ∈ declared, d.Faultless

/-! ## Nothing wrong -/

/-- Whether a declaration is faultless is a matter of its fields, wherever they stand. -/
theorem Declaration.faultless_iff {d : Declaration} :
    d.Faultless ↔ ((d.fields.map FieldSite.field).map Field.name).Nodup ∧
      ∀ field ∈ d.fields.map FieldSite.field, field.Countable := by
  rw [List.map_map, List.forall_mem_map]
  exact ⟨fun h => ⟨h.names, h.counts⟩, fun h => ⟨h.1, h.2⟩⟩

/-- Declarations that are changed one by one, with no name changed, are faultless together if they
are one by one. -/
theorem faultless_map_iff (f : Declaration → Declaration) (hname : ∀ d, (f d).name = d.name)
    (hfaultless : ∀ d, (f d).Faultless ↔ d.Faultless) {declared : List Declaration} :
    Faultless (declared.map f) ↔ Faultless declared := by
  have hnames : (declared.map f).map Declaration.name = declared.map Declaration.name := by
    simp only [List.map_map, Function.comp_def, hname]
  have hmembers : (∀ d ∈ declared.map f, d.Faultless) ↔ ∀ d ∈ declared, d.Faultless := by
    simp only [List.forall_mem_map, hfaultless]
  constructor
  · exact fun h => ⟨hnames ▸ h.names, hmembers.mp h.members⟩
  · exact fun h => ⟨hnames.symm ▸ h.names, hmembers.mpr h.members⟩

theorem readCount_eq_ok_iff {field : Field} {count : Option Nat} :
    readCount field.name field.digits = .ok count ↔
      field.Countable ∧ count = field.digits.bind Text.asciiNumber? := by
  unfold readCount Field.Countable
  cases field.digits with
  | none => simp [eq_comm]
  | some digits =>
      have hnumber (n : Nat) : Text.asciiNumber? digits = some n ↔ Text.IsNumeral digits n :=
        Text.asciiNumber?_eq_some_iff
      cases hvalue : Text.asciiNumber? digits with
      | none => simp [← hnumber, hvalue]
      | some value =>
          simp only [Option.mem_def, Option.some.injEq, forall_eq', ← hnumber, hvalue,
            exists_eq_left', Option.bind_some]
          by_cases hzero : value = 0
          · simp [hzero]
          · by_cases hmax : value ≤ maxRepeat
            · have hpos := Nat.one_le_iff_ne_zero.mpr hzero
              have hbound : value ≤ 4294967295 := hmax
              simp [hzero, hmax, hpos, hbound, @eq_comm _ count]
            · have hbound : ¬ value ≤ 4294967295 := hmax
              simp [hzero, hmax, hbound]

theorem countFault?_eq_none_iff {field : Field} :
    countFault? field = none ↔ field.Countable := by
  unfold countFault?
  cases hread : readCount field.name field.digits with
  | ok count => simp [(readCount_eq_ok_iff.mp hread).1]
  | error fault =>
      simp only [reduceCtorEq, false_iff]
      intro hcountable
      rw [readCount_eq_ok_iff.mpr ⟨hcountable, rfl⟩] at hread
      cases hread

theorem fieldFault?_eq_none_iff {structName : String} {before : List String} {field : Field} :
    fieldFault? structName before field = none ↔ field.Countable ∧ field.name ∉ before := by
  rw [fieldFault?, Option.or_eq_none_iff, countFault?_eq_none_iff]
  simp

theorem fieldFaults_eq_nil_iff {file structName : String} {before : List String}
    {sites : List FieldSite} :
    fieldFaults file structName before sites = [] ↔
      NewNames before (sites.map (·.field.name)) ∧ ∀ site ∈ sites, site.field.Countable := by
  induction sites generalizing before with
  | nil => simp [fieldFaults, NewNames]
  | cons site sites ih =>
      rw [fieldFaults, List.append_eq_nil_iff, Option.toList_eq_nil_iff, Option.map_eq_none_iff,
        fieldFault?_eq_none_iff, ih, List.map_cons, newNames_cons_iff, List.forall_mem_cons]
      constructor
      · rintro ⟨⟨hcount, hname⟩, hnames, hcounts⟩
        exact ⟨⟨hname, hnames⟩, hcount, hcounts⟩
      · rintro ⟨⟨hname, hnames⟩, hcount, hcounts⟩
        exact ⟨⟨hcount, hname⟩, hnames, hcounts⟩

theorem faults_eq_nil_iff_newNames {file : String} {before : List String}
    {declared : List Declaration} :
    faults file before declared = [] ↔
      NewNames before (declared.map Declaration.name) ∧ ∀ d ∈ declared, d.Faultless := by
  induction declared generalizing before with
  | nil => simp [faults, NewNames]
  | cons d declared ih =>
      have hd : fieldFaults file d.name [] d.fields = [] ↔ d.Faultless := by
        rw [fieldFaults_eq_nil_iff, newNames_nil_iff]
        exact ⟨fun h => ⟨h.1, h.2⟩, fun h => ⟨h.names, h.counts⟩⟩
      rw [faults, List.append_eq_nil_iff, List.append_eq_nil_iff, hd, ih, List.map_cons,
        newNames_cons_iff, List.forall_mem_cons]
      by_cases hname : d.name ∈ before
      · simp [hname]
      · simp [hname, and_left_comm]

/-- There is nothing wrong exactly with faultless declarations. -/
theorem faults_eq_nil_iff {file : String} {declared : List Declaration} :
    faults file [] declared = [] ↔ Faultless declared := by
  rw [faults_eq_nil_iff_newNames, newNames_nil_iff]
  exact ⟨fun h => ⟨h.1, h.2⟩, fun h => ⟨h.names, h.members⟩⟩

end Schema
end FieldMap
