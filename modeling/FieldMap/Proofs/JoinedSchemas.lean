import FieldMap.Proofs.EndedLines
import FieldMap.Proofs.ScannedDeclarations
import Mathlib.Data.List.Nodup

/-!
# Schemas that are put together

A schema text whose last line is ended may stop anywhere, also inside a body.  If the text that is
put behind it does not go on with a field, that body ends at the seam as it would at the end of
the first text, and nothing but the names of structs is carried over.

* `declarations_append`: the lines of both declare what the lines of each declare;
* `declarations_lowered`: lines that stand lower declare the same on lower lines;
* `parse_append`: so the two texts together are accepted exactly if each of them is and no struct
  is in both, and what is wrong with the first one is wrong with both together.

A first line that is a field is another matter: it belongs to a body that is open above it, and
to none if it is the first line of a text.
-/

namespace FieldMap

/-- The member, so many lines further down. -/
def Member.lowered (lines : Nat) (member : Member) : Member :=
  { member with line := member.line + lines }

/-- The struct with its members, so many lines further down. -/
def Struct.lowered (lines : Nat) (s : Struct) : Struct :=
  ⟨s.name, s.line + lines, s.members.map (Member.lowered lines)⟩

namespace Schema

/-- The field, so many lines further down. -/
def FieldSite.lowered (lines : Nat) (site : FieldSite) : FieldSite :=
  { site with line := site.line + lines }

/-- The declaration with its fields, so many lines further down. -/
def Declaration.lowered (lines : Nat) (d : Declaration) : Declaration :=
  { d with line := d.line + lines, fields := d.fields.map (FieldSite.lowered lines) }

theorem Declaration.toStruct_lowered (lines : Nat) (d : Declaration) :
    (d.lowered lines).toStruct = d.toStruct.lowered lines := by
  rw [toStruct, toStruct, Struct.lowered, lowered, List.map_map, List.map_map]
  rfl

theorem Declaration.faultless_lowered_iff {lines : Nat} {d : Declaration} :
    (d.lowered lines).Faultless ↔ d.Faultless := by
  have hfields : (d.lowered lines).fields.map FieldSite.field = d.fields.map FieldSite.field :=
    List.map_map
  rw [faultless_iff, faultless_iff, hfields]

/-- Nothing is wrong with declarations together exactly if nothing is wrong with either of them and
they share no name. -/
theorem faultless_append_iff {first second : List Declaration} :
    Faultless (first ++ second) ↔ Faultless first ∧ Faultless second ∧
      (first.map Declaration.name).Disjoint (second.map Declaration.name) := by
  constructor
  · rintro ⟨hnodup, hmembers⟩
    rw [List.map_append, List.nodup_append'] at hnodup
    obtain ⟨hfirst, hsecond, hdisjoint⟩ := hnodup
    obtain ⟨hupper, hlower⟩ := List.forall_mem_append.mp hmembers
    exact ⟨⟨hfirst, hupper⟩, ⟨hsecond, hlower⟩, hdisjoint⟩
  · rintro ⟨⟨hfirst, hupper⟩, ⟨hsecond, hlower⟩, hdisjoint⟩
    constructor
    · rw [List.map_append, List.nodup_append']
      exact ⟨hfirst, hsecond, hdisjoint⟩
    · exact List.forall_mem_append.mpr ⟨hupper, hlower⟩

/-- So it is with declarations and lower ones. -/
theorem faultless_append_lowered_iff {lines : Nat} {first second : List Declaration} :
    Faultless (first ++ second.map (Declaration.lowered lines)) ↔
      Faultless first ∧ Faultless second ∧
        (first.map Declaration.name).Disjoint (second.map Declaration.name) := by
  have hnames : (second.map (Declaration.lowered lines)).map Declaration.name =
      second.map Declaration.name := List.map_map
  have hlowered : Faultless (second.map (Declaration.lowered lines)) ↔ Faultless second :=
    faultless_map_iff (Declaration.lowered lines) (fun _ => rfl) fun _ =>
      Declaration.faultless_lowered_iff
  rw [faultless_append_iff, hnames, hlowered]

/-! ## The lines of both -/

section
variable {upper lower : List (List Char × Nat)}

/-- A body does not go on behind lines that are followed by something else than a field. -/
theorem fieldsBelow_append (hlower : ∀ line ∈ lower.head?, bodyField? line.1 = none) :
    fieldsBelow (upper ++ lower) = fieldsBelow upper := by
  induction upper with
  | nil =>
      cases lower with
      | nil => rfl
      | cons line lower =>
          obtain ⟨text, number⟩ := line
          exact fieldsBelow_cons_of_eq_none number lower (hlower (text, number) rfl)
  | cons line upper ih =>
      unfold fieldsBelow at ih ⊢
      rw [List.cons_append, longestPrefix, longestPrefix, ih]

/-- The declarations of the first lines are not affected by those behind them. -/
theorem declarations_append (hlower : ∀ line ∈ lower.head?, bodyField? line.1 = none) :
    declarations (upper ++ lower) = declarations upper ++ declarations lower := by
  induction upper with
  | nil => rfl
  | cons line upper ih =>
      have hfirst : declaration? (line :: (upper ++ lower)) = declaration? (line :: upper) := by
        obtain ⟨text, number⟩ := line
        rw [declaration?, declaration?, fieldsBelow_append hlower]
      rw [List.cons_append, declarations_cons, declarations_cons, hfirst, ih, List.append_assoc]

end

/-! ## Lower lines -/

section
variable {below : Nat} {lines : List (List Char × Nat)}

theorem fieldsBelow_lowered (below : Nat) (lines : List (List Char × Nat)) :
    fieldsBelow (lines.map (Prod.map id (· + below))) =
      (fieldsBelow lines).map (FieldSite.lowered below) := by
  rw [fieldsBelow, fieldsBelow, longestPrefix_map, map_longestPrefix]
  congr 1
  funext line
  rw [Option.map_map]
  rfl

theorem declaration?_lowered (below : Nat) (lines : List (List Char × Nat)) :
    declaration? (lines.map (Prod.map id (· + below))) =
      (declaration? lines).map (Declaration.lowered below) := by
  cases lines with
  | nil => rfl
  | cons line lines =>
      obtain ⟨text, number⟩ := line
      have hbelow := fieldsBelow_lowered below lines
      simp only [List.map_cons, Prod.map_apply, id_eq, declaration?, hbelow, Option.map_map]
      congr 1
      funext header
      obtain ⟨name, rest⟩ := header
      by_cases hopen : GoesOn rest
      · simp [Declaration.lowered, headerFields, FieldSite.lowered, hopen]
      · simp [Declaration.lowered, headerFields, FieldSite.lowered, hopen]

/-- The same lines further down declare the same further down. -/
theorem declarations_lowered (below : Nat) (lines : List (List Char × Nat)) :
    declarations (lines.map (Prod.map id (· + below))) =
      (declarations lines).map (Declaration.lowered below) := by
  induction lines with
  | nil => rfl
  | cons line lines ih =>
      have hfirst := declaration?_lowered below (line :: lines)
      rw [List.map_cons] at hfirst ⊢
      rw [declarations_cons, declarations_cons, hfirst, ih, List.map_append]
      cases declaration? (line :: lines) <;> rfl

end

/-! ## The two texts -/

/-- The lines of both texts, those of the second one below those of the first. -/
theorem numberedLines_append {above : String} (h : Text.IsEnded '\n' above.toList)
    (below : String) :
    numberedLines (above ++ below) = numberedLines above ++
      (numberedLines below).map
        (Prod.map id (· + (Text.lines '\n' above.toList).length)) := by
  rw [numberedLines, String.toList_append, Text.lines_append h, List.map_append,
    List.zipIdx_append, List.length_map, numberedLines, numberedLines,
    List.map_snd_add_zipIdx_eq_zipIdx, Nat.add_comm]

/-- The first line of a text, as it is read. -/
theorem head?_numberedLines (source : String) :
    (numberedLines source).head? =
      (Text.lines '\n' source.toList).head?.map fun line => (Text.trim line, 1) := by
  rw [numberedLines]
  cases Text.lines '\n' source.toList <;> rfl

section
variable {above below : String} (hended : Text.IsEnded '\n' above.toList)
  (hfirst : ∀ line ∈ (Text.lines '\n' below.toList).head?, bodyField? (Text.trim line) = none)
include hended hfirst

/-- What two texts declare together. -/
theorem declarations_numberedLines_append :
    declarations (numberedLines (above ++ below)) =
      declarations (numberedLines above) ++ (declarations (numberedLines below)).map
        (Declaration.lowered (Text.lines '\n' above.toList).length) := by
  rw [numberedLines_append hended, declarations_append, declarations_lowered]
  intro line hline
  rw [List.head?_map, head?_numberedLines, Option.map_map] at hline
  obtain ⟨first, hmem, rfl⟩ := Option.map_eq_some_iff.mp hline
  exact hfirst first hmem

/-- A text that is ended, and one that does not begin with a field, are accepted together exactly
if each of them is and they share no name of a struct.  The structs of the second one come after
those of the first, as many lines lower as the first one has.  A text that is refused is refused
for the same reason when another one stands behind it. -/
theorem parse_append (file : String) :
    (∀ structs, (parse (above ++ below) file).result = .ok structs ↔
      ∃ upper lower, (parse above file).result = .ok upper ∧
        (parse below file).result = .ok lower ∧
        (upper.map Struct.name).Disjoint (lower.map Struct.name) ∧
        structs = upper ++ lower.map
          (Struct.lowered (Text.lines '\n' above.toList).length)) ∧
      ∀ e, (parse above file).result = .error e → (parse (above ++ below) file).result = .error e := by
  have hdeclared := declarations_numberedLines_append hended hfirst
  have hnames (source : String) :
      ((declarations (numberedLines source)).map Declaration.toStruct).map Struct.name =
        (declarations (numberedLines source)).map Declaration.name := List.map_map
  have hlowered (declared : List Declaration) (lines : Nat) :
      (declared.map (Declaration.lowered lines)).map Declaration.toStruct =
        (declared.map Declaration.toStruct).map (Struct.lowered lines) := by
    simp only [List.map_map, Function.comp_def, Declaration.toStruct_lowered]
  constructor
  · intro structs
    rw [result_parse_eq_ok_iff, hdeclared, faultless_append_lowered_iff, List.map_append, hlowered]
    simp only [result_parse_eq_ok_iff]
    constructor
    · rintro ⟨⟨hupper, hlower, hdisjoint⟩, rfl⟩
      rw [← hnames, ← hnames] at hdisjoint
      exact ⟨_, _, ⟨hupper, rfl⟩, ⟨hlower, rfl⟩, hdisjoint, rfl⟩
    · rintro ⟨_, _, ⟨hupper, rfl⟩, ⟨hlower, rfl⟩, hdisjoint, rfl⟩
      rw [hnames, hnames] at hdisjoint
      exact ⟨⟨hupper, hlower, hdisjoint⟩, rfl⟩
  · intro e he
    rw [result_parse_eq_error_iff] at he ⊢
    rw [hdeclared, faults_append, List.head?_append, he]
    rfl

end

/-- A schema that stops inside a body, behind a field with a comment. -/
def openSource : String := "Pair :: struct \x7b a: u8,\n b: u8[2], // two\n"

/-- A schema that begins with an empty line. -/
def userSource : String := "\nUser :: struct \x7b pair: Pair \x7d\n"

/-- The body that is open ends at the empty line, and the struct behind it is found. -/
theorem openSource_userSource :
    Text.IsEnded '\n' openSource.toList ∧
    (∀ line ∈ (Text.lines '\n' userSource.toList).head?, bodyField? (Text.trim line) = none) ∧
    (parse (openSource ++ userSource)).result =
      .ok [⟨"Pair", 1, [⟨"a", "u8", none, 1⟩, ⟨"b", "u8", some 2, 2⟩]⟩,
        ⟨"User", 4, [⟨"pair", "Pair", none, 4⟩]⟩] := by
  have hended : Text.IsEnded '\n' openSource.toList := by
    rintro _ ⟨⟩
    rfl
  have hfirst : ∀ line ∈ (Text.lines '\n' userSource.toList).head?,
      bodyField? (Text.trim line) = none := by
    rintro _ ⟨⟩
    rfl
  have hupper : (parse openSource).result =
      .ok [⟨"Pair", 1, [⟨"a", "u8", none, 1⟩, ⟨"b", "u8", some 2, 2⟩]⟩] := by rfl
  have hlower : (parse userSource).result =
      .ok [⟨"User", 2, [⟨"pair", "Pair", none, 2⟩]⟩] := by rfl
  have hdisjoint : ["Pair"].Disjoint ["User"] := by simp
  exact ⟨hended, hfirst, ((parse_append hended hfirst "<schema>").1 _).mpr
    ⟨_, _, hupper, hlower, hdisjoint, rfl⟩⟩

end Schema
end FieldMap
