import FieldMap.Proofs.EndedLines
import FieldMap.Proofs.ScannedDeclarations
import FieldMap.Proofs.TrimmedText

/-!
# One line of a schema exchanged

What becomes of the structs of a schema if one of its lines is exchanged for another one.

* `Declaration.bare` is a declaration without the texts of its lines, which matter for errors only;
* `declarations_seam`: a line that is exchanged for one that reads as the same field, or is no field
  either, changes at most what that line itself declares;
* `IsLine` says of a text where one of its lines stands, and `IsLine.exists_numberedLines` finds that
  line among the lines that are read, with any text behind it.
-/

namespace FieldMap
namespace Schema

open Text (Blanks)

/-! ## Declarations without their texts -/

/-- The field on its line, without the text of the line. -/
def FieldSite.bare (site : FieldSite) : FieldSite :=
  { site with text := [] }

/-- The declaration without the texts of its lines, which are quoted in errors only. -/
def Declaration.bare (d : Declaration) : Declaration :=
  { d with text := [], fields := d.fields.map FieldSite.bare }

theorem Declaration.toStruct_bare (d : Declaration) : d.bare.toStruct = d.toStruct := by
  rw [toStruct, toStruct, bare, List.map_map]
  rfl

theorem Declaration.faultless_bare_iff {d : Declaration} : d.bare.Faultless ↔ d.Faultless := by
  have hfields : d.bare.fields.map FieldSite.field = d.fields.map FieldSite.field := List.map_map
  rw [faultless_iff, faultless_iff, hfields]

theorem faultless_bare_iff {declared : List Declaration} :
    Faultless (declared.map Declaration.bare) ↔ Faultless declared :=
  faultless_map_iff Declaration.bare (fun _ => rfl) fun _ => Declaration.faultless_bare_iff

/-- The texts of the lines play no part in what an accepted text gives. -/
theorem result_parse_eq_ok_iff_bare {source file : String} {structs : List Struct} :
    (parse source file).result = .ok structs ↔
      Faultless ((declarations (numberedLines source)).map Declaration.bare) ∧
        structs =
          ((declarations (numberedLines source)).map Declaration.bare).map Declaration.toStruct := by
  have hstructs (declared : List Declaration) :
      (declared.map Declaration.bare).map Declaration.toStruct =
        declared.map Declaration.toStruct := by
    simp only [List.map_map, Function.comp_def, Declaration.toStruct_bare]
  rw [result_parse_eq_ok_iff, faultless_bare_iff, hstructs]

/-! ## One line exchanged -/

theorem line_of_declaration? {line : List Char × Nat} {lines : List (List Char × Nat)}
    {d : Declaration} (h : declaration? (line :: lines) = some d) : d.line = line.2 := by
  obtain ⟨header, -, rfl⟩ := Option.map_eq_some_iff.mp h
  rfl

theorem line_mem_of_mem_declarations {lines : List (List Char × Nat)} {d : Declaration}
    (h : d ∈ declarations lines) : d.line ∈ lines.map Prod.snd := by
  induction lines with
  | nil => cases h
  | cons line lines ih =>
      rw [declarations_cons] at h
      rcases List.mem_append.mp h with hfirst | hrest
      · rw [line_of_declaration? (Option.mem_toList.mp hfirst)]
        exact List.mem_cons_self
      · exact List.mem_cons_of_mem _ (ih hrest)

theorem map_bare_fieldsBelow (below : List (List Char × Nat)) :
    (fieldsBelow below).map FieldSite.bare =
      longestPrefix (fun (text, line) => (bodyField? text).map (⟨·, line, []⟩)) below := by
  rw [fieldsBelow, map_longestPrefix]
  congr 1
  funext line
  rw [Option.map_map]
  rfl

theorem map_bare_declarations_cons (line : List Char × Nat) (lines : List (List Char × Nat)) :
    (declarations (line :: lines)).map Declaration.bare =
      ((declaration? (line :: lines)).map Declaration.bare).toList ++
        (declarations lines).map Declaration.bare := by
  rw [declarations_cons, List.map_append]
  cases declaration? (line :: lines) <;> rfl

theorem map_bare_headerFields (text : List Char) (number : Nat) (rest : List Char) :
    (headerFields text number rest).map FieldSite.bare = headerFields [] number rest := by
  rw [headerFields, headerFields, List.map_map]
  rfl

section
variable {text text' : List Char} (h : bodyField? text = bodyField? text') (number : Nat)
  (upper lower : List (List Char × Nat))
include h

theorem fieldsBelow_seam :
    (fieldsBelow (upper ++ (text, number) :: lower)).map FieldSite.bare =
      (fieldsBelow (upper ++ (text', number) :: lower)).map FieldSite.bare := by
  rw [map_bare_fieldsBelow, map_bare_fieldsBelow]
  induction upper with
  | nil => simp only [List.nil_append, longestPrefix, h]
  | cons line upper ih => rw [List.cons_append, List.cons_append, longestPrefix, longestPrefix, ih]

theorem declaration?_seam (line : List Char × Nat) :
    (declaration? (line :: (upper ++ (text, number) :: lower))).map Declaration.bare =
      (declaration? (line :: (upper ++ (text', number) :: lower))).map Declaration.bare := by
  have hbelow : (fieldsBelow (upper ++ (text, number) :: lower)).map FieldSite.bare =
      (fieldsBelow (upper ++ (text', number) :: lower)).map FieldSite.bare :=
    fieldsBelow_seam h number upper lower
  obtain ⟨first, place⟩ := line
  rw [declaration?, declaration?, Option.map_map, Option.map_map]
  congr 1
  funext header
  obtain ⟨name, rest⟩ := header
  by_cases hopen : GoesOn rest
  · simp [Declaration.bare, hopen, hbelow]
  · simp [Declaration.bare, hopen]

/-- The declarations above and below a line stay when it is exchanged. -/
theorem declarations_seam :
    ∃ earlier later, (∀ d ∈ earlier, d.line ∈ upper.map Prod.snd) ∧
      (∀ d ∈ later, d.line ∈ lower.map Prod.snd) ∧
      (declarations (upper ++ (text, number) :: lower)).map Declaration.bare =
        earlier ++ (((declaration? ((text, number) :: lower)).map Declaration.bare).toList ++
          later) ∧
      (declarations (upper ++ (text', number) :: lower)).map Declaration.bare =
        earlier ++ (((declaration? ((text', number) :: lower)).map Declaration.bare).toList ++
          later) := by
  -- By induction on the lines above, whose bodies may go on across the line.
  induction upper with
  | nil =>
      refine ⟨[], (declarations lower).map Declaration.bare, nofun, ?_,
        map_bare_declarations_cons _ _, map_bare_declarations_cons _ _⟩
      refine List.forall_mem_map.mpr fun d hd => ?_
      have hline : d.line ∈ lower.map Prod.snd := line_mem_of_mem_declarations hd
      exact hline
  | cons line upper ih =>
      obtain ⟨earlier, later, hearlier, hlater, hfirst, hsecond⟩ := ih
      refine ⟨((declaration? (line :: (upper ++ (text, number) :: lower))).map
        Declaration.bare).toList ++ earlier, later, ?_, hlater, ?_, ?_⟩
      · rintro d hd
        rcases List.mem_append.mp hd with hd | hd
        · obtain ⟨declared, hdeclared, rfl⟩ := Option.map_eq_some_iff.mp (Option.mem_toList.mp hd)
          have hline : declared.line = line.2 := line_of_declaration? hdeclared
          exact List.mem_cons.mpr (.inl hline)
        · exact List.mem_cons_of_mem _ (hearlier d hd)
      · rw [List.cons_append, map_bare_declarations_cons, hfirst, List.append_assoc]
      · rw [List.cons_append, map_bare_declarations_cons, hsecond, List.append_assoc,
          declaration?_seam h number upper lower]

end

/-! ## The line -/

/-- A line of a text, and blanks at its end, between what stands above it and the rest of the text,
which is nothing or the end of the line and what stands below. -/
structure IsLine (above line gap rest : String) : Prop where
  above : Text.IsEnded '\n' above.toList
  line : '\n' ∉ line.toList
  blanks : Blanks gap.toList
  gap : '\n' ∉ gap.toList
  rest : ∀ c ∈ rest.toList.head?, c = '\n'

/-- The number of a line with that above it. -/
def lineBehind (above : String) : Nat :=
  (Text.lines '\n' above.toList).length + 1

theorem map_snd_numberedLines (source : String) :
    (numberedLines source).map Prod.snd =
      List.range' 1 (Text.lines '\n' source.toList).length := by
  rw [numberedLines, List.zipIdx_map_snd, List.length_map]

/-- Whatever stands behind a line, it is the same line among the same others. -/
theorem IsLine.exists_numberedLines {above line gap rest : String} (h : IsLine above line gap rest)
    (hline : Text.trim line.toList ≠ []) :
    ∃ lower : List (List Char × Nat),
      (∀ place ∈ lower.map Prod.snd, lineBehind above < place) ∧
      numberedLines (above ++ line ++ gap ++ rest) = numberedLines above ++
        (Text.trim line.toList, lineBehind above) :: lower ∧
      ∀ text : String, '\n' ∉ text.toList →
        numberedLines (above ++ line ++ text ++ gap ++ rest) = numberedLines above ++
          (Text.trim (line.toList ++ text.toList), lineBehind above) :: lower := by
  obtain ⟨below, hbelow⟩ := Text.exists_lines_below h.rest
  have hne : line.toList ≠ [] := fun hnil => hline (by rw [hnil, Text.trim_nil])
  have hwith (text : String) (htext : '\n' ∉ text.toList) :
      numberedLines (above ++ line ++ text ++ gap ++ rest) = numberedLines above ++
        (Text.trim (line.toList ++ text.toList), lineBehind above) ::
          (below.map Text.trim).zipIdx (lineBehind above + 1) := by
    have hnot : '\n' ∉ line.toList ++ text.toList ++ gap.toList := by
      simp only [List.mem_append, not_or]
      exact ⟨⟨h.line, htext⟩, h.gap⟩
    have hfull : line.toList ++ text.toList ++ gap.toList ≠ [] := by
      simp [hne]
    have hsource : (above ++ line ++ text ++ gap ++ rest).toList =
        above.toList ++ ((line.toList ++ text.toList ++ gap.toList) ++ rest.toList) := by
      simp only [String.toList_append, List.append_assoc]
    rw [numberedLines, hsource, Text.lines_append h.above, hbelow _ hnot hfull, List.map_append,
      List.map_cons, List.zipIdx_append, List.zipIdx_cons, Text.trim_append_of_blanks h.blanks,
      List.length_map, Nat.add_comm 1]
    rfl
  refine ⟨(below.map Text.trim).zipIdx (lineBehind above + 1), ?_, ?_, hwith⟩
  · intro place hplace
    rw [List.zipIdx_map_snd, List.mem_range'_1] at hplace
    exact hplace.1
  · have hwithout := hwith "" nofun
    rwa [String.append_empty, String.toList_empty, List.append_nil] at hwithout

theorem lt_lineBehind {above : String} :
    ∀ place ∈ (numberedLines above).map Prod.snd, place < lineBehind above := by
  intro place hplace
  rw [map_snd_numberedLines, List.mem_range'_1, Nat.add_comm] at hplace
  exact hplace.2

end Schema
end FieldMap
