import FieldMap.Proofs.DeclarationForms
import FieldMap.Proofs.Declarations
import FieldMap.Proofs.Outcome

/-!
# The scan reads the declarations

The scan of a schema carries the structs read so far and, inside a body, the body.  It is
shown to come to what `Declarations` tells of the lines, in three steps:

* `addInline_eq` and `run_inside`: fields are added one by one, on the header line and then on
  the lines below, as far as the longest prefix of fields goes;
* `run_between_cons`: between two structs a line is passed over or declares a struct;
* `run_between`: so the scan adds the declarations of the lines one by one.  A field line that
  belongs to a body is met again as a line from which on the text could be read, but declares
  nothing, because it is no header.

Adding declarations one by one fails at the first of their faults (`addDeclarations_eq`).
-/

namespace FieldMap
namespace Schema

/-! ## One by one -/

/-- Adds a field to a body. -/
def addSite (file : String) (body : Body) (site : FieldSite) : Except ParseError Body :=
  (body.add site.line site.field).mapError (⟨file, site.line, String.ofList site.text, ·⟩)

/-- Adds a declared struct to structs, newest first. -/
def addDeclaration (file : String) (structs : List Struct) (d : Declaration) :
    Except ParseError (List Struct) :=
  if structs.any (·.name == d.name) then
    .error ⟨file, d.line, String.ofList d.text, .duplicateStruct d.name⟩
  else (d.fields.foldlM (addSite file) ⟨d.name, d.line, []⟩).map (·.toStruct :: structs)

/-- A body with more members. -/
def Body.extend (body : Body) (sites : List FieldSite) : Body :=
  { body with members := (sites.map FieldSite.member).reverse ++ body.members }

/-- A field is added unless something is wrong with it. -/
theorem addSite_eq (file : String) (body : Body) (site : FieldSite) :
    addSite file body site =
      match fieldFault? body.name (body.members.map Member.name) site.field with
      | some fault => .error ⟨file, site.line, String.ofList site.text, fault⟩
      | none => .ok (body.extend [site]) := by
  unfold addSite Body.add fieldFault? countFault?
  cases hread : readCount site.field.name site.field.digits with
  | error fault => rfl
  | ok count =>
      obtain ⟨-, rfl⟩ := readCount_eq_ok_iff.mp hread
      rw [any_name_eq Member.name]
      by_cases hname : site.field.name ∈ body.members.map Member.name
      · simp only [hname, decide_true, if_true]
        rfl
      · simp only [hname, decide_false, if_false, Bool.false_eq_true]
        rfl

/-- Fields are added up to the first of their faults. -/
theorem addSites_eq (file : String) (body : Body) (sites : List FieldSite) :
    sites.foldlM (addSite file) body =
      match (fieldFaults file body.name (body.members.map Member.name) sites).head? with
      | some e => .error e
      | none => .ok (body.extend sites) := by
  induction sites generalizing body with
  | nil => rfl
  | cons site sites ih =>
      rw [List.foldlM_cons, addSite_eq, fieldFaults]
      cases fieldFault? body.name (body.members.map Member.name) site.field with
      | some fault => rfl
      | none =>
          have hextend : (body.extend [site]).extend sites = body.extend (site :: sites) := by
            simp [Body.extend]
          rw [ok_bind, ih, hextend]
          rfl

/-- Structs are added up to the first of their faults. -/
theorem addDeclarations_eq (file : String) (structs : List Struct) (declared : List Declaration) :
    declared.foldlM (addDeclaration file) structs =
      match (faults file (structs.map Struct.name) declared).head? with
      | some e => .error e
      | none => .ok ((declared.map Declaration.toStruct).reverse ++ structs) := by
  induction declared generalizing structs with
  | nil => rfl
  | cons d declared ih =>
      rw [List.foldlM_cons, addDeclaration, faults, any_name_eq Struct.name]
      by_cases hname : d.name ∈ structs.map Struct.name
      · simp only [hname, decide_true, if_true]
        rfl
      · simp only [hname, decide_false, if_false, Bool.false_eq_true, List.nil_append]
        rw [addSites_eq]
        cases hfaults : fieldFaults file d.name [] d.fields with
        | cons e faults =>
            simp only [List.map_nil, hfaults]
            rfl
        | nil =>
            have hstruct : (Body.extend ⟨d.name, d.line, []⟩ d.fields).toStruct = d.toStruct := by
              simp [Body.extend, Body.toStruct, Declaration.toStruct]
            simp only [List.map_nil, hfaults, List.nil_append, List.head?_nil, Except.map, ok_bind,
              hstruct]
            rw [ih, List.map_cons, List.map_cons, List.reverse_cons, List.append_assoc]
            rfl

/-! ## The header line -/

theorem Body.line_of_add {body next : Body} {line : Nat} {field : Field}
    (h : body.add line field = .ok next) : next.line = body.line := by
  unfold Body.add at h
  split at h
  · cases h
  · split at h
    · cases h
    · cases h
      rfl

/-- The fields of a header line are added as far as its parts are fields. -/
theorem addInline_eq (file : String) (text : List Char) (body : Body)
    (parts : List (List Char)) :
    (body.addInline parts).mapError (⟨file, body.line, String.ofList text, ·⟩) =
      (((longestPrefix inlineField? parts).map (⟨·, body.line, text⟩)).foldlM
        (addSite file) body).map fun body =>
          (body, parts.find? fun part => (inlineField? part).isNone) := by
  induction parts generalizing body with
  | nil => rfl
  | cons part parts ih =>
      rw [Body.addInline, longestPrefix, List.find?_cons]
      cases hfield : inlineField? part with
      | none => rfl
      | some field =>
          simp only [List.map_cons, List.foldlM_cons, addSite, Option.isNone_some]
          cases hadd : body.add body.line field with
          | error fault => rfl
          | ok next =>
              have hline : next.line = body.line := Body.line_of_add hadd
              simp only [Except.mapError, ok_bind, ← hline]
              exact ih next

theorem inlineParts_eq (inside : List Char) : inlineParts inside = partsOf inside := by
  have hkept : (fun part : List Char => !part.isEmpty) = fun part => decide (part ≠ []) := by
    funext part
    cases part <;> rfl
  rw [inlineParts, partsOf, Text.split_eq_splitOn, hkept]

/-- The text behind the brace of a header is cut at the first closing one. -/
theorem span_brace (rest : List Char) :
    rest.span (· != '\x7d') =
      (rest.takeWhile (· ≠ '\x7d'), rest.dropWhile (· ≠ '\x7d')) := by
  have hother : (fun c : Char => c != '\x7d') = fun c => decide (c ≠ '\x7d') := by
    funext c
    rw [Bool.eq_iff_iff, bne_iff_ne, decide_eq_true_iff]
  rw [List.span_eq_takeWhile_dropWhile, hother]

/-- Nothing is left behind the cut if there is no closing brace. -/
theorem isEmpty_dropWhile_brace_iff {rest : List Char} :
    (rest.dropWhile (· ≠ '\x7d')).isEmpty = true ↔ '\x7d' ∉ rest := by
  rw [List.isEmpty_iff, List.dropWhile_eq_nil_iff]
  constructor
  · intro hother hbrace
    exact absurd rfl (of_decide_eq_true (hother _ hbrace))
  · intro hbrace c hc
    exact decide_eq_true (fun heq => hbrace (heq ▸ hc))

theorem find?_isNone_eq_none_iff {parts : List (List Char)} :
    (parts.find? fun part => (inlineField? part).isNone) = none ↔
      ∀ part ∈ parts, (inlineField? part).isSome = true := by
  simp only [List.find?_eq_none, Bool.not_eq_true, Option.isNone_eq_false_iff]

theorem goesOn_iff {rest : List Char} :
    GoesOn rest ↔ '\x7d' ∉ rest ∧
      (headerParts rest).find? (fun part => (inlineField? part).isNone) = none := by
  rw [GoesOn, find?_isNone_eq_none_iff]

section
variable {file : String} {structs : List Struct} {number : Nat} {text rest : List Char}
  {name : String} (h : header? text = some (name, rest)) (hnew : name ∉ structs.map Struct.name)
include h hnew

/-- A header with a new name opens a body, and ends it at once at a part that is no field, which is
reported, or at a closing brace. -/
theorem outerLine_of_header? :
    outerLine file structs number text =
      match Body.addInline ⟨name, number, []⟩ (headerParts rest) with
      | .error fault => Traced.fail ⟨file, number, String.ofList text, fault⟩
      | .ok (body, some part) => do
        Traced.report (.bodyEndsAtField file number name (String.ofList part))
        closeBody structs body
      | .ok (body, none) =>
        if '\x7d' ∉ rest then pure ⟨structs, some body⟩ else closeBody structs body := by
  have hany : structs.any (·.name == name) = false := by
    rw [any_name_eq Struct.name, decide_eq_false hnew]
  rcases hinline : Body.addInline ⟨name, number, []⟩ (headerParts rest) with
    fault | ⟨body, _ | part⟩
  all_goals
    rw [headerParts] at hinline
    simp only [outerLine, h, hany, span_brace, inlineParts_eq, hinline,
      isEmpty_dropWhile_brace_iff, Bool.false_eq_true, if_false]

theorem result_outerLine_of_addInline :
    (outerLine file structs number text).result =
      ((Body.addInline ⟨name, number, []⟩ (headerParts rest)).mapError
        (⟨file, number, String.ofList text, ·⟩)).map fun (body, part?) =>
          if '\x7d' ∉ rest ∧ part? = none then ⟨structs, some body⟩
          else ⟨body.toStruct :: structs, none⟩ := by
  rw [outerLine_of_header? h hnew]
  rcases Body.addInline ⟨name, number, []⟩ (headerParts rest) with fault | ⟨body, part?⟩
  · rfl
  · cases part? with
    | some part =>
        show _ = Except.ok (if _ ∧ some part = none then _ else _)
        rw [if_neg (fun hnone => nomatch hnone.2)]
        rfl
    | none =>
        by_cases hbrace : '\x7d' ∈ rest
        · simp only [hbrace]
          rfl
        · simp only [hbrace]
          rfl

/-- A header with a new name opens a body with the fields on its line, and ends it at once
unless it goes on below. -/
theorem result_outerLine :
    (outerLine file structs number text).result =
      ((headerFields text number rest).foldlM (addSite file) ⟨name, number, []⟩).map fun body =>
        if GoesOn rest then ⟨structs, some body⟩ else ⟨body.toStruct :: structs, none⟩ := by
  have hinline := addInline_eq file text ⟨name, number, []⟩ (headerParts rest)
  rw [← headerFields] at hinline
  rw [result_outerLine_of_addInline h hnew, hinline]
  simp only [goesOn_iff]
  cases (headerFields text number rest).foldlM (addSite file) ⟨name, number, []⟩ <;> rfl

end

/-! ## The lines -/

/-- What the rest of the lines comes to. -/
def run (file : String) (scan : Scan) (lines : List (List Char × Nat)) :
    Except ParseError (List Struct) :=
  (Traced.fold (scanLine file) scan lines >>= finish file).result

section
variable {file : String} {structs : List Struct} {text : List Char} {number : Nat}
  {lines : List (List Char × Nat)}

theorem run_cons (scan : Scan) :
    run file scan ((text, number) :: lines) =
      (scanLine file scan (text, number)).result >>= fun next => run file next lines := by
  rw [run, Traced.result_fold_cons_bind]
  rfl

/-- A line that is no header is passed over. -/
theorem run_between_cons_of_header?_eq_none (h : header? text = none) :
    run file ⟨structs, none⟩ ((text, number) :: lines) = run file ⟨structs, none⟩ lines := by
  have hline : (scanLine file ⟨structs, none⟩ (text, number)).result = .ok ⟨structs, none⟩ := by
    simp only [scanLine, outerLine, h]
    rfl
  rw [run_cons, hline, ok_bind]

/-- A line that ends a body is read as if there were none. -/
theorem run_inside_cons_of_bodyField?_eq_none {body : Body} (h : bodyField? text = none) :
    run file ⟨structs, some body⟩ ((text, number) :: lines) =
      run file ⟨body.toStruct :: structs, none⟩ ((text, number) :: lines) := by
  have hline : (scanLine file ⟨structs, some body⟩ (text, number)).result =
      (scanLine file ⟨body.toStruct :: structs, none⟩ (text, number)).result := by
    simp only [scanLine, h]
    split <;> rfl
  rw [run_cons, run_cons, hline]

/-- A body goes on as far as the lines are fields, and all lines are then read as if there
were none. -/
theorem run_inside {body : Body} :
    run file ⟨structs, some body⟩ lines =
      (fieldsBelow lines).foldlM (addSite file) body >>= fun body =>
        run file ⟨body.toStruct :: structs, none⟩ lines := by
  induction lines generalizing body with
  | nil => rfl
  | cons line lines ih =>
      obtain ⟨text, number⟩ := line
      cases hfield : bodyField? text with
      | none =>
          rw [fieldsBelow_cons_of_eq_none number lines hfield,
            run_inside_cons_of_bodyField?_eq_none hfield]
          rfl
      | some field =>
          have hheader : header? text = none := header?_eq_none_of_bodyField? hfield
          have hline : (scanLine file ⟨structs, some body⟩ (text, number)).result =
              (addSite file body ⟨field, number, text⟩).map (⟨structs, some ·⟩) := by
            simp only [scanLine, hfield, addSite]
            cases body.add number field <;> rfl
          simp only [run_between_cons_of_header?_eq_none hheader]
          rw [run_cons, hline, fieldsBelow_cons_of_eq_some number lines hfield, List.foldlM_cons]
          cases addSite file body ⟨field, number, text⟩ with
          | error e => rfl
          | ok next => exact ih

/-- Between two structs a line declares a struct or is passed over. -/
theorem run_between_cons :
    run file ⟨structs, none⟩ ((text, number) :: lines) =
      (declaration? ((text, number) :: lines)).toList.foldlM (addDeclaration file) structs >>=
        fun structs => run file ⟨structs, none⟩ lines := by
  cases hheader : header? text with
  | none =>
      rw [run_between_cons_of_header?_eq_none hheader, declaration?, hheader]
      rfl
  | some header =>
      obtain ⟨name, rest⟩ := header
      simp only [declaration?, hheader, Option.map_some, Option.toList_some, List.foldlM_cons,
        List.foldlM_nil, addDeclaration, any_name_eq Struct.name]
      by_cases hname : name ∈ structs.map Struct.name
      · have hline : (outerLine file structs number text).result =
            .error ⟨file, number, String.ofList text, .duplicateStruct name⟩ := by
          simp only [outerLine, hheader, any_name_eq Struct.name, hname, decide_true, if_true]
          rfl
        rw [run_cons]
        simp only [scanLine, hline, hname, decide_true, if_true]
        rfl
      · rw [run_cons]
        simp only [scanLine, result_outerLine hheader hname, hname, decide_false,
          Bool.false_eq_true, if_false, List.foldlM_append]
        cases (headerFields text number rest).foldlM (addSite file) ⟨name, number, []⟩ with
        | error e => rfl
        | ok body =>
            by_cases hopen : GoesOn rest
            · simp only [Except.map, ok_bind, if_pos hopen, run_inside]
              cases (fieldsBelow lines).foldlM (addSite file) body <;> rfl
            · simp only [Except.map, ok_bind, if_neg hopen]
              rfl

/-- The lines add their declarations one by one. -/
theorem run_between :
    run file ⟨structs, none⟩ lines =
      ((declarations lines).foldlM (addDeclaration file) structs).map List.reverse := by
  induction lines generalizing structs with
  | nil => rfl
  | cons line lines ih =>
      obtain ⟨text, number⟩ := line
      rw [run_between_cons, declarations_cons, List.foldlM_append]
      cases (declaration? ((text, number) :: lines)).toList.foldlM (addDeclaration file) structs with
      | error e => rfl
      | ok structs => exact ih

end

/-! ## Where fields come from -/

/-- Every field that is declared stands on its line in the form of a field. -/
theorem exists_fieldForm_of_mem_declarations {lines : List (List Char × Nat)} {d : Declaration}
    (h : d ∈ declarations lines) : ∀ site ∈ d.fields, ∃ text rest, FieldForm text site.field rest := by
  obtain ⟨lines, -, hd⟩ := List.mem_filterMap.mp h
  cases lines with
  | nil => cases hd
  | cons line below =>
      obtain ⟨⟨name, rest⟩, -, rfl⟩ := Option.map_eq_some_iff.mp hd
      intro site hsite
      rcases List.mem_append.mp hsite with hinline | hbelow
      · obtain ⟨field, hfield, rfl⟩ := List.mem_map.mp hinline
        obtain ⟨part, -, hread⟩ := exists_of_mem_longestPrefix hfield
        exact ⟨part, [], inlineField?_eq_some_iff.mp hread⟩
      · split at hbelow
        · obtain ⟨⟨text, number⟩, -, hread⟩ := exists_of_mem_longestPrefix hbelow
          obtain ⟨field, hfield, rfl⟩ := Option.map_eq_some_iff.mp hread
          obtain ⟨gap, behind, -, hform⟩ := bodyField?_eq_some_iff.mp hfield
          exact ⟨text, gap ++ (',' :: behind), hform⟩
        · cases hbelow

/-! ## The text -/

/-- A text comes to the first fault of its declarations, or else to their structs. -/
theorem result_parse (source file : String) :
    (parse source file).result =
      match (faults file [] (declarations (numberedLines source))).head? with
      | some e => .error e
      | none => .ok ((declarations (numberedLines source)).map Declaration.toStruct) := by
  change run file ⟨[], none⟩ (numberedLines source) = _
  rw [run_between, addDeclarations_eq, List.map_nil]
  cases (faults file [] (declarations (numberedLines source))).head? with
  | some e => rfl
  | none =>
      rw [List.append_nil]
      exact congrArg Except.ok (List.reverse_reverse _)

/-- A text is accepted when its declarations are faultless, and gives their structs. -/
theorem result_parse_eq_ok_iff {source file : String} {structs : List Struct} :
    (parse source file).result = .ok structs ↔
      Faultless (declarations (numberedLines source)) ∧
        structs = (declarations (numberedLines source)).map Declaration.toStruct := by
  rw [result_parse, ← @faults_eq_nil_iff file, ← List.head?_eq_none_iff]
  cases (faults file [] (declarations (numberedLines source))).head? with
  | some e => simp
  | none => simp [@eq_comm _ structs]

/-- A text is refused for the first of the faults in its declarations. -/
theorem result_parse_eq_error_iff {source file : String} {e : ParseError} :
    (parse source file).result = .error e ↔
      (faults file [] (declarations (numberedLines source))).head? = some e := by
  rw [result_parse]
  cases (faults file [] (declarations (numberedLines source))).head? <;> simp

-- The body of the first struct is not closed; it ends at the next header, which is not lost.
example :
    (declarations (numberedLines
      "A :: struct \x7b a: u8,\n b: u8[2], // two\nB :: struct \x7b c: A \x7d")).map
        Declaration.toStruct =
      [⟨"A", 1, [⟨"a", "u8", none, 1⟩, ⟨"b", "u8", some 2, 2⟩]⟩,
        ⟨"B", 3, [⟨"c", "A", none, 3⟩]⟩] := by
  decide +kernel

/-- The scan of a text is the same as reading off what its lines declare.

Headers and fields are the texts of their forms, and no line is both.  The text is accepted
exactly if the structs have different names, the members of each struct have different names,
and the counts are numbers from 1 to 4294967295; it then gives one struct for every header.
Otherwise it is refused for the first thing that is wrong, in the order of the text. -/
theorem parse_eq_declarations (source file : String) :
    (∀ text name rest, header? text = some (name, rest) ↔ HeaderForm text name rest) ∧
      (∀ text field, bodyField? text = some field ↔ BodyFieldForm text field) ∧
      (∀ text field, inlineField? text = some field ↔ FieldForm text field []) ∧
      (∀ text name rest field, ¬ (HeaderForm text name rest ∧ BodyFieldForm text field)) ∧
      (∀ structs, (parse source file).result = .ok structs ↔
        Faultless (declarations (numberedLines source)) ∧
          structs = (declarations (numberedLines source)).map Declaration.toStruct) ∧
      ∀ e, (parse source file).result = .error e ↔
        (faults file [] (declarations (numberedLines source))).head? = some e := by
  refine ⟨fun _ _ _ => header?_eq_some_iff, fun _ _ => bodyField?_eq_some_iff,
    fun _ _ => inlineField?_eq_some_iff, ?_, fun _ => result_parse_eq_ok_iff,
    fun _ => result_parse_eq_error_iff⟩
  rintro text name rest field ⟨hheader, hfield⟩
  have hnone := bodyField?_eq_none_of_header? (header?_eq_some_iff.mpr hheader)
  rw [bodyField?_eq_some_iff.mpr hfield] at hnone
  cases hnone

end Schema
end FieldMap
