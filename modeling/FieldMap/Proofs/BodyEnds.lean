import FieldMap.Proofs.ScannedDeclarations

/-!
# How bodies end

The body of a struct ends properly at a closing brace, on its header line or on the first line
below that is no field.  A body that ends otherwise is kept, but not silently: there is one warning
for it.

* `Opening` is a header with what stands behind its brace and the lines below it, and
  `Opening.EndsProperly` says of it how its body ends.
* `Opening.CutShort` are the three ways in which a body is cut short, each with its warning.
* `warnings_scan` tells the warnings of the scan from the lines that are still to come and the body
  that is open, by induction on the lines; a body is reported at the line that ends it, so never
  before the bodies above it.
* `parse_warns_of_bodies_cut_short` puts them together for a whole text.
-/

namespace FieldMap

/-! ## Warnings -/

namespace Traced

variable {ε α β γ : Type}

/-- Sequences may be bracketed in any way. -/
theorem bind_assoc (x : Traced ε α) (f : α → Traced ε β) (g : β → Traced ε γ) :
    x >>= f >>= g = x >>= fun a => f a >>= g := by
  obtain ⟨events, result⟩ := x
  cases result with
  | error e => rfl
  | ok a =>
      show Traced.bind ⟨events ++ (f a).events, (f a).result⟩ g =
        Traced.bind ⟨events, .ok a⟩ fun a => Traced.bind (f a) g
      unfold Traced.bind
      cases hresult : (f a).result <;> simp [hresult]

/-- The warnings among the events. -/
def warnings (x : Traced ε α) : List Event :=
  x.events.filter fun event => event.level = .warn

theorem warnings_bind_of_ok {x : Traced ε α} {a : α} (h : x.result = .ok a)
    (f : α → Traced ε β) : (x >>= f).warnings = x.warnings ++ (f a).warnings := by
  obtain ⟨events, result⟩ := x
  cases h
  exact List.filter_append _ _

end Traced

namespace Schema

/-! ## Bodies -/

/-- A header: the name and the line of its struct, the text behind its brace, and the lines
below it. -/
structure Opening where
  name : String
  line : Nat
  rest : List Char
  below : List (List Char × Nat)
  deriving DecidableEq, Repr

/-- The opening on the first of the lines, if it is a header. -/
def opening? : List (List Char × Nat) → Option Opening
  | [] => none
  | (text, line) :: below =>
    (header? text).map fun (name, rest) => ⟨name, line, rest, below⟩

/-- The openings on the lines, one for every header. -/
def openings (lines : List (List Char × Nat)) : List Opening :=
  lines.tails.filterMap opening?

theorem openings_cons (line : List Char × Nat) (lines : List (List Char × Nat)) :
    openings (line :: lines) = (opening? (line :: lines)).toList ++ openings lines := by
  rw [openings, List.tails, List.filterMap_cons]
  cases opening? (line :: lines) <;> rfl

/-- The lines from the first one on that is no field. -/
def behindFields (below : List (List Char × Nat)) : List (List Char × Nat) :=
  below.dropWhile fun line => (bodyField? line.1).isSome

namespace Opening

/-- The body is closed on the header line, behind nothing but fields, or the fields of the header
line and of the lines below it are followed by a line that begins with a closing brace. -/
def EndsProperly (o : Opening) : Prop :=
  ('\x7d' ∈ o.rest ∧ ∀ part ∈ headerParts o.rest, (inlineField? part).isSome = true) ∨
    ('\x7d' ∉ o.rest ∧ (∀ part ∈ headerParts o.rest, (inlineField? part).isSome = true) ∧
      ∃ line ∈ (behindFields o.below).head?, line.1.head? = some '\x7d')

instance (o : Opening) : Decidable o.EndsProperly :=
  inferInstanceAs (Decidable (_ ∨ _))

/-- The ways in which a body is cut short, with the warning of each: at a part of the header line
that is no field, at a line below that is neither a field nor a closing brace, and at the end of the
text. -/
inductive CutShort (file : String) (o : Opening) : Event → Prop
  | atField {fields after : List (List Char)} {part : List Char} :
      headerParts o.rest = fields ++ part :: after →
        (∀ part ∈ fields, (inlineField? part).isSome = true) → inlineField? part = none →
          CutShort file o (.bodyEndsAtField file o.line o.name (String.ofList part))
  | atLine {fields more : List (List Char × Nat)} {text : List Char} {number : Nat} :
      GoesOn o.rest → o.below = fields ++ (text, number) :: more →
        (∀ line ∈ fields, (bodyField? line.1).isSome = true) → bodyField? text = none →
          text.head? ≠ some '\x7d' →
            CutShort file o (.bodyEndsAtLine file number o.name (String.ofList text)
              ((headerParts o.rest).length + fields.length))
  | notClosed : GoesOn o.rest → (∀ line ∈ o.below, (bodyField? line.1).isSome = true) →
      CutShort file o (.bodyNotClosed file o.name)

end Opening

/-- The warning of a body that goes on below, after so many members. -/
def endWarning? (file name : String) (kept : Nat) (below : List (List Char × Nat)) :
    Option Event :=
  match behindFields below with
  | [] => some (.bodyNotClosed file name)
  | (text, number) :: _ =>
    if text.head? = some '\x7d' then none
    else some (.bodyEndsAtLine file number name (String.ofList text)
      (kept + (fieldsBelow below).length))

/-- The warning of a body. -/
def Opening.warning? (file : String) (o : Opening) : Option Event :=
  match (headerParts o.rest).find? fun part => (inlineField? part).isNone with
  | some part => some (.bodyEndsAtField file o.line o.name (String.ofList part))
  | none =>
    if '\x7d' ∈ o.rest then none
    else endWarning? file o.name (headerParts o.rest).length o.below

/-! ## The three ways -/

section
variable {file name : String} {below : List (List Char × Nat)} {o : Opening}

theorem behindFields_cons_of_eq_none {text : List Char} (number : Nat)
    (below : List (List Char × Nat)) (h : bodyField? text = none) :
    behindFields ((text, number) :: below) = (text, number) :: below := by
  simp [behindFields, h]

theorem behindFields_cons_of_eq_some {text : List Char} {field : Field} (number : Nat)
    (below : List (List Char × Nat)) (h : bodyField? text = some field) :
    behindFields ((text, number) :: below) = behindFields below := by
  simp [behindFields, h]

/-- The lines below a header are its fields and then the lines behind them. -/
theorem exists_fields (below : List (List Char × Nat)) :
    ∃ fields, below = fields ++ behindFields below ∧
      (∀ line ∈ fields, (bodyField? line.1).isSome = true) ∧
      fields.length = (fieldsBelow below).length ∧
      ∀ line ∈ (behindFields below).head?, bodyField? line.1 = none := by
  induction below with
  | nil => exact ⟨[], rfl, nofun, rfl, nofun⟩
  | cons line below ih =>
      obtain ⟨text, number⟩ := line
      cases hfield : bodyField? text with
      | none =>
          rw [behindFields_cons_of_eq_none number below hfield,
            fieldsBelow_cons_of_eq_none number below hfield]
          refine ⟨[], rfl, nofun, rfl, ?_⟩
          rintro _ ⟨⟩
          exact hfield
      | some field =>
          obtain ⟨fields, hbelow, hall, hlength, hend⟩ := ih
          rw [behindFields_cons_of_eq_some number below hfield,
            fieldsBelow_cons_of_eq_some number below hfield]
          refine ⟨(text, number) :: fields, ?_, ?_, ?_, hend⟩
          · rw [List.cons_append, ← hbelow]
          · exact List.forall_mem_cons.mpr ⟨Option.isSome_of_eq_some hfield, hall⟩
          · rw [List.length_cons, List.length_cons, hlength]

theorem endWarning?_eq_none_iff {kept : Nat} :
    endWarning? file name kept below = none ↔
      ∃ line ∈ (behindFields below).head?, line.1.head? = some '\x7d' := by
  unfold endWarning?
  cases behindFields below with
  | nil => simp
  | cons line more => simp

/-- No warning is for a body that ends properly, and one for every other body. -/
theorem warning?_eq_none_iff : o.warning? file = none ↔ o.EndsProperly := by
  unfold Opening.warning? Opening.EndsProperly
  cases hfind : (headerParts o.rest).find? fun part => (inlineField? part).isNone with
  | some part =>
      have hnot : ¬ ∀ part ∈ headerParts o.rest, (inlineField? part).isSome = true := by
        rw [← find?_isNone_eq_none_iff, hfind]
        exact nofun
      simp [hnot]
  | none =>
      have hall := find?_isNone_eq_none_iff.mp hfind
      by_cases hbrace : '\x7d' ∈ o.rest
      · dsimp only
        rw [if_pos hbrace]
        exact iff_of_true rfl (.inl ⟨hbrace, hall⟩)
      · dsimp only
        rw [if_neg hbrace, endWarning?_eq_none_iff]
        constructor
        · exact fun hend => .inr ⟨hbrace, hall, hend⟩
        · rintro (⟨hclosed, -⟩ | ⟨-, -, hend⟩)
          · exact absurd hclosed hbrace
          · exact hend

/-- The warning of a body says how it is cut short. -/
theorem cutShort_of_warning? {event : Event} (h : o.warning? file = some event) :
    o.CutShort file event := by
  unfold Opening.warning? at h
  cases hfind : (headerParts o.rest).find? fun part => (inlineField? part).isNone with
  | some part =>
      rw [hfind] at h
      cases h
      obtain ⟨hpart, fields, after, hparts, hfields⟩ := List.find?_eq_some_iff_append.mp hfind
      exact .atField hparts (by simpa using hfields) (by simpa using hpart)
  | none =>
      have hall := find?_isNone_eq_none_iff.mp hfind
      rw [hfind] at h
      dsimp only at h
      split at h
      · cases h
      · next hbrace =>
          have hopen : GoesOn o.rest := ⟨hbrace, hall⟩
          obtain ⟨fields, hbelow, hfields, hlength, hend⟩ := exists_fields o.below
          unfold endWarning? at h
          cases hbehind : behindFields o.below with
          | nil =>
              rw [hbehind] at h hbelow
              cases h
              rw [List.append_nil] at hbelow
              exact .notClosed hopen (hbelow ▸ hfields)
          | cons line more =>
              obtain ⟨text, number⟩ := line
              rw [hbehind] at h hbelow hend
              dsimp only at h
              split at h
              · cases h
              · next hbrace =>
                  cases h
                  rw [← hlength]
                  exact .atLine hopen hbelow hfields (hend _ rfl) hbrace

end

/-! ## The warnings of the scan -/

/-- The members that a header line adds, and the part at which it breaks off. -/
theorem of_addInline {body next : Body} {parts : List (List Char)} {part? : Option (List Char)}
    (h : body.addInline parts = .ok (next, part?)) :
    next.name = body.name ∧
      next.members.length = (longestPrefix inlineField? parts).length + body.members.length ∧
      part? = parts.find? fun part => (inlineField? part).isNone := by
  have hinline := addInline_eq "" [] body parts
  rw [h, addSites_eq] at hinline
  split at hinline
  · cases hinline
  · cases hinline
    exact ⟨rfl, by simp [Body.extend], rfl⟩

/-- The body with one more member. -/
theorem of_add {body next : Body} {line : Nat} {field : Field}
    (h : body.add line field = .ok next) :
    next.name = body.name ∧ next.members.length = body.members.length + 1 := by
  have hsite := addSite_eq "" body ⟨field, line, []⟩
  rw [addSite, h] at hsite
  split at hsite
  · cases hsite
  · cases hsite
    exact ⟨rfl, by simp [Body.extend]⟩

/-- The warning of the body that is open, if there is one and these lines are still to come. -/
def Scan.endWarning? (file : String) (scan : Scan) (lines : List (List Char × Nat)) :
    Option Event :=
  scan.body.bind fun body => Schema.endWarning? file body.name body.members.length lines

section
variable {file : String} {structs : List Struct} {text : List Char} {number : Nat}
  {lines : List (List Char × Nat)} {next : Scan}

theorem result_closeBody (body : Body) :
    (closeBody structs body).result = .ok ⟨body.toStruct :: structs, none⟩ :=
  rfl

/-- A body is reported as it is taken over, but not with a warning. -/
theorem warnings_closeBody (body : Body) : (closeBody structs body).warnings = [] := by
  show (reportStruct body.toStruct ++ []).filter _ = []
  simp [reportStruct, Event.level]

theorem warnings_closeBody_bind {α : Type} (body : Body) (f : Scan → Traced ParseError α) :
    (closeBody structs body >>= f).warnings = (f ⟨body.toStruct :: structs, none⟩).warnings := by
  rw [Traced.warnings_bind_of_ok (result_closeBody body), warnings_closeBody, List.nil_append]

/-- A header gives the warning of its body, or leaves it to the lines below. -/
theorem warnings_outerLine_of_header? {name : String} {rest : List Char}
    (hheader : header? text = some (name, rest)) (hnew : name ∉ structs.map Struct.name)
    (h : (outerLine file structs number text).result = .ok next) :
    (outerLine file structs number text).warnings ++ (next.endWarning? file lines).toList =
      (Opening.warning? file ⟨name, number, rest, lines⟩).toList := by
  rw [outerLine_of_header? hheader hnew] at h ⊢
  rw [Opening.warning?]
  cases hinline : Body.addInline ⟨name, number, []⟩ (headerParts rest) with
  | error fault =>
      rw [hinline] at h
      cases h
  | ok added =>
      obtain ⟨body, part?⟩ := added
      rw [hinline] at h
      obtain ⟨hname, hmembers, hpart⟩ := of_addInline hinline
      cases part? with
      | some part =>
          -- The body ends on the header line, so that the lines below have no part in it.
          cases h
          dsimp only
          rw [Traced.warnings_bind_of_ok rfl, warnings_closeBody, ← hpart]
          rfl
      | none =>
          have hall := find?_isNone_eq_none_iff.mp hpart.symm
          dsimp only at h ⊢
          rw [← hpart]
          by_cases hbrace : '\x7d' ∈ rest
          · rw [if_neg (not_not_intro hbrace)] at h ⊢
            cases h
            dsimp only
            rw [warnings_closeBody, if_pos hbrace]
            rfl
          · rw [if_pos hbrace] at h ⊢
            cases h
            simp only [if_neg hbrace, Scan.endWarning?, Option.bind_some, hname, hmembers,
              length_longestPrefix hall]
            rfl

/-- A line between two structs gives the warning of the body that it opens, or leaves it to the
lines below. -/
theorem warnings_outerLine (h : (outerLine file structs number text).result = .ok next) :
    (outerLine file structs number text).warnings ++ (next.endWarning? file lines).toList =
      ((opening? ((text, number) :: lines)).bind (Opening.warning? file)).toList := by
  cases hheader : header? text with
  | none =>
      simp only [outerLine, hheader] at h ⊢
      cases h
      rw [opening?, hheader]
      rfl
  | some header =>
      obtain ⟨name, rest⟩ := header
      have hnew : name ∉ structs.map Struct.name := by
        intro hknown
        simp only [outerLine, hheader, any_name_eq Struct.name, hknown, decide_true, if_true] at h
        cases h
      rw [warnings_outerLine_of_header? hheader hnew h, opening?, hheader]
      rfl

/-- A field below a header leaves the end of its body to the lines below. -/
theorem warnings_scanLine_of_bodyField? {body : Body} {field : Field}
    (hfield : bodyField? text = some field)
    (h : (scanLine file ⟨structs, some body⟩ (text, number)).result = .ok next) :
    (scanLine file ⟨structs, some body⟩ (text, number)).warnings = [] ∧
      next.endWarning? file lines =
        endWarning? file body.name body.members.length ((text, number) :: lines) := by
  simp only [scanLine, hfield] at h ⊢
  cases hadd : body.add number field with
  | error fault =>
      rw [hadd] at h
      cases h
  | ok added =>
      rw [hadd] at h
      cases h
      obtain ⟨hname, hmembers⟩ := of_add hadd
      refine ⟨rfl, ?_⟩
      rw [endWarning?, behindFields_cons_of_eq_some number lines hfield,
        fieldsBelow_cons_of_eq_some number lines hfield, Scan.endWarning?, Option.bind_some,
        endWarning?, hname, hmembers, List.length_cons, Nat.add_right_comm, Nat.add_assoc]

/-- A line that is no field ends the body above it, with a warning unless it begins with a
closing brace, and is then read as a line between two structs. -/
theorem warnings_scanLine_of_bodyField?_eq_none {body : Body} (hfield : bodyField? text = none)
    (h : (scanLine file ⟨structs, some body⟩ (text, number)).result = .ok next) :
    (outerLine file (body.toStruct :: structs) number text).result = .ok next ∧
      (scanLine file ⟨structs, some body⟩ (text, number)).warnings =
        (endWarning? file body.name body.members.length ((text, number) :: lines)).toList ++
          (outerLine file (body.toStruct :: structs) number text).warnings := by
  simp only [scanLine, hfield] at h ⊢
  rw [endWarning?, behindFields_cons_of_eq_none number lines hfield,
    fieldsBelow_cons_of_eq_none number lines hfield]
  by_cases hbrace : text.head? = some '\x7d'
  · simp only [hbrace, BEq.rfl, if_true] at h ⊢
    rw [Traced.result_bind, result_closeBody] at h
    exact ⟨h, warnings_closeBody_bind body _⟩
  · simp only [beq_eq_false_iff_ne.mpr hbrace, if_neg hbrace, Bool.false_eq_true, if_false] at h ⊢
    rw [Traced.result_bind, Traced.result_report, ok_bind, Traced.result_bind,
      result_closeBody] at h
    refine ⟨h, ?_⟩
    rw [Traced.warnings_bind_of_ok rfl, warnings_closeBody_bind]
    rfl

/-- A line gives the warning of the body that it ends and that of the body that it opens, or
leaves them to the lines below. -/
theorem warnings_scanLine {scan : Scan}
    (h : (scanLine file scan (text, number)).result = .ok next) :
    (scanLine file scan (text, number)).warnings ++ (next.endWarning? file lines).toList =
      (scan.endWarning? file ((text, number) :: lines)).toList ++
        ((opening? ((text, number) :: lines)).bind (Opening.warning? file)).toList := by
  obtain ⟨structs, body?⟩ := scan
  cases body? with
  | none => exact warnings_outerLine h
  | some body =>
      have hopen : Scan.endWarning? file ⟨structs, some body⟩ ((text, number) :: lines) =
          endWarning? file body.name body.members.length ((text, number) :: lines) := rfl
      rw [hopen]
      cases hfield : bodyField? text with
      | some field =>
          have hopening : opening? ((text, number) :: lines) = none := by
            rw [opening?, header?_eq_none_of_bodyField? hfield, Option.map_none]
          obtain ⟨hsilent, hend⟩ := warnings_scanLine_of_bodyField? hfield h
          rw [hsilent, hend, hopening, Option.bind_none, Option.toList_none, List.append_nil,
            List.nil_append]
      | none =>
          obtain ⟨houter, hwarnings⟩ := warnings_scanLine_of_bodyField?_eq_none hfield h
          rw [hwarnings, List.append_assoc, warnings_outerLine houter]

/-- The warnings of the scan are those of the body that is open and of the bodies that the lines
open. -/
theorem warnings_scan {scan : Scan}
    (h : (Traced.fold (scanLine file) scan lines >>= finish file).result = .ok structs) :
    (Traced.fold (scanLine file) scan lines >>= finish file).warnings =
      (scan.endWarning? file lines).toList ++
        (openings lines).filterMap (Opening.warning? file) := by
  -- What a line leaves to the lines below it is the warning of the body that is open behind it.
  induction lines generalizing scan with
  | nil =>
      obtain ⟨read, body?⟩ := scan
      cases body? with
      | none => rfl
      | some body =>
          show (Traced.report (.bodyNotClosed file body.name) >>= fun _ =>
            closeBody read body >>= fun scan => pure scan.structs.reverse).warnings = _
          rw [Traced.warnings_bind_of_ok rfl, warnings_closeBody_bind]
          rfl
  | cons line lines ih =>
      rw [Traced.fold_cons, Traced.bind_assoc] at h ⊢
      obtain ⟨next, hline, hrest⟩ := Traced.bind_eq_ok_iff.mp h
      rw [Traced.warnings_bind_of_ok hline, ih hrest, ← List.append_assoc,
        warnings_scanLine hline, openings_cons, List.filterMap_append, List.append_assoc]
      cases opening? (line :: lines) <;> rfl

end

/-! ## The warnings of a text -/

/-- There is one warning for each body that does not end properly, and none for the others. -/
theorem forall₂_warning? (file : String) (opened : List Opening) :
    List.Forall₂ (Opening.CutShort file) (opened.filter fun o => ¬ o.EndsProperly)
      (opened.filterMap (Opening.warning? file)) := by
  induction opened with
  | nil => exact .nil
  | cons o opened ih =>
      cases hwarning : o.warning? file with
      | none =>
          have hproper := warning?_eq_none_iff.mp hwarning
          rw [List.filterMap_cons_none hwarning, List.filter_cons_of_neg (by simpa using hproper)]
          exact ih
      | some event =>
          have himproper : ¬ o.EndsProperly := by
            rw [← warning?_eq_none_iff, hwarning]
            exact nofun
          rw [List.filterMap_cons_some hwarning,
            List.filter_cons_of_pos (by simpa using himproper)]
          exact .cons (cutShort_of_warning? hwarning) ih

/-- The warning of a body names its struct. -/
theorem exists_message_eq {file : String} {o : Opening} {event : Event}
    (h : o.CutShort file event) :
    ∃ before after, event.message = before ++ ("struct '" ++ o.name ++ "'") ++ after := by
  have hbody : ": body of struct '" = ": body of " ++ "struct '" := by decide
  cases h with
  | @atField _ _ part _ _ _ =>
      refine ⟨s!"{file}:{o.line}: body of ",
        s!" ends at unrecognized field '{String.ofList part}'", ?_⟩
      have hafter : "' ends at unrecognized field '" =
        "'" ++ " ends at unrecognized field '" := by decide
      show file ++ ":" ++ toString o.line ++ ": body of struct '" ++ o.name ++
        "' ends at unrecognized field '" ++ String.ofList part ++ "'" = _
      rw [hbody, hafter]
      simp only [String.append_assoc]
      rfl
  | @atLine fields _ text number _ _ _ _ _ =>
      refine ⟨s!"{file}:{number}: body of ",
        s!" ends at unrecognized line '{String.ofList text}' " ++
          s!"({(headerParts o.rest).length + fields.length} members kept)", ?_⟩
      have hafter : "' ends at unrecognized line '" =
        "'" ++ " ends at unrecognized line '" := by decide
      show file ++ ":" ++ toString number ++ ": body of struct '" ++ o.name ++
        "' ends at unrecognized line '" ++ String.ofList text ++ "' " ++
          s!"({(headerParts o.rest).length + fields.length} members kept)" = _
      rw [hbody, hafter]
      simp only [String.append_assoc]
      rfl
  | notClosed _ _ =>
      refine ⟨s!"{file}: ", " is not closed before end of file", ?_⟩
      have hbefore : ": struct '" = ": " ++ "struct '" := by decide
      have hafter : "' is not closed before end of file" =
        "'" ++ " is not closed before end of file" := by decide
      show file ++ ": struct '" ++ o.name ++ "' is not closed before end of file" = _
      rw [hbefore, hafter]
      simp only [String.append_assoc]
      rfl

/-- The structs of a text stand in the order of their openings. -/
theorem map_openings_eq_map_declarations {lines : List (List Char × Nat)} :
    (openings lines).map (fun o => (o.name, o.line)) =
      (declarations lines).map fun d => (d.name, d.line) := by
  rw [openings, declarations, List.map_filterMap, List.map_filterMap]
  congr 1
  funext below
  cases below with
  | nil => rfl
  | cons line below =>
      rw [opening?, declaration?, Option.map_map, Option.map_map]
      rfl

/-- No body is cut short in silence.  The structs of a text that is read are those of its headers,
in order, and the warnings are, in the same order, one for each body that does not end properly:
it says how the body is cut short and names the struct.  There are no other warnings. -/
theorem parse_warns_of_bodies_cut_short {source file : String} {structs : List Struct}
    (hparse : (parse source file).result = .ok structs) :
    structs.map (fun s => (s.name, s.line)) =
        (openings (numberedLines source)).map (fun o => (o.name, o.line)) ∧
      List.Forall₂
        (fun o event => o.CutShort file event ∧
          ∃ before after, event.message = before ++ ("struct '" ++ o.name ++ "'") ++ after)
        ((openings (numberedLines source)).filter fun o => ¬ o.EndsProperly)
        (parse source file).warnings := by
  constructor
  · rw [map_openings_eq_map_declarations, (result_parse_eq_ok_iff.mp hparse).2, List.map_map]
    rfl
  · have hwarnings : (parse source file).warnings =
        (openings (numberedLines source)).filterMap (Opening.warning? file) :=
      warnings_scan hparse
    rw [hwarnings]
    exact (forall₂_warning? file _).imp fun _ _ hcut => ⟨hcut, exists_message_eq hcut⟩

/-- A schema of four bodies, of which only the first ends properly. -/
def raggedSource : String :=
  "A :: struct \x7b a: u8 \x7d\nB :: struct \x7b b: u8, c u16,\n d: u8,\n\x7d\n" ++
    "C :: struct \x7b e: A,\n f: u8,\nD :: struct \x7b\n g: u8, // last"

/-- The three bodies that are cut short have a warning each: at a part of the header line, at the
next header, and at the end of the text. -/
theorem raggedSource_warns :
    (parse raggedSource "ragged").result =
      .ok [⟨"A", 1, [⟨"a", "u8", none, 1⟩]⟩, ⟨"B", 2, [⟨"b", "u8", none, 2⟩]⟩,
        ⟨"C", 5, [⟨"e", "A", none, 5⟩, ⟨"f", "u8", none, 6⟩]⟩,
        ⟨"D", 7, [⟨"g", "u8", none, 8⟩]⟩] ∧
    ((openings (numberedLines raggedSource)).filter fun o => ¬ o.EndsProperly).map
      Opening.name = ["B", "C", "D"] ∧
    (parse raggedSource "ragged").warnings =
      [.bodyEndsAtField "ragged" 2 "B" "c u16",
        .bodyEndsAtLine "ragged" 7 "C" "D :: struct \x7b" 2, .bodyNotClosed "ragged" "D"] ∧
    List.Forall₂ (fun o event => o.CutShort "ragged" event ∧
        ∃ before after, event.message = before ++ ("struct '" ++ o.name ++ "'") ++ after)
      ((openings (numberedLines raggedSource)).filter fun o => ¬ o.EndsProperly)
      (parse raggedSource "ragged").warnings := by
  have hparse : (parse raggedSource "ragged").result =
      .ok [⟨"A", 1, [⟨"a", "u8", none, 1⟩]⟩, ⟨"B", 2, [⟨"b", "u8", none, 2⟩]⟩,
        ⟨"C", 5, [⟨"e", "A", none, 5⟩, ⟨"f", "u8", none, 6⟩]⟩,
        ⟨"D", 7, [⟨"g", "u8", none, 8⟩]⟩] := by decide +kernel
  exact ⟨hparse, by decide +kernel, by decide +kernel,
    (parse_warns_of_bodies_cut_short hparse).2⟩

end Schema
end FieldMap
