import FieldMap.Proofs.ExchangedLines

/-!
# Text behind the last comma of a line

A field of a body line ends at its comma, so that whatever stands behind it is not read.  Behind the
last comma of a header line a comment is read as one more part, which is no field, and the body ends
there: the members on the lines below are lost.

* `Struct.cutAt` is a struct without the members below its header;
* `declarations_field_append` and `declarations_header_append` say what the lines declare with such
  a text behind one of them, by `declarations_seam`;
* `parse_trailing_text` says so of the whole text.
-/

namespace FieldMap

/-- The struct without the members below its header, if its header is on that line. -/
def Struct.cutAt (number : Nat) (s : Struct) : Struct :=
  if s.line = number then { s with members := s.members.filter (·.line = number) } else s

namespace Schema

open Text (isBlank Blanks)

/-! ## Declarations cut short -/

/-- The declaration without the fields below its header, if its header is on that line. -/
def Declaration.cutAt (number : Nat) (d : Declaration) : Declaration :=
  if d.line = number then { d with fields := d.fields.filter (·.line = number) } else d

theorem Declaration.name_cutAt (number : Nat) (d : Declaration) :
    (d.cutAt number).name = d.name := by
  unfold cutAt
  split <;> rfl

theorem Declaration.toStruct_cutAt (number : Nat) (d : Declaration) :
    (d.cutAt number).toStruct = d.toStruct.cutAt number := by
  by_cases hline : d.line = number
  · have hmembers : (d.fields.filter (·.line = number)).map FieldSite.member =
        (d.fields.map FieldSite.member).filter (·.line = number) := by
      rw [List.filter_map]
      rfl
    have hstruct : d.toStruct.line = number := hline
    rw [cutAt, Struct.cutAt, if_pos hline, if_pos hstruct, toStruct, toStruct, hmembers]
  · have hstruct : ¬ d.toStruct.line = number := hline
    rw [cutAt, Struct.cutAt, if_neg hline, if_neg hstruct]

/-- A struct with fewer members is not worse. -/
theorem Declaration.Faultless.cutAt {d : Declaration} (h : d.Faultless) (number : Nat) :
    (d.cutAt number).Faultless := by
  unfold Declaration.cutAt
  split
  · refine ⟨h.names.sublist (List.filter_sublist.map _), fun site hsite => ?_⟩
    exact h.counts site (List.mem_of_mem_filter hsite)
  · exact h

theorem Faultless.map_cutAt {declared : List Declaration} (h : Faultless declared) (number : Nat) :
    Faultless (declared.map (Declaration.cutAt number)) := by
  constructor
  · simp only [List.map_map, Function.comp_def, Declaration.name_cutAt]
    exact h.names
  · exact List.forall_mem_map.mpr fun d hd => (h.members d hd).cutAt number

/-! ## Behind a form -/

section
variable {text tail rest : List Char} {name : String} {field : Field}

/-- What a header leaves is left with whatever stands behind it. -/
theorem header?_append (h : header? text = some (name, rest)) (tail : List Char) :
    header? (text ++ tail) = some (name, rest ++ tail) := by
  obtain ⟨word, gap₁, gap₂, gap₃, hword, hname, hgap₁, hgap₂, hgap₃, rfl⟩ :=
    header?_eq_some_iff.mp h
  refine header?_eq_some_iff.mpr
    ⟨word, gap₁, gap₂, gap₃, hword, hname, hgap₁, hgap₂, hgap₃, ?_⟩
  simp only [List.append_assoc]

theorem exists_eq_append_of_header? (h : header? text = some (name, rest)) :
    ∃ front, text = front ++ '\x7b' :: rest := by
  obtain ⟨word, gap₁, gap₂, gap₃, -, -, -, -, -, rfl⟩ := header?_eq_some_iff.mp h
  refine ⟨word ++ (gap₁ ++ ([':', ':'] ++ (gap₂ ++ (['s', 't', 'r', 'u', 'c', 't'] ++ gap₃)))), ?_⟩
  simp only [List.append_assoc, List.singleton_append]

/-- A header line that ends in a comma has it behind its brace. -/
theorem exists_eq_concat_of_header? (h : header? text = some (name, rest))
    (hcomma : text.getLast? = some ',') : ∃ inner, rest = inner ++ [','] := by
  obtain ⟨front, rfl⟩ := exists_eq_append_of_header? h
  rw [List.getLast?_append_cons] at hcomma
  cases rest with
  | nil => cases hcomma
  | cons first more =>
      rw [List.getLast?_cons_cons] at hcomma
      exact List.getLast?_eq_some_iff.mp hcomma

/-- A field of a body line is that field with whatever stands behind its comma. -/
theorem bodyField?_append (h : bodyField? text = some field) (tail : List Char) :
    bodyField? (text ++ tail) = some field := by
  obtain ⟨gap, rest, hgap, word, gap₁, gap₂, typeWord, hword, hname, htype, htypeName, hgap₁,
    hgap₂, hdigits, rfl⟩ := bodyField?_eq_some_iff.mp h
  refine bodyField?_eq_some_iff.mpr ⟨gap, rest ++ tail, hgap, word, gap₁, gap₂, typeWord, hword,
    hname, htype, htypeName, hgap₁, hgap₂, hdigits, ?_⟩
  simp only [List.append_assoc, List.cons_append]

end

/-! ## Behind the last comma of a header line -/

section
variable {gap inner piece rest text tail : List Char} {c : Char}

theorem partsOf_append_cons (inner rest : List Char) :
    partsOf (inner ++ ',' :: rest) = partsOf inner ++ partsOf rest := by
  rw [partsOf, List.splitOn_append_cons_self, List.map_append, List.filter_append]
  rfl

theorem partsOf_eq_singleton (hcomma : ',' ∉ piece) (hne : Text.trim piece ≠ []) :
    partsOf piece = [Text.trim piece] := by
  rw [partsOf, List.splitOn_eq_singleton hcomma]
  exact List.filter_cons_of_pos (decide_eq_true hne)

theorem headerParts_of_not_mem (h : '\x7d' ∉ rest) : headerParts rest = partsOf rest := by
  rw [headerParts, List.takeWhile_eq_self_iff.mpr]
  intro c hc
  exact decide_eq_true (fun heq => h (heq ▸ hc))

/-- The first part of a text begins with its first character that is not blank, if this is no
comma. -/
theorem exists_partsOf_eq_cons (hgap : Blanks gap) (hc : isBlank c = false) (hcomma : c ≠ ',')
    (rest : List Char) : ∃ part parts, partsOf (gap ++ c :: rest) = (c :: part) :: parts := by
  have hfirst {front : List Char} (hfront : ',' ∉ front) :
      ∃ part, partsOf (gap ++ c :: front) = [c :: part] := by
    obtain ⟨part, htrim⟩ := Text.exists_trim_append_cons hgap hc front
    have hnot : ',' ∉ gap ++ c :: front := by
      rw [List.mem_append, List.mem_cons]
      rintro (hblank | rfl | hmem)
      · exact absurd (hgap _ hblank) (by decide)
      · exact hcomma rfl
      · exact hfront hmem
    refine ⟨part, ?_⟩
    rw [partsOf_eq_singleton hnot (by rw [htrim]; exact List.cons_ne_nil _ _), htrim]
  -- The part ends at the first comma, if there is one.
  by_cases hmem : ',' ∈ rest
  · obtain ⟨front, back, rfl, hfront⟩ := List.eq_append_cons_of_mem hmem
    obtain ⟨part, hpart⟩ := hfirst hfront
    refine ⟨part, partsOf back, ?_⟩
    rw [← List.cons_append, ← List.append_assoc, partsOf_append_cons, hpart]
    rfl
  · obtain ⟨part, hpart⟩ := hfirst hmem
    exact ⟨part, [], hpart⟩

/-- A slash begins no field. -/
theorem inlineField?_slash (part : List Char) : inlineField? ('/' :: part) = none :=
  rfl

variable {name : String} (hheader : header? text = some (name, rest))
  (hcomma : text.getLast? = some ',') (hopen : '\x7d' ∉ rest)
  (htail : ∃ gap more, Blanks gap ∧ tail = gap ++ '/' :: more) (hbrace : '\x7d' ∉ tail)
include hheader hcomma hopen htail hbrace

/-- The text behind the last comma of a header line begins a part that is no field. -/
theorem exists_headerParts_append :
    ∃ part more, headerParts (rest ++ tail) = headerParts rest ++ part :: more ∧
      inlineField? part = none := by
  obtain ⟨inner, rfl⟩ := exists_eq_concat_of_header? hheader hcomma
  obtain ⟨gap, after, hgap, rfl⟩ := htail
  obtain ⟨part, more, hparts⟩ := exists_partsOf_eq_cons hgap (c := '/') (by decide) (by decide) after
  refine ⟨'/' :: part, more, ?_, inlineField?_slash part⟩
  have hnil : partsOf [] = [] := rfl
  rw [headerParts_of_not_mem hopen, headerParts_of_not_mem, List.append_assoc, List.singleton_append,
    partsOf_append_cons, hparts, partsOf_append_cons, hnil, List.append_nil]
  rw [List.mem_append]
  exact fun hmem => hmem.elim hopen hbrace

/-- So the header keeps its fields, and its body does not go on below. -/
theorem fields_of_append :
    longestPrefix inlineField? (headerParts (rest ++ tail)) =
        longestPrefix inlineField? (headerParts rest) ∧
      ¬ GoesOn (rest ++ tail) := by
  obtain ⟨part, more, hparts, hpart⟩ := exists_headerParts_append hheader hcomma hopen htail hbrace
  rw [GoesOn, hparts]
  refine ⟨longestPrefix_append_cons hpart more, ?_⟩
  rintro ⟨-, hfields⟩
  have hfield := hfields part (List.mem_append_right _ List.mem_cons_self)
  rw [hpart] at hfield
  cases hfield

end

/-! ## A comment -/

/-- A comment behind a line is not blank, and closes no body if it has no closing brace. -/
theorem exists_trim_comment {line comment : List Char} (hline : Text.trim line ≠ [])
    (hbrace : '\x7d' ∉ comment) :
    ∃ tail, Text.trim (line ++ ([' ', '/', '/', ' '] ++ comment)) = Text.trim line ++ tail ∧
      (∃ gap more, Blanks gap ∧ tail = gap ++ '/' :: more) ∧ '\x7d' ∉ tail := by
  obtain ⟨gap, tail, ending, hgap, hending, htext, htrim⟩ :=
    Text.exists_trim_append hline ([' ', '/', '/', ' '] ++ comment)
  refine ⟨tail, htrim, ?_, ?_⟩
  · -- The first slash stays, whatever blanks the comment ends in.
    have hfront : (gap ++ [' ']) ++ '/' :: (['/', ' '] ++ comment) = tail ++ ending := by
      rw [List.append_assoc]
      exact htext
    obtain ⟨more, htail⟩ := Text.exists_eq_append_cons hfront hending (by decide)
    refine ⟨gap ++ [' '], more, ?_, htail⟩
    exact List.forall_mem_append.mpr ⟨hgap, List.forall_mem_singleton.mpr (by decide)⟩
  · intro hmem
    have hall : '\x7d' ∈ gap ++ ([' ', '/', '/', ' '] ++ comment) := by
      rw [htext]
      exact List.mem_append_left _ hmem
    rcases List.mem_append.mp hall with hblank | hrest
    · exact absurd (hgap _ hblank) (by decide)
    · exact hbrace (by simpa using hrest)

/-! ## The declarations -/

theorem line_mem_of_mem_fieldsBelow {below : List (List Char × Nat)} {site : FieldSite}
    (h : site ∈ fieldsBelow below) : site.line ∈ below.map Prod.snd := by
  obtain ⟨line, hline, hread⟩ := exists_of_mem_longestPrefix h
  obtain ⟨field, -, rfl⟩ := Option.map_eq_some_iff.mp hread
  exact List.mem_map_of_mem hline

/-- A header line that does not go on any more declares its struct without the members below. -/
theorem declaration?_append {text tail rest : List Char} {name : String} {number : Nat}
    {lower : List (List Char × Nat)} (hlower : ∀ place ∈ lower.map Prod.snd, number < place)
    (hheader : header? text = some (name, rest)) (hopen : GoesOn rest)
    (hfields : longestPrefix inlineField? (headerParts (rest ++ tail)) =
      longestPrefix inlineField? (headerParts rest)) (hclosed : ¬ GoesOn (rest ++ tail)) :
    (declaration? ((text ++ tail, number) :: lower)).map Declaration.bare =
      ((declaration? ((text, number) :: lower)).map Declaration.bare).map
        (Declaration.cutAt number) := by
  have hkept : (headerFields [] number rest).filter (·.line = number) =
      headerFields [] number rest := by
    refine List.filter_eq_self.mpr (List.forall_mem_map.mpr fun field _ => ?_)
    exact decide_eq_true rfl
  have hlost : ((fieldsBelow lower).map FieldSite.bare).filter (·.line = number) = [] := by
    refine List.filter_eq_nil_iff.mpr (List.forall_mem_map.mpr fun site hsite => ?_)
    have hplace : number < site.line := hlower _ (line_mem_of_mem_fieldsBelow hsite)
    exact fun hline => Nat.ne_of_gt hplace (of_decide_eq_true hline)
  have hsame : headerFields [] number (rest ++ tail) = headerFields [] number rest := by
    rw [headerFields, headerFields, hfields]
  simp only [declaration?, header?_append hheader, hheader, Option.map_some, if_pos hopen,
    if_neg hclosed, Declaration.bare, Declaration.cutAt, if_true, List.map_append, List.map_nil,
    map_bare_headerFields, hsame, List.filter_append, hkept, hlost]

theorem map_cutAt_eq_self {declared : List Declaration} {number : Nat}
    (h : ∀ d ∈ declared, d.line ≠ number) :
    declared.map (Declaration.cutAt number) = declared := by
  refine (List.map_congr_left fun d hd => ?_).trans (List.map_id declared)
  exact if_neg (h d hd)

theorem declaration?_of_bodyField? {text : List Char} {field : Field} (number : Nat)
    (lower : List (List Char × Nat)) (h : bodyField? text = some field) :
    declaration? ((text, number) :: lower) = none := by
  rw [declaration?, header?_eq_none_of_bodyField? h, Option.map_none]

section
variable {text tail rest : List Char} {number : Nat} {upper lower : List (List Char × Nat)}

/-- A text behind a field of a body line changes nothing. -/
theorem declarations_field_append {field : Field} (hfield : bodyField? text = some field) :
    (declarations (upper ++ (text ++ tail, number) :: lower)).map Declaration.bare =
      (declarations (upper ++ (text, number) :: lower)).map Declaration.bare := by
  have hstays := bodyField?_append hfield tail
  obtain ⟨earlier, later, -, -, hdeclared, hdeclared'⟩ :=
    declarations_seam (hfield.trans hstays.symm) number upper lower
  rw [hdeclared, hdeclared', declaration?_of_bodyField? number lower hfield,
    declaration?_of_bodyField? number lower hstays]

/-- A header line that does not go on any more costs its struct the members below, and no other
struct anything. -/
theorem declarations_header_append {name : String}
    (hupper : ∀ place ∈ upper.map Prod.snd, place < number)
    (hlower : ∀ place ∈ lower.map Prod.snd, number < place)
    (hheader : header? text = some (name, rest)) (hopen : GoesOn rest)
    (hfields : longestPrefix inlineField? (headerParts (rest ++ tail)) =
      longestPrefix inlineField? (headerParts rest)) (hclosed : ¬ GoesOn (rest ++ tail)) :
    (declarations (upper ++ (text ++ tail, number) :: lower)).map Declaration.bare =
      ((declarations (upper ++ (text, number) :: lower)).map Declaration.bare).map
        (Declaration.cutAt number) := by
  have hreading : bodyField? text = bodyField? (text ++ tail) := by
    rw [bodyField?_eq_none_of_header? hheader,
      bodyField?_eq_none_of_header? (header?_append hheader tail)]
  obtain ⟨earlier, later, hearlier, hlater, hdeclared, hdeclared'⟩ :=
    declarations_seam hreading number upper lower
  -- All other headers are on other lines.
  have habove : ∀ d ∈ earlier, d.line ≠ number :=
    fun d hd => Nat.ne_of_lt (hupper _ (hearlier d hd))
  have hbelow : ∀ d ∈ later, d.line ≠ number :=
    fun d hd => Nat.ne_of_gt (hlower _ (hlater d hd))
  rw [hdeclared, hdeclared', declaration?_append hlower hheader hopen hfields hclosed,
    List.map_append, List.map_append, map_cutAt_eq_self habove, map_cutAt_eq_self hbelow]
  cases (declaration? ((text, number) :: lower)).map Declaration.bare <;> rfl

end

/-! ## The text -/

section
variable {above line gap rest : String} (h : IsLine above line gap rest) {file : String}
  {structs : List Struct} (hparse : (parse (above ++ line ++ gap ++ rest) file).result = .ok structs)
include h hparse

/-- A text behind a field of a body line leaves all structs as they are. -/
theorem parse_field_append {field : Field} (hfield : bodyField? (Text.trim line.toList) = some field)
    {text : String} (htext : '\n' ∉ text.toList) :
    (parse (above ++ line ++ text ++ gap ++ rest) file).result = .ok structs := by
  have hne : Text.trim line.toList ≠ [] := by
    intro hnil
    rw [hnil] at hfield
    cases hfield
  obtain ⟨lower, -, hbefore, hafter⟩ := h.exists_numberedLines hne
  obtain ⟨_, tail, _, -, -, -, htrim⟩ := Text.exists_trim_append hne text.toList
  rw [result_parse_eq_ok_iff_bare, hbefore] at hparse
  rw [result_parse_eq_ok_iff_bare, hafter text htext, htrim, declarations_field_append hfield]
  exact hparse

/-- A comment behind the last comma of a header line costs its struct the members below. -/
theorem parse_header_append {name : String} {behind : List Char}
    (hheader : header? (Text.trim line.toList) = some (name, behind)) (hopen : GoesOn behind)
    (hcomma : (Text.trim line.toList).getLast? = some ',') {comment : String}
    (hcomment : '\n' ∉ comment.toList) (hbrace : '\x7d' ∉ comment.toList) :
    (parse (above ++ line ++ (" // " ++ comment) ++ gap ++ rest) file).result =
      .ok (structs.map (Struct.cutAt (lineBehind above))) := by
  have hne : Text.trim line.toList ≠ [] := by
    intro hnil
    rw [hnil] at hheader
    cases hheader
  have htext : (" // " ++ comment).toList = [' ', '/', '/', ' '] ++ comment.toList :=
    String.toList_append
  have hnot : '\n' ∉ (" // " ++ comment).toList := by simpa [htext] using hcomment
  obtain ⟨lower, hlower, hbefore, hafter⟩ := h.exists_numberedLines hne
  obtain ⟨tail, htrim, htail, hclosing⟩ := exists_trim_comment hne hbrace
  obtain ⟨hfields, hclosed⟩ := fields_of_append hheader hcomma hopen.1 htail hclosing
  obtain ⟨hfaultless, rfl⟩ := result_parse_eq_ok_iff_bare.mp hparse
  rw [result_parse_eq_ok_iff_bare, hafter _ hnot, htext, htrim, hbefore,
    declarations_header_append lt_lineBehind hlower hheader hopen hfields hclosed, ← hbefore]
  refine ⟨hfaultless.map_cutAt _, ?_⟩
  simp only [List.map_map, Function.comp_def, Declaration.toStruct_cutAt]

end

/-- A text behind a line of a schema that is accepted.

Behind a field of a body line, any text is ignored.  Behind the last comma of a header line whose
body goes on below, a comment ends the body: its struct keeps the members on the header line, and
all other structs are as before. -/
theorem parse_trailing_text {above line gap rest file : String} {structs : List Struct}
    (h : IsLine above line gap rest)
    (hparse : (parse (above ++ line ++ gap ++ rest) file).result = .ok structs) :
    (∀ field (text : String), bodyField? (Text.trim line.toList) = some field →
      '\n' ∉ text.toList →
        (parse (above ++ line ++ text ++ gap ++ rest) file).result = .ok structs) ∧
    ∀ name behind (comment : String), header? (Text.trim line.toList) = some (name, behind) →
      GoesOn behind → (Text.trim line.toList).getLast? = some ',' →
        '\n' ∉ comment.toList → '\x7d' ∉ comment.toList →
          (parse (above ++ line ++ (" // " ++ comment) ++ gap ++ rest) file).result =
            .ok (structs.map (Struct.cutAt (lineBehind above))) :=
  ⟨fun _ _ hfield htext => parse_field_append h hparse hfield htext,
    fun _ _ _ hheader hopen hcomma hcomment hbrace =>
      parse_header_append h hparse hheader hopen hcomma hcomment hbrace⟩

/-- A header line that ends in a comma. -/
def pairHeader : String := "Pair :: struct \x7b a: u8,"

/-- The struct of that header, with a member below it. -/
def pairStructs : List Struct :=
  [⟨"Pair", 1, [⟨"a", "u8", none, 1⟩, ⟨"b", "u16", none, 2⟩]⟩]

theorem isLine_pairHeader : IsLine "" pairHeader "" "\n b: u16,\r\n\x7d\n" := by
  refine ⟨nofun, by decide, nofun, nofun, ?_⟩
  rintro c ⟨⟩
  rfl

theorem parse_pairHeader :
    (parse ("" ++ pairHeader ++ "" ++ "\n b: u16,\r\n\x7d\n") "pair").result =
      .ok pairStructs := by
  decide +kernel

/-- The second member stays with a comment behind it, and is lost with one behind the header. -/
theorem pairStructs_trailing :
    IsLine "" pairHeader "" "\n b: u16,\r\n\x7d\n" ∧
    IsLine (pairHeader ++ "\n") " b: u16," "\r" "\n\x7d\n" ∧
    (parse ("" ++ pairHeader ++ "" ++ "\n b: u16,\r\n\x7d\n") "pair").result =
      .ok pairStructs ∧
    (parse (pairHeader ++ "\n" ++ " b: u16," ++ " // b: u8, \x7d" ++ "\r" ++ "\n\x7d\n")
      "pair").result = .ok pairStructs ∧
    (parse ("" ++ pairHeader ++ (" // " ++ "one: u8, more") ++ "" ++ "\n b: u16,\r\n\x7d\n")
      "pair").result = .ok [⟨"Pair", 1, [⟨"a", "u8", none, 1⟩]⟩] := by
  have hlast : IsLine (pairHeader ++ "\n") " b: u16," "\r" "\n\x7d\n" := by
    refine ⟨?_, by decide, ?_, by decide, ?_⟩
    · rintro _ ⟨⟩
      rfl
    · exact List.forall_mem_singleton.mpr (by decide)
    · rintro c ⟨⟩
      rfl
  have hparse : (parse (pairHeader ++ "\n" ++ " b: u16," ++ "\r" ++ "\n\x7d\n") "pair").result =
      .ok pairStructs := by decide +kernel
  refine ⟨isLine_pairHeader, hlast, parse_pairHeader, ?_, ?_⟩
  · exact (parse_trailing_text hlast hparse).1 ⟨"b", "u16", none⟩ " // b: u8, \x7d"
      (by decide +kernel) (by decide)
  · exact (parse_trailing_text isLine_pairHeader parse_pairHeader).2 "Pair"
      [' ', 'a', ':', ' ', 'u', '8', ','] "one: u8, more" (by decide +kernel) (by decide +kernel)
      (by decide +kernel) (by decide) (by decide)

/-- So a comment is not ignored behind every comma that ends a line. -/
theorem not_forall_comment_ignored :
    ¬ ∀ (above line gap rest file comment : String) (structs : List Struct),
      IsLine above line gap rest →
        (parse (above ++ line ++ gap ++ rest) file).result = .ok structs →
          ((∃ field, bodyField? (Text.trim line.toList) = some field) ∨
            ∃ name behind, header? (Text.trim line.toList) = some (name, behind) ∧
              GoesOn behind) →
            (Text.trim line.toList).getLast? = some ',' →
              '\n' ∉ comment.toList → '\x7d' ∉ comment.toList →
                (parse (above ++ line ++ (" // " ++ comment) ++ gap ++ rest) file).result =
                  .ok structs := by
  intro hignored
  have hstays := hignored "" pairHeader "" "\n b: u16,\r\n\x7d\n" "pair" "one" pairStructs
    isLine_pairHeader parse_pairHeader
    (.inr ⟨"Pair", [' ', 'a', ':', ' ', 'u', '8', ','], by decide +kernel, by decide +kernel⟩)
    (by decide +kernel) (by decide) (by decide)
  have hlost : (parse ("" ++ pairHeader ++ (" // " ++ "one") ++ "" ++
      "\n b: u16,\r\n\x7d\n") "pair").result =
        .ok [⟨"Pair", 1, [⟨"a", "u8", none, 1⟩]⟩] := by decide +kernel
  rw [hlost] at hstays
  exact absurd hstays (by decide)

end Schema
end FieldMap
