import FieldMap.Proofs.EndedLines
import FieldMap.Proofs.RegistryGrammar

/-!
# Where a registry file is refused

A refused file has got some of its blocks into the registry all the same.  This module says which,
for each way in which a file can be refused.

* `LineFault` is what is wrong with a line inside a block, and `BreaksOff` what is wrong with the
  lines from the header of a block on: one of them is at fault, or there is no end.
* `Refused` puts in front of it what is looked for between two blocks.
* `run_eq_error_iff` takes the lines of a refused file apart into those of blocks that are accepted
  and those that are refused from the first one on, and `parse_eq_error_iff_stopsAt` the file itself.
-/

namespace FieldMap
namespace Registry

/-! ## Faults -/

/-- A line inside the block of that name is wrong, after a size or none was given. -/
inductive LineFault (file : String) (registry : Registry) (name : String) :
    (given : Option Nat) → (line : List Char) → (number : Nat) → RegistryError → Prop
  | size {given : Option Nat} {rest : List Char} {number : Nat} :
      (∀ size, ¬ GivesSize (['s', 'i', 'z', 'e', ' '] ++ rest) size) →
        LineFault file registry name given (['s', 'i', 'z', 'e', ' '] ++ rest) number
          (.invalidSize file number (String.ofList (Text.trim rest)))
  | stray {given : Option Nat} {line : List Char} {number : Nat} :
      line ≠ endLine → (¬ ['s', 'i', 'z', 'e', ' '] <+: line) →
        LineFault file registry name given line number
          (.unexpectedLine file number (String.ofList line))
  | noSize {number : Nat} :
      LineFault file registry name none endLine number (.missingSize name file)
  | taken {size number : Nat} : registry.contains name = true →
      LineFault file registry name (some size) endLine number (.duplicateName name file)

/-- The lines behind the header of a block, or behind its last size, do not come to an end of the
block that can be accepted. -/
inductive BreaksOff (file : String) (registry : Registry) (name : String) (header : Nat) :
    (given : Option Nat) → List (List Char × Nat) → RegistryError → Prop
  | unfinished {given : Option Nat} :
      BreaksOff file registry name header given [] (.missingEnd name file header)
  | fault {given : Option Nat} {line : List Char} {number : Nat} {rest : List (List Char × Nat)}
      {e : RegistryError} : LineFault file registry name given line number e →
        BreaksOff file registry name header given ((line, number) :: rest) e
  | size {given : Option Nat} {line : List Char} {number size : Nat}
      {rest : List (List Char × Nat)} {e : RegistryError} : GivesSize line size →
        BreaksOff file registry name header (some size) rest e →
          BreaksOff file registry name header given ((line, number) :: rest) e

/-- Between two blocks, the line and those behind it are refused: it opens no block, or a block
that breaks off. -/
inductive Refused (file : String) (registry : Registry) :
    (line : List Char) → (number : Nat) → List (List Char × Nat) → RegistryError → Prop
  | stray {line : List Char} {number : Nat} {rest : List (List Char × Nat)} :
      (∀ name, ¬ OpensBlock line name) →
        Refused file registry line number rest (.unexpectedLine file number (String.ofList line))
  | block {line : List Char} {number : Nat} {rest : List (List Char × Nat)} {name : String}
      {e : RegistryError} : OpensBlock line name →
        BreaksOff file registry name number none rest e → Refused file registry line number rest e

/-! ## One line -/

section
variable {file : String} {registry : Registry} {text : List Char} {number : Nat}
  {refusal : Refusal}

theorem keyword?_eq_none_iff {word line : List Char} :
    keyword? word line = none ↔ ¬ word ++ [' '] <+: line := by
  constructor
  · rintro hnone ⟨rest, rfl⟩
    have hsome : keyword? word (word ++ [' '] ++ rest) = some rest :=
      keyword?_eq_some_iff.mpr (by simp)
    rw [hnone] at hsome
    cases hsome
  · intro hline
    cases hkeyword : keyword? word line with
    | none => rfl
    | some rest =>
        obtain rfl := keyword?_eq_some_iff.mp hkeyword
        exact absurd ⟨rest, by simp⟩ hline

/-- What is read behind the keyword is the size that the line gives. -/
theorem givesSize_append_iff {rest : List Char} {size : Nat} :
    GivesSize (['s', 'i', 'z', 'e', ' '] ++ rest) size ↔
      readSize? (Text.trim rest) = some size := by
  have hkeyword : keyword? ['s', 'i', 'z', 'e'] (['s', 'i', 'z', 'e', ' '] ++ rest) = some rest :=
    keyword?_eq_some_iff.mpr rfl
  rw [givesSize_iff, hkeyword]
  simp only [Option.some.injEq, exists_eq_left']

theorem readLine_between_eq_error_iff :
    (readLine file ⟨registry, none⟩ (text, number)).result = .error refusal ↔
      (∀ name, ¬ OpensBlock text name) ∧
        refusal = ⟨registry, .unexpectedLine file number (String.ofList text)⟩ := by
  simp only [readLine, opensBlock_iff]
  cases keyword? ['p', 'r', 'i', 'm'] text with
  | none => simp [eq_comm]
  | some rest => simp

theorem closeBlock_eq_error_iff {block : Block} :
    (closeBlock file registry block).result = .error refusal ↔
      ∃ e, LineFault file registry block.name block.size endLine number e ∧
        refusal = ⟨registry, e⟩ := by
  obtain ⟨name, line, given⟩ := block
  unfold closeBlock
  constructor
  · intro h
    cases given with
    | none =>
        cases h
        exact ⟨_, .noSize, rfl⟩
    | some size =>
        cases hknown : registry.contains name with
        | true =>
            simp only [hknown, if_true, Traced.result_fail, Except.error.injEq] at h
            exact ⟨_, .taken hknown, h.symm⟩
        | false => simp [hknown, Traced.result_bind, ok_bind] at h
  · rintro ⟨e, hfault, rfl⟩
    generalize hline : endLine = line at hfault
    cases hfault with
    | size => cases hline
    | stray hend => exact absurd hline.symm hend
    | noSize => rfl
    | taken hknown => simp [hknown]

theorem readLine_inside_eq_error_iff {block : Block} :
    (readLine file ⟨registry, some block⟩ (text, number)).result = .error refusal ↔
      ∃ e, LineFault file registry block.name block.size text number e ∧
        refusal = ⟨registry, e⟩ := by
  obtain ⟨name, header, given⟩ := block
  by_cases hend : text = endLine
  · subst hend
    exact closeBlock_eq_error_iff
  · have hother : ¬ text = ['e', 'n', 'd'] := hend
    simp only [readLine, if_neg hother]
    cases hkeyword : keyword? ['s', 'i', 'z', 'e'] text with
    | none =>
        have hstray := keyword?_eq_none_iff.mp hkeyword
        constructor
        · intro h
          cases h
          exact ⟨_, .stray hend hstray, rfl⟩
        · rintro ⟨e, hfault, rfl⟩
          cases hfault with
          | size => exact absurd (List.prefix_append _ _) hstray
          | stray => rfl
          | noSize => exact absurd rfl hend
          | taken => exact absurd rfl hend
    | some rest =>
        obtain rfl : text = ['s', 'i', 'z', 'e', ' '] ++ rest := keyword?_eq_some_iff.mp hkeyword
        dsimp only
        cases hread : readSize? (Text.trim rest) with
        | some size =>
            have hgives := givesSize_append_iff.mpr hread
            constructor
            · intro h
              cases h
            · rintro ⟨e, hfault, -⟩
              cases hfault with
              | size hnone => exact absurd hgives (hnone size)
              | stray _ hstray => exact absurd (List.prefix_append _ _) hstray
        | none =>
            have hnone (size : Nat) : ¬ GivesSize (['s', 'i', 'z', 'e', ' '] ++ rest) size := by
              intro hgives
              rw [givesSize_append_iff, hread] at hgives
              cases hgives
            constructor
            · intro h
              cases h
              exact ⟨_, .size hnone, rfl⟩
            · rintro ⟨e, hfault, rfl⟩
              cases hfault with
              | size => rfl
              | stray _ hstray => exact absurd (List.prefix_append _ _) hstray

end

/-! ## All lines -/

section
variable {file name : String} {registry left : Registry} {lines read rest : List (List Char × Nat)}
  {e : RegistryError}

theorem run_cons_eq_error_iff {progress : Progress} {line : List Char × Nat} {refusal : Refusal} :
    run file progress (line :: lines) = .error refusal ↔
      (readLine file progress line).result = .error refusal ∨
        ∃ next, (readLine file progress line).result = .ok next ∧
          run file next lines = .error refusal := by
  rw [run, Traced.result_fold_cons_bind, bind_eq_error_iff]
  rfl

/-- A file that could end somewhere goes on from there with the registry it would come to. -/
theorem run_append {progress : Progress} (h : run file progress read = .ok left) :
    run file progress (read ++ rest) = run file ⟨left, none⟩ rest := by
  induction read generalizing progress with
  | nil =>
      -- Inside a block the lines that have been read would not be a file.
      obtain ⟨registry, block⟩ := progress
      cases block with
      | none =>
          cases h
          rfl
      | some block => cases h
  | cons line read ih =>
      obtain ⟨next, hnext, hread⟩ := run_cons_eq_ok_iff.mp h
      rw [← ih hread, List.cons_append, run, Traced.result_fold_cons_bind, hnext]
      rfl

theorem run_of_breaksOff {header : Nat} {given : Option Nat}
    (h : BreaksOff file registry name header given lines e) :
    run file ⟨registry, some ⟨name, header, given⟩⟩ lines = .error ⟨registry, e⟩ := by
  induction h with
  | unfinished => rfl
  | fault hfault =>
      exact run_cons_eq_error_iff.mpr (.inl (readLine_inside_eq_error_iff.mpr ⟨_, hfault, rfl⟩))
  | size hsize hrest ih =>
      exact run_cons_eq_error_iff.mpr
        (.inr ⟨_, readLine_inside_eq_ok_iff.mpr (.inr ⟨_, hsize, rfl⟩), ih⟩)

theorem run_of_refused {line : List Char} {number : Nat}
    (h : Refused file registry line number lines e) :
    run file ⟨registry, none⟩ ((line, number) :: lines) = .error ⟨registry, e⟩ := by
  cases h with
  | stray hline =>
      exact run_cons_eq_error_iff.mpr (.inl (readLine_between_eq_error_iff.mpr ⟨hline, rfl⟩))
  | block hline hrest =>
      exact run_cons_eq_error_iff.mpr
        (.inr ⟨_, readLine_between_eq_ok_iff.mpr ⟨_, hline, rfl⟩, run_of_breaksOff hrest⟩)

/-- A run that fails has broken off the block it was in, or has come to an end of a block and been
refused behind it. -/
theorem exists_refused_of_run {progress : Progress}
    (h : run file progress lines = .error ⟨left, e⟩) :
    (∃ block, progress.block = some block ∧ left = progress.registry ∧
        BreaksOff file left block.name block.line block.size lines e) ∨
      ∃ read line number rest, lines = read ++ (line, number) :: rest ∧
        run file progress read = .ok left ∧ Refused file left line number rest e := by
  induction lines generalizing progress with
  | nil =>
      obtain ⟨registry, block⟩ := progress
      cases block with
      | none => cases h
      | some block =>
          cases h
          exact .inl ⟨block, rfl, rfl, .unfinished⟩
  | cons line lines ih =>
      obtain ⟨text, number⟩ := line
      obtain ⟨registry, block⟩ := progress
      -- What is refused later, is refused behind this line too.
      have hlater {next : Progress}
          (hnext : (readLine file ⟨registry, block⟩ (text, number)).result = .ok next) :
          (∃ read line number rest, lines = read ++ (line, number) :: rest ∧
            run file next read = .ok left ∧ Refused file left line number rest e) →
          ∃ read line later rest, (text, number) :: lines = read ++ (line, later) :: rest ∧
            run file ⟨registry, block⟩ read = .ok left ∧ Refused file left line later rest e := by
        rintro ⟨read, line, later, rest, rfl, hread, hrefused⟩
        exact ⟨(text, number) :: read, line, later, rest, rfl,
          run_cons_eq_ok_iff.mpr ⟨next, hnext, hread⟩, hrefused⟩
      cases block with
      | none =>
          right
          rcases run_cons_eq_error_iff.mp h with hline | ⟨next, hnext, hrest⟩
          · obtain ⟨hstray, hrefusal⟩ := readLine_between_eq_error_iff.mp hline
            cases hrefusal
            exact ⟨[], text, number, lines, rfl, rfl, .stray hstray⟩
          · rcases ih hrest with ⟨block, hblock, rfl, hbreaks⟩ | hread
            · obtain ⟨name, hopens, rfl⟩ := readLine_between_eq_ok_iff.mp hnext
              cases hblock
              exact ⟨[], text, number, lines, rfl, rfl, .block hopens hbreaks⟩
            · exact hlater hnext hread
      | some block =>
          rcases run_cons_eq_error_iff.mp h with hline | ⟨next, hnext, hrest⟩
          · obtain ⟨e', hfault, hrefusal⟩ := readLine_inside_eq_error_iff.mp hline
            cases hrefusal
            exact .inl ⟨block, rfl, rfl, .fault hfault⟩
          · rcases ih hrest with ⟨inner, hinner, rfl, hbreaks⟩ | hread
            · left
              rcases readLine_inside_eq_ok_iff.mp hnext with
                ⟨rfl, size, hsize, hnew, rfl⟩ | ⟨size, hsize, rfl⟩
              · cases hinner
              · cases hinner
                exact ⟨block, rfl, rfl, .size hsize hbreaks⟩
            · exact .inr (hlater hnext hread)

/-- The lines of a refused file are those of an accepted one, and then lines that are refused from
the first one on. -/
theorem run_eq_error_iff :
    run file ⟨registry, none⟩ lines = .error ⟨left, e⟩ ↔
      ∃ read line number rest, lines = read ++ (line, number) :: rest ∧
        run file ⟨registry, none⟩ read = .ok left ∧ Refused file left line number rest e := by
  constructor
  · intro h
    rcases exists_refused_of_run h with ⟨block, hblock, -⟩ | hread
    · cases hblock
    · exact hread
  · -- What is refused is read with the registry that the lines above lead to.
    rintro ⟨read, line, number, rest, rfl, hread, hrefused⟩
    rw [run_append hread]
    exact run_of_refused hrefused

end

/-! ## Files -/

/-- The lines that matter, without the blanks around them, numbered with the others from `first`
on. -/
def numberedFrom (first : Nat) (lines : List (List Char)) : List (List Char × Nat) :=
  ((lines.map Text.trim).zipIdx first).filter fun line => !isSkipped line.1

section
variable {first : Nat} {line : List Char} {lines above below : List (List Char)}

theorem numberedLines_eq (content : String) :
    numberedLines content = numberedFrom 1 (Text.lines '\n' content.toList) :=
  rfl

theorem numberedFrom_append :
    numberedFrom first (above ++ below) =
      numberedFrom first above ++ numberedFrom (first + above.length) below := by
  unfold numberedFrom
  rw [List.map_append, List.zipIdx_append, List.filter_append, List.length_map]

theorem numberedFrom_cons_of_skipped (h : isSkipped (Text.trim line) = true) :
    numberedFrom first (line :: lines) = numberedFrom (first + 1) lines := by
  simp [numberedFrom, h]

theorem numberedFrom_cons_of_not_skipped (h : isSkipped (Text.trim line) = false) :
    numberedFrom first (line :: lines) =
      (Text.trim line, first) :: numberedFrom (first + 1) lines := by
  simp [numberedFrom, h]

/-- Each line that matters stands somewhere among all lines. -/
theorem exists_lines_of_numberedFrom {read rest : List (List Char × Nat)} {text : List Char}
    {number : Nat} (h : numberedFrom first lines = read ++ (text, number) :: rest) :
    ∃ above line below, lines = above ++ line :: below ∧ isSkipped (Text.trim line) = false ∧
      numberedFrom first above = read ∧ text = Text.trim line ∧
      number = first + above.length ∧ numberedFrom (number + 1) below = rest := by
  induction lines generalizing first read with
  | nil => simp [numberedFrom] at h
  | cons line lines ih =>
      cases hskipped : isSkipped (Text.trim line) with
      | true =>
          rw [numberedFrom_cons_of_skipped hskipped] at h
          obtain ⟨above, found, below, rfl, hfound, hread, htext, hnumber, hrest⟩ := ih h
          refine ⟨line :: above, found, below, rfl, hfound, ?_, htext, ?_, hrest⟩
          · rw [numberedFrom_cons_of_skipped hskipped, hread]
          · rw [hnumber, List.length_cons]
            omega
      | false =>
          rw [numberedFrom_cons_of_not_skipped hskipped] at h
          cases read with
          | nil =>
              obtain ⟨htext, hrest⟩ := List.cons.inj h
              cases htext
              exact ⟨[], line, lines, rfl, hskipped, rfl, rfl, rfl, hrest⟩
          | cons entry read =>
              obtain ⟨rfl, htail⟩ := List.cons.inj h
              obtain ⟨above, found, below, rfl, hfound, hread, htext, hnumber, hrest⟩ := ih htail
              refine ⟨line :: above, found, below, rfl, hfound, ?_, htext, ?_, hrest⟩
              · rw [numberedFrom_cons_of_not_skipped hskipped, hread]
              · rw [hnumber, List.length_cons]
                omega

end

/-- The file can be cut in front of a line that matters: the part above is accepted, with that
registry, and the part below is refused from its first line on. -/
def StopsAt (registry : Registry) (content file : String) (left : Registry) (e : RegistryError) :
    Prop :=
  ∃ above below line lines, content = above ++ below ∧ Text.IsEnded '\n' above.toList ∧
    Text.lines '\n' below.toList = line :: lines ∧ isSkipped (Text.trim line) = false ∧
    (parse registry above file).result = .ok left ∧
    ∃ number, number = (Text.lines '\n' above.toList).length + 1 ∧
      Refused file left (Text.trim line) number (numberedFrom (number + 1) lines) e

/-- What a refused file leaves in the registry, and why it is refused. -/
theorem parse_eq_error_iff_stopsAt {registry left : Registry} {content file : String}
    {e : RegistryError} :
    (parse registry content file).result = .error ⟨left, e⟩ ↔
      StopsAt registry content file left e := by
  show run file ⟨registry, none⟩ (numberedLines content) = .error ⟨left, e⟩ ↔ _
  rw [run_eq_error_iff]
  constructor
  · rintro ⟨read, text, number, rest, hlines, hread, hrefused⟩
    obtain ⟨front, line, back, hcontent, hline, rfl, rfl, rfl, rfl⟩ :=
      exists_lines_of_numberedFrom hlines
    have hcount : front.length < (Text.lines '\n' content.toList).length := by
      rw [hcontent, List.length_append, List.length_cons]
      omega
    obtain ⟨above, below, htext, hended, habove, hbelow⟩ := Text.exists_append_of_length_lt hcount
    rw [hcontent, List.take_left] at habove
    rw [hcontent, List.drop_left] at hbelow
    refine ⟨String.ofList above, String.ofList below, line, back, ?_, ?_, ?_, hline, ?_, _, ?_,
      hrefused⟩
    · rw [← String.ofList_append, ← htext, String.ofList_toList]
    · rwa [String.toList_ofList]
    · rwa [String.toList_ofList]
    · show run file ⟨registry, none⟩ (numberedLines (String.ofList above)) = .ok left
      rwa [numberedLines_eq, String.toList_ofList, habove]
    · rw [String.toList_ofList, habove, Nat.add_comm]
  · rintro ⟨above, below, line, lines, rfl, hended, hbelow, hline, habove, number, rfl, hrefused⟩
    refine ⟨numberedLines above, _, _, _, ?_, habove, hrefused⟩
    rw [numberedLines_eq, String.toList_append, Text.lines_append hended, hbelow,
      numberedFrom_append, numberedFrom_cons_of_not_skipped hline, Nat.add_comm 1]
    rfl

end Registry
end FieldMap
