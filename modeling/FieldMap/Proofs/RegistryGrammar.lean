import FieldMap.Proofs.NewNames
import FieldMap.Proofs.Numerals
import FieldMap.Proofs.Outcome
import FieldMap.Registry.Parser

/-!
# The grammar of registry files

A registry file that is accepted is a sequence of blocks.  This module states the grammar of
blocks on the lines that matter, without the state of the reader:

* `OpensBlock`, `GivesSize` and `endLine` are the three kinds of lines;
* `IsBlock` puts them together to the lines of one block, and `Declares` blocks to a file.

The reader stands between two blocks or inside one.  `run_between_iff` and `run_inside_iff`
say what the rest of the lines must be in each of the two, and `parse_eq_ok_iff_declares` that
the files it accepts are those of the grammar whose names are new and different.
-/

namespace FieldMap
namespace Registry

/-! ## Lines -/

/-- The line opens a block for a primitive of that name. -/
def OpensBlock (line : List Char) (name : String) : Prop :=
  ∃ rest, line = ['p', 'r', 'i', 'm', ' '] ++ rest ∧ name = String.ofList (Text.trim rest)

/-- The line gives a size: a number of ASCII digits, perhaps after a plus sign. -/
def GivesSize (line : List Char) (size : Nat) : Prop :=
  ∃ rest digits, line = ['s', 'i', 'z', 'e', ' '] ++ rest ∧
    (Text.trim rest = digits ∨ Text.trim rest = '+' :: digits) ∧
    Text.IsNumeral digits size ∧ 1 ≤ size ∧ size ≤ 4294967295

/-- The line that ends a block. -/
def endLine : List Char := ['e', 'n', 'd']

/-- The lines that are neither empty nor begin with two slashes, without the blanks around
them. -/
def significantLines (content : String) : List (List Char) :=
  ((Text.lines '\n' content.toList).map Text.trim).filter fun line =>
    line ≠ [] ∧ ¬ ['/', '/'] <+: line

theorem not_isSkipped_iff {line : List Char} :
    (!isSkipped line) = true ↔ line ≠ [] ∧ ¬ ['/', '/'] <+: line := by
  unfold isSkipped
  split
  · simp
  · simp
  · next hempty hslashes =>
      simp only [Bool.not_false, true_iff]
      refine ⟨hempty, ?_⟩
      rintro ⟨rest, rfl⟩
      exact hslashes rest rfl

theorem map_fst_numberedLines (content : String) :
    (numberedLines content).map Prod.fst = significantLines content := by
  have hkept : (fun line : List Char × Nat => !isSkipped line.1) =
      (fun line => decide (line ≠ [] ∧ ¬ ['/', '/'] <+: line)) ∘ Prod.fst := by
    funext line
    rw [Bool.eq_iff_iff, not_isSkipped_iff, Function.comp_apply, decide_eq_true_iff]
  rw [numberedLines, significantLines, hkept, ← List.filter_map, List.zipIdx_map_fst]

theorem keyword?_eq_some_iff {word line rest : List Char} :
    keyword? word line = some rest ↔ line = word ++ ' ' :: rest := by
  induction word generalizing line with
  | nil =>
      unfold keyword?
      split <;> simp_all
  | cons w word ih =>
      cases line with
      | nil => simp [keyword?]
      | cons c line =>
          rw [keyword?]
          by_cases hc : w = c
          · subst hc
            simp [ih]
          · simp [hc, Ne.symm hc]

theorem readSize?_eq_some_iff {cs : List Char} {size : Nat} :
    readSize? cs = some size ↔ ∃ digits, (cs = digits ∨ cs = '+' :: digits) ∧
      Text.IsNumeral digits size ∧ 1 ≤ size ∧ size ≤ 4294967295 := by
  have hbounded (digits : List Char) :
      (do
        let size ← Text.asciiNumber? digits
        if 0 < size ∧ size ≤ maxSize then some size else none) = some size ↔
        Text.IsNumeral digits size ∧ 1 ≤ size ∧ size ≤ 4294967295 := by
    simp only [Option.bind_eq_bind, Option.bind_eq_some_iff, Option.ite_none_right_eq_some,
      Option.some.injEq, Text.asciiNumber?_eq_some_iff]
    constructor
    · rintro ⟨value, hvalue, hbounds, rfl⟩
      exact ⟨hvalue, hbounds⟩
    · rintro ⟨hvalue, hbounds⟩
      exact ⟨size, hvalue, hbounds, rfl⟩
  unfold readSize?
  split
  · next digits =>
      rw [hbounded]
      constructor
      · exact fun h => ⟨digits, .inr rfl, h⟩
      · rintro ⟨_, rfl | hplus, h⟩
        · -- A numeral does not begin with a plus sign.
          exact absurd (h.1.isDigit '+' List.mem_cons_self) (by decide)
        · cases hplus
          exact h
  · next hplus =>
      rw [hbounded]
      constructor
      · exact fun h => ⟨_, .inl rfl, h⟩
      · rintro ⟨digits, rfl | rfl, h⟩
        · exact h
        · exact absurd rfl (hplus digits)

theorem opensBlock_iff {line : List Char} {name : String} :
    OpensBlock line name ↔ ∃ rest, keyword? ['p', 'r', 'i', 'm'] line = some rest ∧
      String.ofList (Text.trim rest) = name := by
  simp only [keyword?_eq_some_iff]
  exact exists_congr fun rest => and_congr_right fun _ => eq_comm

theorem givesSize_iff {line : List Char} {size : Nat} :
    GivesSize line size ↔ ∃ rest, keyword? ['s', 'i', 'z', 'e'] line = some rest ∧
      readSize? (Text.trim rest) = some size := by
  simp only [GivesSize, keyword?_eq_some_iff, readSize?_eq_some_iff, ← exists_and_left]
  rfl

theorem not_givesSize_endLine {size : Nat} : ¬ GivesSize endLine size := by
  rintro ⟨rest, _, hline, -⟩
  cases hline

/-! ## Blocks -/

/-- The lines of a block that declares the primitive, with the size that comes last. -/
def IsBlock (lines : List (List Char)) (primitive : Primitive) : Prop :=
  ∃ header sizes last, lines = header :: (sizes ++ [last, endLine]) ∧
    OpensBlock header primitive.name ∧ (∀ line ∈ sizes, ∃ size, GivesSize line size) ∧
    GivesSize last primitive.size

/-- The lines are those of blocks, one after the other, that declare the primitives. -/
inductive Declares : List (List Char) → List Primitive → Prop
  | nil : Declares [] []
  | block {lines rest : List (List Char)} {primitive : Primitive} {declared : List Primitive} :
      IsBlock lines primitive → Declares rest declared →
        Declares (lines ++ rest) (primitive :: declared)

/-- The lines from inside a block to its end, and the size it comes to, with the one that was
given before. -/
inductive EndsBlock : (given : Option Nat) → List (List Char) → (size : Nat) → Prop
  | last {size : Nat} : EndsBlock (some size) [endLine] size
  | size {given : Option Nat} {line : List Char} {rest : List (List Char)} {next size : Nat} :
      GivesSize line next → EndsBlock (some next) rest size → EndsBlock given (line :: rest) size

theorem not_endsBlock_nil {given : Option Nat} {size : Nat} : ¬ EndsBlock given [] size :=
  nofun

theorem endsBlock_cons_iff {given : Option Nat} {line : List Char} {rest : List (List Char)}
    {size : Nat} :
    EndsBlock given (line :: rest) size ↔
      (line = endLine ∧ rest = [] ∧ given = some size) ∨
        ∃ next, GivesSize line next ∧ EndsBlock (some next) rest size := by
  constructor
  · intro h
    cases h with
    | last => exact .inl ⟨rfl, rfl, rfl⟩
    | size hline hrest => exact .inr ⟨_, hline, hrest⟩
  · rintro (⟨rfl, rfl, rfl⟩ | ⟨next, hline, hrest⟩)
    · exact .last
    · exact .size hline hrest

theorem endsBlock_of_givesSize {given : Option Nat} {sizes : List (List Char)} {last : List Char}
    {size : Nat} (hsizes : ∀ line ∈ sizes, ∃ size, GivesSize line size)
    (hlast : GivesSize last size) : EndsBlock given (sizes ++ [last, endLine]) size := by
  induction sizes generalizing given with
  | nil => exact .size hlast .last
  | cons line sizes ih =>
      obtain ⟨⟨next, hnext⟩, hrest⟩ := List.forall_mem_cons.mp hsizes
      exact .size hnext (ih hrest)

theorem EndsBlock.exists_lines {given : Option Nat} {lines : List (List Char)} {size : Nat}
    (h : EndsBlock given lines size) :
    (given = some size ∧ lines = [endLine]) ∨
      ∃ sizes last, lines = sizes ++ [last, endLine] ∧
        (∀ line ∈ sizes, ∃ size, GivesSize line size) ∧ GivesSize last size := by
  induction h with
  | last => exact .inl ⟨rfl, rfl⟩
  | @size given line rest next size hline hrest ih =>
      right
      rcases ih with ⟨hgiven, rfl⟩ | ⟨sizes, last, rfl, hsizes, hlast⟩
      · cases hgiven
        exact ⟨[], line, rfl, nofun, hline⟩
      · exact ⟨line :: sizes, last, rfl, List.forall_mem_cons.mpr ⟨⟨next, hline⟩, hsizes⟩, hlast⟩

theorem isBlock_iff {lines : List (List Char)} {primitive : Primitive} :
    IsBlock lines primitive ↔ ∃ header rest, lines = header :: rest ∧
      OpensBlock header primitive.name ∧ EndsBlock none rest primitive.size := by
  constructor
  · rintro ⟨header, sizes, last, rfl, hheader, hsizes, hlast⟩
    exact ⟨header, _, rfl, hheader, endsBlock_of_givesSize hsizes hlast⟩
  · rintro ⟨header, rest, rfl, hheader, hrest⟩
    rcases hrest.exists_lines with ⟨hgiven, -⟩ | ⟨sizes, last, rfl, hsizes, hlast⟩
    · cases hgiven
    · exact ⟨header, sizes, last, rfl, hheader, hsizes, hlast⟩

/-! ## One line -/

section
variable {file : String} {registry : Registry} {text : List Char} {number : Nat}
  {next : Progress}

theorem readLine_between_eq_ok_iff :
    (readLine file ⟨registry, none⟩ (text, number)).result = .ok next ↔
      ∃ name, OpensBlock text name ∧ next = ⟨registry, some ⟨name, number, none⟩⟩ := by
  simp only [readLine, opensBlock_iff]
  cases keyword? ['p', 'r', 'i', 'm'] text with
  | none => simp
  | some rest => simp [eq_comm]

theorem closeBlock_eq_ok_iff {block : Block} :
    (closeBlock file registry block).result = .ok next ↔
      ∃ size, block.size = some size ∧ registry.contains block.name = false ∧
        next = ⟨registry.add ⟨block.name, size⟩, none⟩ := by
  unfold closeBlock
  cases block.size with
  | none => simp
  | some size =>
      cases hknown : registry.contains block.name with
      | true => simp
      | false => simp [Traced.result_bind, ok_bind, eq_comm]

theorem readLine_inside_eq_ok_iff {block : Block} :
    (readLine file ⟨registry, some block⟩ (text, number)).result = .ok next ↔
      (text = endLine ∧ ∃ size, block.size = some size ∧
        registry.contains block.name = false ∧
        next = ⟨registry.add ⟨block.name, size⟩, none⟩) ∨
      ∃ size, GivesSize text size ∧
        next = ⟨registry, some ⟨block.name, block.line, some size⟩⟩ := by
  by_cases hend : text = endLine
  · subst hend
    have hclose : (readLine file ⟨registry, some block⟩ (endLine, number)).result =
        (closeBlock file registry block).result := rfl
    simp [hclose, closeBlock_eq_ok_iff, not_givesSize_endLine]
  · have hother : ¬ text = ['e', 'n', 'd'] := hend
    simp only [readLine, if_neg hother, hend, false_and, false_or, givesSize_iff]
    cases keyword? ['s', 'i', 'z', 'e'] text with
    | none => simp
    | some rest =>
        simp only [Option.some.injEq, exists_eq_left']
        cases readSize? (Text.trim rest) with
        | none => simp
        | some size => simp [eq_comm]

end

/-! ## All lines -/

/-- What the rest of the lines comes to. -/
def run (file : String) (progress : Progress) (lines : List (List Char × Nat)) :
    Except Refusal Registry :=
  (Traced.fold (readLine file) progress lines >>= finish file).result

section
variable {file : String} {registry result : Registry} {lines : List (List Char × Nat)}

theorem run_cons_eq_ok_iff {progress : Progress} {line : List Char × Nat} :
    run file progress (line :: lines) = .ok result ↔
      ∃ next, (readLine file progress line).result = .ok next ∧
        run file next lines = .ok result := by
  rw [run, Traced.result_fold_cons_bind, bind_eq_ok_iff]
  rfl

/-- Inside a block the lines must first end it. -/
theorem run_inside_iff {block : Block} :
    run file ⟨registry, some block⟩ lines = .ok result ↔
      ∃ tail rest size, lines = tail ++ rest ∧
        EndsBlock block.size (tail.map Prod.fst) size ∧ registry.contains block.name = false ∧
        run file ⟨registry.add ⟨block.name, size⟩, none⟩ rest = .ok result := by
  induction lines generalizing block with
  | nil =>
      -- The file must not end here, and no block ends without a line.
      constructor
      · intro h
        cases h
      · rintro ⟨tail, rest, size, hlines, hends, -⟩
        obtain ⟨rfl, rfl⟩ := List.append_eq_nil_iff.mp hlines.symm
        exact absurd hends not_endsBlock_nil
  | cons line lines ih =>
      obtain ⟨text, number⟩ := line
      rw [run_cons_eq_ok_iff]
      simp only [readLine_inside_eq_ok_iff]
      constructor
      · rintro ⟨next, ⟨rfl, size, hsize, hnew, rfl⟩ | ⟨size, hline, rfl⟩, hrun⟩
        · refine ⟨[(endLine, number)], lines, size, rfl, ?_, hnew, hrun⟩
          rw [hsize]
          exact .last
        · obtain ⟨tail, rest, final, rfl, hends, hnew, hrun⟩ := ih.mp hrun
          exact ⟨(text, number) :: tail, rest, final, rfl, .size hline hends, hnew, hrun⟩
      · rintro ⟨tail, rest, final, hlines, hends, hnew, hrun⟩
        cases tail with
        | nil => exact absurd hends not_endsBlock_nil
        | cons first tail =>
            obtain ⟨rfl, rfl⟩ := List.cons.inj hlines
            rcases endsBlock_cons_iff.mp hends with ⟨rfl, htail, hgiven⟩ | ⟨size, hline, hrest⟩
            · obtain rfl := List.map_eq_nil_iff.mp htail
              exact ⟨_, .inl ⟨rfl, final, hgiven, hnew, rfl⟩, hrun⟩
            · exact ⟨_, .inr ⟨size, hline, rfl⟩,
                ih.mpr ⟨tail, rest, final, rfl, hrest, hnew, hrun⟩⟩

/-- Between two blocks the file may end, or a block must follow. -/
theorem run_between_iff :
    run file ⟨registry, none⟩ lines = .ok result ↔
      (lines = [] ∧ result = registry) ∨
        ∃ block rest primitive, lines = block ++ rest ∧ IsBlock (block.map Prod.fst) primitive ∧
          registry.contains primitive.name = false ∧
          run file ⟨registry.add primitive, none⟩ rest = .ok result := by
  cases lines with
  | nil =>
      constructor
      · intro h
        cases h
        exact .inl ⟨rfl, rfl⟩
      · rintro (⟨-, rfl⟩ | ⟨block, rest, primitive, hlines, hblock, -⟩)
        · rfl
        · obtain ⟨rfl, rfl⟩ := List.append_eq_nil_iff.mp hlines.symm
          obtain ⟨header, tail, htexts, -⟩ := isBlock_iff.mp hblock
          cases htexts
  | cons line lines =>
      obtain ⟨text, number⟩ := line
      rw [run_cons_eq_ok_iff]
      simp only [readLine_between_eq_ok_iff, reduceCtorEq, false_and, false_or]
      constructor
      · rintro ⟨next, ⟨name, hheader, rfl⟩, hrun⟩
        obtain ⟨tail, rest, size, rfl, hends, hnew, hrest⟩ := run_inside_iff.mp hrun
        exact ⟨(text, number) :: tail, rest, ⟨name, size⟩, rfl,
          isBlock_iff.mpr ⟨text, _, rfl, hheader, hends⟩, hnew, hrest⟩
      · rintro ⟨block, rest, primitive, hlines, hblock, hnew, hrun⟩
        obtain ⟨header, tail, htexts, hheader, hends⟩ := isBlock_iff.mp hblock
        cases block with
        | nil => cases htexts
        | cons first block =>
            obtain ⟨rfl, rfl⟩ := List.cons.inj hlines
            obtain ⟨rfl, rfl⟩ := List.cons.inj htexts
            exact ⟨_, ⟨primitive.name, hheader, rfl⟩,
              run_inside_iff.mpr ⟨block, rest, primitive.size, rfl, hends, hnew, hrun⟩⟩

end

/-! ## Names -/

/-- The names of the primitives are different, and none of them is taken. -/
def Fresh (registry : Registry) (declared : List Primitive) : Prop :=
  NewNames (registry.primitives.map Primitive.name) (declared.map Primitive.name)

section
variable {registry : Registry} {primitive : Primitive} {declared : List Primitive}

theorem contains_eq_false_iff {name : String} :
    registry.contains name = false ↔ name ∉ registry.primitives.map Primitive.name := by
  rw [contains, any_name_eq Primitive.name, decide_eq_false_iff_not]

theorem fresh_iff :
    registry.Fresh declared ↔ (declared.map Primitive.name).Nodup ∧
      ∀ primitive ∈ declared, registry.contains primitive.name = false := by
  simp only [contains_eq_false_iff]
  rw [Fresh, NewNames, List.forall_mem_map]

theorem fresh_cons_iff :
    registry.Fresh (primitive :: declared) ↔
      registry.contains primitive.name = false ∧ (registry.add primitive).Fresh declared := by
  rw [contains_eq_false_iff]
  exact newNames_cons_iff

/-- The registry with more entries. -/
def extend (registry : Registry) (declared : List Primitive) : Registry :=
  declared.foldl add registry

theorem primitives_extend :
    (registry.extend declared).primitives = declared.reverse ++ registry.primitives := by
  unfold extend
  induction declared generalizing registry with
  | nil => rfl
  | cons primitive declared ih => simp [ih, add]

/-- What is added under new names is found, and hides nothing. -/
theorem get?_extend (hnodup : (declared.map Primitive.name).Nodup) (name : String) :
    (registry.extend declared).get? name =
      (declared.find? (·.name == name)).or (registry.get? name) := by
  induction declared generalizing registry with
  | nil => rfl
  | cons primitive declared ih =>
      obtain ⟨hother, hrest⟩ := List.nodup_cons.mp hnodup
      show ((registry.add primitive).extend declared).get? name = _
      rw [ih hrest, get?_add, List.find?_cons]
      cases hname : primitive.name == name with
      | false => rfl
      | true =>
          -- No later entry has the name of this one.
          have hnone : declared.find? (·.name == name) = none := by
            rw [find?_name_eq_none_iff, ← eq_of_beq hname]
            exact hother
          rw [hnone]
          rfl

end

/-! ## Files -/

section
variable {file : String} {registry result : Registry}

theorem exists_declares_of_run {lines : List (List Char × Nat)}
    (h : run file ⟨registry, none⟩ lines = .ok result) :
    ∃ declared, Declares (lines.map Prod.fst) declared ∧ registry.Fresh declared ∧
      result = registry.extend declared := by
  -- Each block takes lines away, so the induction is on their number.
  induction hlength : lines.length using Nat.strongRecOn generalizing registry lines with
  | _ length ih =>
      rcases run_between_iff.mp h with ⟨rfl, rfl⟩ | ⟨block, rest, primitive, rfl, hblock, hnew, hrun⟩
      · exact ⟨[], .nil, fresh_iff.mpr ⟨List.nodup_nil, nofun⟩, rfl⟩
      · have hshorter : rest.length < length := by
          obtain ⟨header, tail, htexts, -⟩ := isBlock_iff.mp hblock
          have hblocklength := congrArg List.length htexts
          rw [List.length_map, List.length_cons] at hblocklength
          rw [List.length_append] at hlength
          omega
        obtain ⟨declared, hdeclares, hfresh, rfl⟩ := ih _ hshorter hrun rfl
        refine ⟨primitive :: declared, ?_, fresh_cons_iff.mpr ⟨hnew, hfresh⟩, rfl⟩
        rw [List.map_append]
        exact .block hblock hdeclares

theorem run_of_declares {texts : List (List Char)} {declared : List Primitive}
    (hdeclares : Declares texts declared) (hfresh : registry.Fresh declared)
    {lines : List (List Char × Nat)} (hlines : lines.map Prod.fst = texts) :
    run file ⟨registry, none⟩ lines = .ok (registry.extend declared) := by
  induction hdeclares generalizing registry lines with
  | nil =>
      obtain rfl := List.map_eq_nil_iff.mp hlines
      rfl
  | block hblock hrest ih =>
      obtain ⟨block, rest, rfl, rfl, rfl⟩ := List.map_eq_append_iff.mp hlines
      obtain ⟨hnew, hfresh⟩ := fresh_cons_iff.mp hfresh
      exact run_between_iff.mpr (.inr ⟨block, rest, _, rfl, hblock, hnew, ih hfresh rfl⟩)

end

/-- A registry file is accepted exactly when its significant lines are blocks whose names are
different and new.  The registry then has its old entries and one for each block, with the
name of the header and the size that comes last, and nothing else. -/
theorem parse_eq_ok_iff_declares (registry result : Registry) (content file : String) :
    (parse registry content file).result = .ok result ↔
      ∃ declared, Declares (significantLines content) declared ∧
        ((declared.map Primitive.name).Nodup ∧
          ∀ primitive ∈ declared, registry.contains primitive.name = false) ∧
        result.primitives = declared.reverse ++ registry.primitives ∧
        ∀ name, result.get? name =
          (declared.find? (·.name == name)).or (registry.get? name) := by
  have hrun : (parse registry content file).result =
      run file ⟨registry, none⟩ (numberedLines content) := rfl
  rw [hrun, ← map_fst_numberedLines]
  constructor
  · intro h
    obtain ⟨declared, hdeclares, hfresh, rfl⟩ := exists_declares_of_run h
    obtain ⟨hnodup, hunknown⟩ := fresh_iff.mp hfresh
    exact ⟨declared, hdeclares, ⟨hnodup, hunknown⟩, primitives_extend, get?_extend hnodup⟩
  · rintro ⟨declared, hdeclares, hfresh, hprimitives, -⟩
    have hresult : result = registry.extend declared := by
      obtain ⟨primitives⟩ := result
      rw [← primitives_extend] at hprimitives
      exact congrArg Registry.mk hprimitives
    rw [hresult]
    exact run_of_declares hdeclares (fresh_iff.mpr hfresh) rfl

end Registry
end FieldMap
