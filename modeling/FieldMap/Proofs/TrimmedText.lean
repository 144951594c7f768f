import FieldMap.Proofs.DeclarationForms
import Mathlib.Data.List.DropRight

/-!
# Texts without the blanks at their ends

What is left of a text begins and ends with something else than a blank, and is found again in any
text that has blanks around it (`trim_append_append`).  If it is not empty, then nothing that stands
behind the text can take any of it away (`exists_trim_append`).
-/

namespace FieldMap
namespace Text

variable {cs gap ending : List Char}

/-- Blanks are taken away in front first and then at the end. -/
theorem trim_eq_rdropWhile (cs : List Char) :
    trim cs = (cs.dropWhile isBlank).rdropWhile isBlank :=
  rfl

theorem isBlank_of_trim_eq_nil (h : trim cs = []) : ∀ c ∈ cs, isBlank c = true := by
  rw [trim_eq_rdropWhile, List.rdropWhile_eq_nil_iff] at h
  intro c hc
  rw [← List.takeWhile_append_dropWhile (p := isBlank) (l := cs)] at hc
  rcases List.mem_append.mp hc with hfront | hrest
  · exact List.mem_takeWhile_imp hfront
  · exact h c hrest

theorem isBlank_head?_trim : ∀ c ∈ (trim cs).head?, isBlank c = false := by
  obtain ⟨ending, hending⟩ := List.rdropWhile_prefix isBlank (cs.dropWhile isBlank)
  intro c hc
  have hstop := List.head?_dropWhile_not isBlank cs
  rw [← hending, ← trim_eq_rdropWhile, List.mem_head?_append_of_mem_head? hc] at hstop
  exact hstop

theorem isBlank_getLast?_rdropWhile (cs : List Char) :
    ∀ c ∈ (cs.rdropWhile isBlank).getLast?, isBlank c = false := by
  intro c hc
  obtain ⟨hne, rfl⟩ := List.mem_getLast?_eq_getLast hc
  exact (Bool.not_eq_true _).mp (List.rdropWhile_last_not _ _ hne)

theorem isBlank_getLast?_trim : ∀ c ∈ (trim cs).getLast?, isBlank c = false :=
  isBlank_getLast?_rdropWhile _

/-- What neither begins nor ends with a blank is found between blanks. -/
theorem trim_append_append (hgap : Blanks gap) (hending : Blanks ending)
    (hfirst : ∀ c ∈ cs.head?, isBlank c = false) (hlast : ∀ c ∈ cs.getLast?, isBlank c = false) :
    trim (gap ++ (cs ++ ending)) = cs := by
  cases cs with
  | nil =>
      have hblank : Blanks (gap ++ ([] ++ ending)) := List.forall_mem_append.mpr ⟨hgap, hending⟩
      rw [trim_eq_rdropWhile, List.dropWhile_eq_nil_iff.mpr hblank, List.rdropWhile_nil]
  | cons first cs =>
      have hend : skipBlank (ending.reverse ++ (first :: cs).reverse) = (first :: cs).reverse := by
        apply skipBlank_append
        · exact fun c hc => hending c (List.mem_reverse.mp hc)
        · rwa [List.head?_reverse]
      have hfront : skipBlank (gap ++ (first :: cs ++ ending)) = first :: cs ++ ending :=
        skipBlank_append hgap hfirst
      rw [← List.reverse_append] at hend
      rw [trim, hfront]
      exact List.reverse_eq_iff.mpr hend

/-- A text keeps its ends when these are not blank. -/
theorem trim_append (hgap : Blanks gap)
    (hfirst : ∀ c ∈ cs.head?, isBlank c = false) (hlast : ∀ c ∈ cs.getLast?, isBlank c = false) :
    trim (gap ++ cs) = cs := by
  have hnone : Blanks [] := nofun
  have htrim := trim_append_append hgap hnone hfirst hlast
  rwa [List.append_nil] at htrim

/-- A line that begins with a name and ends with something else keeps all but the blanks before
it. -/
theorem IsName.trim_append {word : List Char} (hgap : Blanks gap) (hword : IsName word)
    (rest : List Char) {last : Char} (hlast : isBlank last = false) :
    trim (gap ++ (word ++ (rest ++ [last]))) = word ++ (rest ++ [last]) := by
  apply Text.trim_append hgap
  · obtain ⟨first, tail, rfl⟩ := List.exists_cons_of_ne_nil hword.ne_nil
    rintro c ⟨⟩
    exact hword.isBlank_eq_false List.mem_cons_self
  · rw [← List.append_assoc, List.getLast?_concat]
    rintro c ⟨⟩
    exact hlast

/-- A text is what is left of it, between blanks. -/
theorem exists_eq_trim (cs : List Char) :
    ∃ gap ending, Blanks gap ∧ Blanks ending ∧ cs = gap ++ (trim cs ++ ending) := by
  refine ⟨cs.takeWhile isBlank, (cs.dropWhile isBlank).rtakeWhile isBlank, ?_, ?_, ?_⟩
  · exact fun c hc => List.mem_takeWhile_imp hc
  · exact fun c hc => List.mem_rtakeWhile_imp hc
  · rw [trim_eq_rdropWhile, List.rdropWhile_append_rtakeWhile, List.takeWhile_append_dropWhile]

/-- Blanks behind a text are taken away with those it ends in. -/
theorem trim_append_of_blanks (hgap : Blanks gap) : trim (cs ++ gap) = trim cs := by
  obtain ⟨front, ending, hfront, hending, hcs⟩ := exists_eq_trim cs
  have hblank : Blanks (ending ++ gap) := List.forall_mem_append.mpr ⟨hending, hgap⟩
  have htext : cs ++ gap = front ++ (trim cs ++ (ending ++ gap)) := by
    rw [← List.append_assoc (trim cs), ← List.append_assoc front, ← hcs]
  rw [htext, trim_append_append hfront hblank isBlank_head?_trim isBlank_getLast?_trim]

/-- What stands behind a text that is not blank comes behind what is left of it, with the blanks at
the end of the text before it and without those at its own end. -/
theorem exists_trim_append (h : trim cs ≠ []) (more : List Char) :
    ∃ gap tail ending, Blanks gap ∧ Blanks ending ∧ gap ++ more = tail ++ ending ∧
      trim (cs ++ more) = trim cs ++ tail := by
  obtain ⟨front, gap, hfront, hgap, hcs⟩ := exists_eq_trim cs
  have hmore := List.rdropWhile_append_rtakeWhile (p := isBlank) (l := gap ++ more)
  have htail := isBlank_getLast?_rdropWhile (gap ++ more)
  have hending : Blanks ((gap ++ more).rtakeWhile isBlank) := fun c hc =>
    List.mem_rtakeWhile_imp hc
  refine ⟨gap, _, _, hgap, hending, hmore.symm, ?_⟩
  generalize (gap ++ more).rdropWhile isBlank = tail at hmore htail ⊢
  generalize (gap ++ more).rtakeWhile isBlank = ending at hmore hending
  have htext : cs ++ more = front ++ ((trim cs ++ tail) ++ ending) := by
    rw [List.append_assoc, hmore, ← List.append_assoc (trim cs), ← List.append_assoc front, ← hcs]
  rw [htext]
  -- The blanks in front are the same, and those at the end are now those behind all the rest.
  apply trim_append_append hfront hending
  · rw [List.head?_append_of_ne_nil _ h]
    exact isBlank_head?_trim
  · cases tail with
    | nil =>
        rw [List.append_nil]
        exact isBlank_getLast?_trim
    | cons c tail =>
        rw [List.getLast?_append_cons]
        exact htail

/-- What is left of a text begins with the first character that is not blank. -/
theorem exists_trim_append_cons (hgap : Blanks gap) {c : Char} (hc : isBlank c = false)
    (rest : List Char) : ∃ more, trim (gap ++ c :: rest) = c :: more := by
  have hskip : skipBlank (gap ++ c :: rest) = c :: rest := by
    apply skipBlank_append hgap
    rintro c ⟨⟩
    exact hc
  have hparts := List.rdropWhile_append_rtakeWhile (p := isBlank) (l := c :: rest)
  rw [trim_eq_rdropWhile, ← skipBlank, hskip]
  cases hleft : (c :: rest).rdropWhile isBlank with
  | nil =>
      have hblank := List.rdropWhile_eq_nil_iff.mp hleft c List.mem_cons_self
      rw [hc] at hblank
      cases hblank
  | cons first more =>
      rw [hleft, List.cons_append] at hparts
      rw [(List.cons.inj hparts).1]
      exact ⟨more, rfl⟩

/-- Something that is not blank is not among the blanks at the end of a text. -/
theorem exists_eq_append_cons {front rest : List Char} {c : Char}
    (h : front ++ c :: rest = cs ++ ending) (hending : Blanks ending) (hc : isBlank c = false) :
    ∃ more, cs = front ++ c :: more := by
  rcases List.append_eq_append_iff.mp h with ⟨more, hcs, hrest⟩ | ⟨more, -, hrest⟩
  · cases more with
    | nil =>
        have hblank := hending c (by rw [← List.nil_append ending, ← hrest]; exact List.mem_cons_self)
        rw [hc] at hblank
        cases hblank
    | cons first more =>
        rw [List.cons_append] at hrest
        exact ⟨more, by rw [hcs, (List.cons.inj hrest).1]⟩
  · have hblank := hending c (by rw [hrest]; exact List.mem_append_right _ List.mem_cons_self)
    rw [hc] at hblank
    cases hblank

end Text
end FieldMap
