import FieldMap.Text.Lines
import Mathlib.Data.List.Basic

/-!
# Lines of texts that are put together

A text that is empty, or whose last line is ended, can be followed by another one without any of
its lines going on there: the lines of the two are then the lines of the one followed by those of
the other (`lines_append`).  And between any two lines a text can be taken apart in this way
(`exists_append_of_length_lt`).
-/

namespace FieldMap
namespace Text

/-- The text is empty, or its last line is ended. -/
def IsEnded {α : Type} (terminator : α) (xs : List α) : Prop :=
  ∀ last ∈ xs.getLast?, last = terminator

section
variable {α : Type} {terminator : α} {line rest xs : List α}

theorem isEnded_nil : IsEnded terminator ([] : List α) :=
  nofun

theorem isEnded_line_append (h : IsEnded terminator rest) :
    IsEnded terminator (line ++ terminator :: rest) := by
  intro last hlast
  rw [List.getLast?_append_cons] at hlast
  cases rest with
  | nil => exact (Option.some.inj hlast).symm
  | cons x rest =>
      rw [List.getLast?_cons_cons] at hlast
      exact h last hlast

/-- A text without an open line is made of lines that are ended. -/
theorem IsEnded.exists_texts [DecidableEq α] (h : IsEnded terminator xs) :
    ∃ texts : List (List α), (∀ text ∈ texts, terminator ∉ text) ∧
      xs = texts.flatMap (· ++ [terminator]) := by
  induction hlength : xs.length using Nat.strongRecOn generalizing xs with
  | _ length ih =>
      by_cases hmem : terminator ∈ xs
      · obtain ⟨line, rest, rfl, hline⟩ := List.eq_append_cons_of_mem hmem
        have hrest : IsEnded terminator rest := by
          intro last hlast
          refine h last ?_
          cases rest with
          | nil => cases hlast
          | cons x rest => rwa [List.getLast?_append_cons, List.getLast?_cons_cons]
        have hshorter : rest.length < length := by
          rw [← hlength, List.length_append, List.length_cons]
          omega
        obtain ⟨texts, htexts, rfl⟩ := ih _ hshorter hrest rfl
        exact ⟨line :: texts, List.forall_mem_cons.mpr ⟨hline, htexts⟩, by simp⟩
      · -- A text that is not empty would hold the terminator at its end.
        cases hlast : xs.getLast? with
        | none =>
            obtain rfl := List.getLast?_eq_none_iff.mp hlast
            exact ⟨[], nofun, rfl⟩
        | some last =>
            obtain rfl := h last hlast
            exact absurd (List.mem_of_getLast? hlast) hmem

variable [BEq α] [LawfulBEq α]

/-- The first line is what stands before the first terminator. -/
theorem lines_line_append (hline : terminator ∉ line) (rest : List α) :
    lines terminator (line ++ terminator :: rest) = line :: lines terminator rest := by
  have hsplit : split terminator (line ++ terminator :: rest) =
      line :: split terminator rest := by
    rw [split_eq_splitOn, split_eq_splitOn, List.splitOn_append_cons_self_of_not_mem hline]
  have hne : split terminator rest ≠ [] := by
    rw [split_eq_splitOn]
    exact List.splitOn_ne_nil terminator rest
  obtain ⟨piece, pieces, hpieces⟩ := List.exists_cons_of_ne_nil hne
  rw [lines, lines, hsplit, hpieces, List.getLast?_cons_cons, List.dropLast_cons_cons]
  split <;> rfl

/-- A text without a terminator is one line, unless it is empty. -/
theorem lines_of_not_mem (h : terminator ∉ xs) (hne : xs ≠ []) : lines terminator xs = [xs] := by
  have hsplit : split terminator xs = [xs] := by
    rw [split_eq_splitOn, List.splitOn_eq_singleton h]
  obtain ⟨x, xs, rfl⟩ := List.exists_cons_of_ne_nil hne
  rw [lines, hsplit]
  rfl

theorem length_lines_le (h : terminator ∉ xs) : (lines terminator xs).length ≤ 1 := by
  by_cases hne : xs = []
  · rw [hne]
    exact Nat.zero_le 1
  · rw [lines_of_not_mem h hne]
    exact Nat.le_refl 1

/-- Whatever the line in front of a text is, the lines below it are the same. -/
theorem exists_lines_below (h : ∀ x ∈ rest.head?, x = terminator) :
    ∃ below, ∀ line, terminator ∉ line → line ≠ [] →
      lines terminator (line ++ rest) = line :: below := by
  cases rest with
  | nil =>
      refine ⟨[], fun line hline hne => ?_⟩
      rw [List.append_nil, lines_of_not_mem hline hne]
  | cons x rest =>
      obtain rfl := h x rfl
      exact ⟨lines x rest, fun line hline _ => lines_line_append hline rest⟩

/-- A text of ended lines is made of these lines, with whatever text stands behind them. -/
theorem lines_flatMap_append {texts : List (List α)} (htexts : ∀ text ∈ texts, terminator ∉ text)
    (rest : List α) :
    lines terminator (texts.flatMap (· ++ [terminator]) ++ rest) =
      texts ++ lines terminator rest := by
  induction texts with
  | nil => rfl
  | cons text texts ih =>
      obtain ⟨htext, hrest⟩ := List.forall_mem_cons.mp htexts
      rw [List.flatMap_cons, List.append_assoc, List.append_assoc, List.singleton_append,
        lines_line_append htext, ih hrest]
      rfl

/-- A text of ended lines is made of these lines. -/
theorem lines_flatMap {texts : List (List α)} (htexts : ∀ text ∈ texts, terminator ∉ text) :
    lines terminator (texts.flatMap (· ++ [terminator])) = texts := by
  have hlines := lines_flatMap_append htexts []
  have hnil : lines terminator ([] : List α) = [] := rfl
  rwa [hnil, List.append_nil, List.append_nil] at hlines

end

section
variable {α : Type} [DecidableEq α] {terminator : α} {xs : List α}

/-- The lines of a text come before those of a text behind it. -/
theorem lines_append (h : IsEnded terminator xs) (rest : List α) :
    lines terminator (xs ++ rest) = lines terminator xs ++ lines terminator rest := by
  obtain ⟨texts, htexts, rfl⟩ := h.exists_texts
  rw [lines_flatMap_append htexts, lines_flatMap htexts]

/-- A text can be taken apart before each of its lines. -/
theorem exists_append_of_length_lt {count : Nat} (h : count < (lines terminator xs).length) :
    ∃ above below, xs = above ++ below ∧ IsEnded terminator above ∧
      lines terminator above = (lines terminator xs).take count ∧
      lines terminator below = (lines terminator xs).drop count := by
  induction count generalizing xs with
  | zero => exact ⟨[], xs, rfl, isEnded_nil, rfl, rfl⟩
  | succ count ih =>
      by_cases hmem : terminator ∈ xs
      · obtain ⟨line, rest, rfl, hline⟩ := List.eq_append_cons_of_mem hmem
        rw [lines_line_append hline] at h ⊢
        obtain ⟨above, below, rfl, hended, habove, hbelow⟩ := ih (Nat.lt_of_succ_lt_succ h)
        refine ⟨line ++ terminator :: above, below, ?_, isEnded_line_append hended, ?_, hbelow⟩
        · rw [List.append_assoc, List.cons_append]
        · rw [lines_line_append hline, habove]
          rfl
      · have hone := length_lines_le hmem
        omega

end

end Text
end FieldMap
