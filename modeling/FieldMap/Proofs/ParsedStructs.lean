import FieldMap.Proofs.Outcome
import FieldMap.Proofs.Unfolding
import FieldMap.Schema.Parser

/-!
# What holds of every parsed struct

The members of a struct come into its body one at a time, through `Body.add` alone,
whether they stand on the header line or on lines of their own.  So whatever holds of an
empty body and is kept by `Body.add` holds of every struct that a text declares:
`parse_induction` is this principle.  It is proved once over the lines, with
`Scan.Holds` as the invariant of the scan.

The first use of it is `counted_of_parse`: a repeat count that was read is at least one.
-/

namespace FieldMap
namespace Schema

/-- The struct is a body as it stood at its end, and the property holds of it. -/
def OfBody (motive : Body → Prop) (s : Struct) : Prop :=
  ∃ body, motive body ∧ s = body.toStruct

/-- The property holds of all structs read so far and of the body being read. -/
structure Scan.Holds (motive : Body → Prop) (scan : Scan) : Prop where
  structs : ∀ s ∈ scan.structs, OfBody motive s
  body : ∀ body, scan.body = some body → motive body

section
variable {motive : Body → Prop} {file : String} {structs : List Struct}

theorem holds_closed (hstructs : ∀ s ∈ structs, OfBody motive s) {body : Body}
    (hbody : motive body) : Scan.Holds motive ⟨body.toStruct :: structs, none⟩ := by
  refine ⟨?_, nofun⟩
  intro s hs
  rcases List.mem_cons.mp hs with rfl | hs
  · exact ⟨body, hbody, rfl⟩
  · exact hstructs s hs

theorem holds_of_finish {scan : Scan} (hscan : scan.Holds motive)
    (hfinish : (finish file scan).result = .ok structs) :
    ∀ s ∈ structs, OfBody motive s := by
  obtain ⟨read, open?⟩ := scan
  cases open? with
  | none =>
      cases hfinish
      intro s hs
      exact hscan.structs s (List.mem_reverse.mp hs)
  | some body =>
      cases hfinish
      intro s hs
      have hclosed := holds_closed hscan.structs (hscan.body body rfl)
      exact hclosed.structs s (List.mem_reverse.mp hs)

variable (hadd : ∀ body line field next, motive body → Body.add body line field = .ok next →
  motive next)
include hadd

theorem holds_of_addInline {body next : Body} {parts : List (List Char)}
    {left : Option (List Char)} (hbody : motive body)
    (hinline : body.addInline parts = .ok (next, left)) : motive next := by
  induction parts generalizing body with
  | nil =>
      cases hinline
      exact hbody
  | cons part parts ih =>
      rw [Body.addInline] at hinline
      split at hinline
      · cases hinline
        exact hbody
      · next field _ =>
          split at hinline
          · cases hinline
          · next added hadded => exact ih (hadd body _ field added hbody hadded) hinline

variable (hnew : ∀ name line, motive ⟨name, line, []⟩)
include hnew

theorem holds_of_outerLine (hstructs : ∀ s ∈ structs, OfBody motive s) {number : Nat}
    {text : List Char} {scan : Scan}
    (hline : (outerLine file structs number text).result = .ok scan) : scan.Holds motive := by
  unfold outerLine at hline
  split at hline
  · cases hline
    exact ⟨hstructs, nofun⟩
  · next name rest _ =>
      split at hline
      · cases hline
      · simp only at hline
        split at hline
        · cases hline
        · next body part hinline =>
            cases hline
            exact holds_closed hstructs (holds_of_addInline hadd (hnew name number) hinline)
        · next body hinline =>
            have hbody := holds_of_addInline hadd (hnew name number) hinline
            split at hline
            · cases hline
              refine ⟨hstructs, ?_⟩
              rintro open? ⟨⟩
              exact hbody
            · cases hline
              exact holds_closed hstructs hbody

/-- Every line keeps the invariant. -/
theorem holds_of_scanLine (scan : Scan) (line : List Char × Nat) (next : Scan)
    (hscan : scan.Holds motive) (hline : (scanLine file scan line).result = .ok next) :
    next.Holds motive := by
  obtain ⟨structs, open?⟩ := scan
  obtain ⟨text, number⟩ := line
  unfold scanLine at hline
  cases open? with
  | none => exact holds_of_outerLine hadd hnew hscan.structs hline
  | some body =>
      have hbody := hscan.body body rfl
      simp only at hline
      split at hline
      · next field _ =>
          split at hline
          · next added hadded =>
              cases hline
              refine ⟨hscan.structs, ?_⟩
              rintro open? ⟨⟩
              exact hadd body number field added hbody hadded
          · cases hline
      · -- The line ends the body, and is then read as a line between two structs.
        have hclosed := holds_closed hscan.structs hbody
        split at hline
        · exact holds_of_outerLine hadd hnew hclosed.structs hline
        · obtain ⟨_, _, hline⟩ := Traced.bind_eq_ok_iff.mp hline
          exact holds_of_outerLine hadd hnew hclosed.structs hline

/-- What holds of an empty body and is kept by every field holds of every parsed struct. -/
theorem parse_induction {source : String}
    (hparse : (parse source file).result = .ok structs) :
    ∀ s ∈ structs, OfBody motive s := by
  obtain ⟨scan, hscan, hfinish⟩ := Traced.bind_eq_ok_iff.mp hparse
  have hempty : Scan.Holds motive {} := ⟨fun _ hs => absurd hs List.not_mem_nil, nofun⟩
  have hholds := Traced.fold_induction (Scan.Holds motive) (holds_of_scanLine hadd hnew) hscan
    hempty
  exact holds_of_finish hholds hfinish

end

/-- A count that was read is at least one. -/
theorem one_le_of_readCount {member : String} {digits : Option (List Char)} {count : Nat}
    (h : readCount member digits = .ok (some count)) : 1 ≤ count := by
  unfold readCount at h
  split at h
  · cases h
  · split at h
    · next value _ =>
        split at h
        · cases h
        · next hzero =>
            split at h
            · cases h
              exact Nat.one_le_iff_ne_zero.mpr (by simpa using hzero)
            · cases h
    · cases h

/-- The counts of every parsed struct are absent or at least one. -/
theorem counted_of_parse {source file : String} {structs : List Struct}
    (hparse : (parse source file).result = .ok structs) : ∀ s ∈ structs, s.Counted := by
  intro s hs
  have hholds := parse_induction (motive := fun body => body.toStruct.Counted) ?_ ?_ hparse s hs
  · obtain ⟨body, hbody, rfl⟩ := hholds
    exact hbody
  · -- A field adds one member, whose count has just been read.
    intro body line field next hbody hadded member hmember count hcount
    unfold Body.add at hadded
    split at hadded
    · cases hadded
    · next read hread =>
        split at hadded
        · cases hadded
        · cases hadded
          rcases List.mem_cons.mp (List.mem_reverse.mp hmember) with rfl | hmember
          · cases hcount
            exact one_le_of_readCount hread
          · exact hbody member (List.mem_reverse.mpr hmember) count hcount
  · intro name line member hmember
    cases hmember

end Schema
end FieldMap
