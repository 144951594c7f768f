import Mathlib.Data.List.Basic
import Mathlib.Data.List.Nodup

/-!
# New names

The readers take structs, members and primitives up one by one, and refuse a name that is taken.
`NewNames` is what they ask of all the names together, and `newNames_cons_iff` takes it apart in
the order in which they ask.  Among items with different names it does not matter in which order
they stand: `find?_name_perm`.
-/

namespace FieldMap

/-- Looking for a name among those of some items. -/
theorem any_name_eq {α : Type} (nameOf : α → String) (items : List α) (name : String) :
    items.any (nameOf · == name) = decide (name ∈ items.map nameOf) := by
  rw [Bool.eq_iff_iff, List.any_eq_true, decide_eq_true_iff, List.mem_map]
  simp only [beq_iff_eq]

/-- Nothing is found under a name that none of the items has. -/
theorem find?_name_eq_none_iff {α : Type} {nameOf : α → String} {items : List α} {name : String} :
    items.find? (nameOf · == name) = none ↔ name ∉ items.map nameOf := by
  simp only [List.find?_eq_none, beq_iff_eq, List.mem_map, not_exists, not_and]

/-- What is found under a name has that name. -/
theorem name_eq_of_find? {α : Type} {nameOf : α → String} {items : List α} {name : String} {a : α}
    (h : items.find? (nameOf · == name) = some a) : nameOf a = name := by
  have hbeq := List.find?_some h
  exact eq_of_beq hbeq

section
variable {α : Type} {nameOf : α → String} {items : List α} (hnodup : (items.map nameOf).Nodup)
include hnodup

/-- Of items with different names, one is found by its name wherever it stands. -/
theorem find?_name_eq_some_iff {name : String} {a : α} :
    items.find? (nameOf · == name) = some a ↔ a ∈ items ∧ nameOf a = name := by
  constructor
  · intro h
    exact ⟨List.mem_of_find?_eq_some h, name_eq_of_find? h⟩
  · rintro ⟨ha, rfl⟩
    cases hfound : items.find? (nameOf · == nameOf a) with
    | none => exact absurd (List.mem_map_of_mem ha) (find?_name_eq_none_iff.mp hfound)
    | some found =>
        have hmem := List.mem_of_find?_eq_some hfound
        rw [List.inj_on_of_nodup_map hnodup hmem ha (name_eq_of_find? hfound)]

/-- The order of items with different names does not matter to a look-up. -/
theorem find?_name_perm {shuffled : List α} (hperm : items.Perm shuffled) (name : String) :
    shuffled.find? (nameOf · == name) = items.find? (nameOf · == name) := by
  have hshuffled : (shuffled.map nameOf).Nodup := (hperm.map nameOf).nodup_iff.mp hnodup
  ext a
  rw [find?_name_eq_some_iff hshuffled, find?_name_eq_some_iff hnodup, hperm.mem_iff]

end

/-- The names are different, and come up for the first time after those before them. -/
def NewNames (before names : List String) : Prop :=
  names.Nodup ∧ ∀ name ∈ names, name ∉ before

theorem newNames_nil_iff {names : List String} : NewNames [] names ↔ names.Nodup := by
  simp [NewNames]

theorem newNames_cons_iff {before names : List String} {name : String} :
    NewNames before (name :: names) ↔ name ∉ before ∧ NewNames (name :: before) names := by
  unfold NewNames
  rw [List.nodup_cons, List.forall_mem_cons]
  constructor
  · rintro ⟨⟨hother, hnodup⟩, hname, hnames⟩
    refine ⟨hname, hnodup, ?_⟩
    intro later hlater hmem
    rcases List.mem_cons.mp hmem with rfl | hmem
    · exact hother hlater
    · exact hnames later hlater hmem
  · rintro ⟨hname, hnodup, hnames⟩
    refine ⟨⟨?_, hnodup⟩, hname, ?_⟩
    · exact fun hmem => hnames name hmem List.mem_cons_self
    · exact fun later hlater hmem => hnames later hlater (List.mem_cons_of_mem _ hmem)

theorem newNames_append_iff {before names later : List String} :
    NewNames before (names ++ later) ↔
      NewNames before names ∧ NewNames (names.reverse ++ before) later := by
  induction names generalizing before with
  | nil => simp [NewNames]
  | cons name names ih => simp [newNames_cons_iff, ih, and_assoc]

/-- Names are new in whatever order they come. -/
theorem newNames_perm {before names shuffled : List String} (hperm : names.Perm shuffled) :
    NewNames before names ↔ NewNames before shuffled := by
  unfold NewNames
  rw [hperm.nodup_iff]
  exact and_congr_right fun _ => forall_congr' fun name => by rw [hperm.mem_iff]

end FieldMap
