import FieldMap.Lookup
import FieldMap.Proofs.DistanceTable
import FieldMap.Proofs.NewNames
import Mathlib.Data.List.MinMax

/-!
# What is found under a name

A name is looked up among structs in order.  If no struct has it, the name of another one is
suggested.  This module says which:

* `nearest?_map` ties the scan, which carries the best name and its distance, to the argument of
  the least distance;
* `mem_argmin_iff_append` finds this argument in the list: nothing is less, and whatever stands
  before it is greater;
* `IsClosest` says the same of structs and of scripts of edits, with no distance computed.

The main result is that a look-up gives the first struct of the name, or else the closest one as
a suggestion, the first of several; only an empty schema has none to suggest.
-/

namespace FieldMap

open Text (Edits editDistance)

/-- Of the structs in a list, the first that is closest to a name: it is reached by so many edits,
no struct by fewer, and none before it by as many. -/
structure IsClosest (name : String) (before : List Struct) (s : Struct) (after : List Struct)
    (distance : Nat) : Prop where
  reached : Edits distance name.toList s.name.toList
  nearest : ∀ other ∈ before ++ s :: after, ∀ n,
    Edits n name.toList other.name.toList → distance ≤ n
  earliest : ∀ earlier ∈ before, ∀ n, Edits n name.toList earlier.name.toList → distance < n

/-! ## The least distance -/

/-- The argument of the least value is the first one at which no other value is less. -/
theorem mem_argmin_iff_append {α : Type} [DecidableEq α] {f : α → Nat} {items : List α} {a : α} :
    a ∈ items.argmin f ↔ ∃ before after, items = before ++ a :: after ∧
      (∀ other ∈ items, f a ≤ f other) ∧ ∀ earlier ∈ before, f a < f earlier := by
  rw [List.mem_argmin_iff]
  constructor
  · rintro ⟨hmem, hleast, hfirst⟩
    obtain ⟨before, after, rfl, hnot⟩ := List.eq_append_cons_of_mem hmem
    refine ⟨before, after, rfl, hleast, fun earlier hearlier => ?_⟩
    have hindex := List.idxOf_lt_length_of_mem hearlier
    by_contra hle
    have horder := hfirst earlier (List.mem_append_left _ hearlier) (Nat.le_of_not_lt hle)
    rw [List.idxOf_append_of_notMem hnot, List.idxOf_append_of_mem hearlier] at horder
    omega
  · rintro ⟨before, after, rfl, hleast, hfirst⟩
    have hnot : a ∉ before := fun hmem => Nat.lt_irrefl _ (hfirst a hmem)
    refine ⟨List.mem_append_cons_self, hleast, fun other _ hle => ?_⟩
    -- Whatever has the least value too does not stand before.
    have hother : other ∉ before := fun hmem => Nat.not_lt.mpr hle (hfirst other hmem)
    rw [List.idxOf_append_of_notMem hnot, List.idxOf_append_of_notMem hother,
      List.idxOf_cons_self]
    omega

/-- The distance between a name and that of a struct. -/
def nameDistance (name : String) (s : Struct) : Nat :=
  editDistance name.toList s.name.toList

/-- The scan for the closest name finds that of the struct with the least distance. -/
theorem nearest?_map (name : String) (structs : List Struct) :
    nearest? name (structs.map Struct.name) =
      (structs.argmin (nameDistance name)).map Struct.name := by
  -- The scan carries the name and the distance of what has been closest so far.
  have hscan : (structs.map Struct.name).foldl (closer name.toList) none =
      (structs.argmin (nameDistance name)).map fun s => (s.name, nameDistance name s) := by
    induction structs using List.reverseRecOn with
    | nil => rfl
    | append_singleton structs s ih =>
        rw [List.map_append, List.foldl_append, ih, List.argmin_concat]
        cases structs.argmin (nameDistance name) with
        | none => rfl
        | some best =>
            by_cases hless : nameDistance name s < nameDistance name best
            · simp only [if_pos hless]
              exact if_pos hless
            · simp only [if_neg hless]
              exact if_neg hless
  rw [nearest?, hscan, Option.map_map]
  rfl

theorem isLeast_nameDistance (name : String) (s : Struct) :
    IsLeast {n | Edits n name.toList s.name.toList} (nameDistance name s) := by
  rw [nameDistance, Text.editDistance_eq_prefixDistance]
  exact Text.isLeast_prefixDistance _ _

/-- A struct is the closest one when its distance is the least. -/
theorem exists_isClosest_iff {name : String} {structs : List Struct} {s : Struct} :
    (∃ before after distance, structs = before ++ s :: after ∧
      IsClosest name before s after distance) ↔ s ∈ structs.argmin (nameDistance name) := by
  rw [mem_argmin_iff_append]
  constructor
  · rintro ⟨before, after, distance, rfl, hclosest⟩
    have hleast : nameDistance name s ≤ distance := (isLeast_nameDistance name s).2 hclosest.reached
    refine ⟨before, after, rfl, fun other hother => ?_, fun earlier hearlier => ?_⟩
    · exact hleast.trans (hclosest.nearest other hother _ (isLeast_nameDistance name other).1)
    · exact hleast.trans_lt
        (hclosest.earliest earlier hearlier _ (isLeast_nameDistance name earlier).1)
  · rintro ⟨before, after, rfl, hleast, hfirst⟩
    refine ⟨before, after, nameDistance name s, rfl, (isLeast_nameDistance name s).1,
      fun other hother n hn => ?_, fun earlier hearlier n hn => ?_⟩
    · exact (hleast other hother).trans ((isLeast_nameDistance name other).2 hn)
    · exact (hfirst earlier hearlier).trans_le ((isLeast_nameDistance name earlier).2 hn)

/-! ## Looking up -/

section
variable {structs : List Struct} {name : String}

/-- The struct that is found is the first of the name. -/
theorem find?_name_eq_some_iff_append {s : Struct} :
    structs.find? (·.name == name) = some s ↔
      ∃ before after, structs = before ++ s :: after ∧ s.name = name ∧
        ∀ earlier ∈ before, earlier.name ≠ name := by
  rw [List.find?_eq_some_iff_append]
  simp only [beq_iff_eq, Bool.not_eq_true', beq_eq_false_iff_ne]
  constructor
  · rintro ⟨hname, before, after, hsplit, hearlier⟩
    exact ⟨before, after, hsplit, hname, hearlier⟩
  · rintro ⟨before, after, hsplit, hname, hearlier⟩
    exact ⟨hname, before, after, hsplit, hearlier⟩

/-- What is looked up in vain is reported with the name at the least distance. -/
theorem result_findStruct_of_eq_none (h : structs.find? (·.name == name) = none) :
    (findStruct structs name).result =
      .error (.notFound name ((structs.argmin (nameDistance name)).map Struct.name)) := by
  rw [← nearest?_map, findStruct, h]
  rfl

/-- An error that suggests the name at the least distance is one that suggests a closest struct,
unless there are none. -/
theorem eq_notFound_argmin_iff {e : CompileError} :
    e = .notFound name ((structs.argmin (nameDistance name)).map Struct.name) ↔
      (structs = [] ∧ e = .notFound name none) ∨
        ∃ before s after distance, structs = before ++ s :: after ∧
          IsClosest name before s after distance ∧ e = .notFound name (some s.name) := by
  constructor
  · intro he
    cases hbest : structs.argmin (nameDistance name) with
    | none =>
        rw [hbest] at he
        exact .inl ⟨List.argmin_eq_none.mp hbest, he⟩
    | some s =>
        rw [hbest] at he
        obtain ⟨before, after, distance, hsplit, hclosest⟩ := exists_isClosest_iff.mpr hbest
        exact .inr ⟨before, s, after, distance, hsplit, hclosest, he⟩
  · rintro (⟨rfl, rfl⟩ | ⟨before, s, after, distance, hsplit, hclosest, rfl⟩)
    · rfl
    · have hbest := exists_isClosest_iff.mp ⟨before, after, distance, hsplit, hclosest⟩
      rw [Option.mem_def.mp hbest]
      rfl

end

/-- A look-up gives the first struct of exactly that name.  If there is none it fails, and
suggests the name of the struct that is closest, the first of several; there is nothing to
suggest exactly if there are no structs. -/
theorem findStruct_first_or_closest (structs : List Struct) (name : String) :
    (∀ s, (findStruct structs name).result = .ok s ↔
      ∃ before after, structs = before ++ s :: after ∧ s.name = name ∧
        ∀ earlier ∈ before, earlier.name ≠ name) ∧
    ∀ e, (findStruct structs name).result = .error e ↔
      (∀ s ∈ structs, s.name ≠ name) ∧
        ((structs = [] ∧ e = .notFound name none) ∨
          ∃ before s after distance, structs = before ++ s :: after ∧
            IsClosest name before s after distance ∧ e = .notFound name (some s.name)) := by
  have hnone : structs.find? (·.name == name) = none ↔ ∀ s ∈ structs, s.name ≠ name := by
    rw [find?_name_eq_none_iff, List.mem_map]
    exact ⟨fun h s hs hname => h ⟨s, hs, hname⟩, fun h ⟨s, hs, hname⟩ => h s hs hname⟩
  simp only [← find?_name_eq_some_iff_append, ← eq_notFound_argmin_iff, ← hnone]
  cases hfind : structs.find? (·.name == name) with
  | some found =>
      have hresult : (findStruct structs name).result = .ok found := by
        rw [findStruct, hfind]
        rfl
      simp [hresult]
  | none =>
      rw [result_findStruct_of_eq_none hfind]
      simp [eq_comm]

-- Two of the names are two edits away, and one of these comes first.
example : (findStruct [⟨"Enemy", 1, []⟩, ⟨"Played", 2, []⟩, ⟨"Player", 3, []⟩] "Plyee").result =
    .error (.notFound "Plyee" (some "Played")) := by
  rfl

end FieldMap
