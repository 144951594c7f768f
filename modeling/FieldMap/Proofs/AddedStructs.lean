import FieldMap.Loading
import FieldMap.Proofs.NewNames

/-!
# Structs that are added to others

The structs of a schema file are added one by one to those that are known, newest first and each
with the path of its file.  `addStructs_eq_ok_iff` and `addStructs_eq_error_iff` say what comes of
all of them: they are added when their names are new, and else the first one whose name is taken is
refused, together with the path that the name is known from.
-/

namespace FieldMap

section
variable {path : Path} {known added : List (Struct × Path)} {structs earlier : List Struct}
  {e : LoadError}

/-- The structs with new names are added before any other one is looked at. -/
theorem addStructs_append_of_newNames
    (h : NewNames (known.map (·.1.name)) (earlier.map Struct.name)) (rest : List Struct) :
    addStructs path known (earlier ++ rest) =
      addStructs path ((earlier.map (·, path)).reverse ++ known) rest := by
  induction earlier generalizing known with
  | nil => rfl
  | cons s earlier ih =>
      obtain ⟨hs, hearlier⟩ := newNames_cons_iff.mp h
      have hadded : addStructs path ((s, path) :: known) (earlier ++ rest) =
          addStructs path ((earlier.map (·, path)).reverse ++ (s, path) :: known) rest :=
        ih hearlier
      rw [List.cons_append, addStructs, find?_name_eq_none_iff.mpr hs]
      show addStructs path ((s, path) :: known) (earlier ++ rest) = _
      rw [hadded]
      simp

/-- Structs with new names are added to those that are known. -/
theorem addStructs_of_newNames (h : NewNames (known.map (·.1.name)) (structs.map Struct.name)) :
    addStructs path known structs = .ok ((structs.map (·, path)).reverse ++ known) := by
  have hall : addStructs path known (structs ++ []) =
      addStructs path ((structs.map (·, path)).reverse ++ known) [] :=
    addStructs_append_of_newNames h []
  rw [List.append_nil] at hall
  exact hall

theorem addStructs_eq_ok_iff :
    addStructs path known structs = .ok added ↔
      NewNames (known.map (·.1.name)) (structs.map Struct.name) ∧
        added = (structs.map (·, path)).reverse ++ known := by
  constructor
  · intro h
    induction structs generalizing known with
    | nil =>
        cases h
        exact ⟨⟨List.nodup_nil, nofun⟩, rfl⟩
    | cons s structs ih =>
        rw [addStructs] at h
        cases hfind : known.find? (·.1.name == s.name) with
        | some entry =>
            rw [hfind] at h
            cases h
        | none =>
            rw [hfind] at h
            obtain ⟨hnew, rfl⟩ := ih h
            exact ⟨newNames_cons_iff.mpr ⟨find?_name_eq_none_iff.mp hfind, hnew⟩, by simp⟩
  · rintro ⟨hnew, rfl⟩
    exact addStructs_of_newNames hnew

/-- The first struct whose name is taken is refused, when those before it have been added. -/
theorem addStructs_eq_error_iff :
    addStructs path known structs = .error e ↔
      ∃ earlier s later t first, structs = earlier ++ s :: later ∧
        NewNames (known.map (·.1.name)) (earlier.map Struct.name) ∧
        ((earlier.map (·, path)).reverse ++ known).find? (·.1.name == s.name) = some (t, first) ∧
        e = .duplicateStruct s.name first path := by
  constructor
  · intro h
    induction structs generalizing known with
    | nil => cases h
    | cons s structs ih =>
        rw [addStructs] at h
        cases hfind : known.find? (·.1.name == s.name) with
        | some entry =>
            obtain ⟨t, first⟩ := entry
            rw [hfind] at h
            cases h
            exact ⟨[], s, structs, t, first, rfl, ⟨List.nodup_nil, nofun⟩, hfind, rfl⟩
        | none =>
            rw [hfind] at h
            obtain ⟨earlier, s', later, t, first, rfl, hnew, hfind', rfl⟩ := ih h
            exact ⟨s :: earlier, s', later, t, first, rfl,
              newNames_cons_iff.mpr ⟨find?_name_eq_none_iff.mp hfind, hnew⟩, by simpa using hfind',
              rfl⟩
  · rintro ⟨earlier, s, later, t, first, rfl, hnew, hfind, rfl⟩
    rw [addStructs_append_of_newNames hnew, addStructs, hfind]

/-- A name that no added struct has is looked up among those that were known. -/
theorem find?_added_append {name : String} (h : name ∉ structs.map Struct.name) :
    ((structs.map (·, path)).reverse ++ known).find? (·.1.name == name) =
      known.find? (·.1.name == name) := by
  have hnone : (structs.map (·, path)).reverse.find? (·.1.name == name) = none := by
    rw [find?_name_eq_none_iff, List.map_reverse, List.mem_reverse, List.map_map]
    exact h
  rw [List.find?_append, hnone, Option.none_or]

end

end FieldMap
