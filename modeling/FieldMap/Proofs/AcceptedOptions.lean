import FieldMap.CommandLine

/-!
# Options that are accepted

A reader of the command line takes the arguments one by one, and what it makes of a dash, a letter
or a name depends on the option whose values it is reading.  Whatever it makes of them, it gives an
option its values in one place, and there it asks for as many as the option takes.  So the options it
accepts are not just consistent: an option that was given has a value.

* `Options.Filled` says that no option is there without a value, and there is a lemma for each thing
  that an argument can be: `filled_meetLetters`, `filled_meetName` and `filled_meetText`.
* `filled_meet` is the statement for one argument, and `filled_of_parse` that for a command line.
* `exists_mode_of_parse` puts it together with `CommandLine.isConsistent`: a mapping is shown, or
  there is a first schema.
-/

namespace FieldMap

/-- An option that may have several values has one at least if it is there. -/
structure Options.Filled (options : Options) : Prop where
  schemas : options.schemas ≠ some []
  primitives : options.primitives ≠ some []

namespace CommandLine

/-- An option is given its values only if it takes as many. -/
theorem filled_setValues {options filled : Options} {option : ValueOption} {given : List String}
    (h : options.Filled) (hset : setValues options option given = some filled) : filled.Filled := by
  unfold setValues at hset
  split at hset
  · cases hset
  split at hset
  · cases hset
    exact ⟨by simp, h.primitives⟩
  · cases hset
    exact ⟨h.schemas, by simp⟩
  · cases hset
    exact ⟨h.schemas, h.primitives⟩
  · cases hset
    exact ⟨h.schemas, h.primitives⟩
  · cases hset
    exact ⟨h.schemas, h.primitives⟩
  · cases hset

theorem filled_turnOn {options turned : Options} {switch : Switch} (h : options.Filled)
    (hturn : turnOn options switch = some turned) : turned.Filled := by
  cases switch with
  | verbose =>
      cases hturn
      exact ⟨h.schemas, h.primitives⟩
  | debugNames | list | quiet =>
      simp only [turnOn] at hturn
      split at hturn
      · cases hturn
      · cases hturn
        exact ⟨h.schemas, h.primitives⟩

section
variable {progress next : Progress} (h : progress.options.Filled)
include h

theorem filled_settle (hnext : progress.settle = some next) : next.options.Filled := by
  unfold Progress.settle at hnext
  split at hnext
  · cases hnext
    exact h
  · obtain ⟨options, hset, hnext⟩ := Option.bind_eq_some_iff.mp hnext
    cases hnext
    exact filled_setValues h hset

theorem filled_meetValue {option : ValueOption} {attached : Option String}
    (hnext : progress.meetValue option attached = some next) : next.options.Filled := by
  obtain ⟨settled, hsettle, hnext⟩ := Option.bind_eq_some_iff.mp hnext
  have hsettled := filled_settle h hsettle
  cases attached with
  | none =>
      cases hnext
      exact hsettled
  | some value =>
      obtain ⟨options, hset, hnext⟩ := Option.bind_eq_some_iff.mp hnext
      cases hnext
      exact filled_setValues hsettled hset

theorem filled_meetSwitch {switch : Switch} (hnext : progress.meetSwitch switch = some next) :
    next.options.Filled := by
  obtain ⟨settled, hsettle, hnext⟩ := Option.bind_eq_some_iff.mp hnext
  obtain ⟨options, hturn, hnext⟩ := Option.bind_eq_some_iff.mp hnext
  cases hnext
  exact filled_turnOn (filled_settle h hsettle) hturn

/-- Letters are switches, up to one that may take the rest as its value. -/
theorem filled_meetLetters {letters : List Char} (hnext : progress.meetLetters letters = some next) :
    next.options.Filled := by
  induction letters generalizing progress with
  | nil =>
      cases hnext
      exact h
  | cons letter letters ih =>
      obtain ⟨flag, -, hnext⟩ := Option.bind_eq_some_iff.mp hnext
      cases flag with
      | switch switch =>
          obtain ⟨turned, hturned, hnext⟩ := Option.bind_eq_some_iff.mp hnext
          exact ih (filled_meetSwitch h hturned) hnext
      | value option =>
          simp only at hnext
          split at hnext
          · exact filled_meetValue h hnext
          · exact filled_meetValue h hnext
          · exact filled_meetValue h hnext

theorem filled_meetName {text : List Char} (hnext : progress.meetName text = some next) :
    next.options.Filled := by
  obtain ⟨flag, -, hnext⟩ := Option.bind_eq_some_iff.mp hnext
  cases flag with
  | value option => exact filled_meetValue h hnext
  | switch switch =>
      simp only at hnext
      split at hnext
      · cases hnext
      · exact filled_meetSwitch h hnext

theorem filled_meetText {argument : String} (hnext : progress.meetText argument = some next) :
    next.options.Filled := by
  unfold Progress.meetText at hnext
  split at hnext
  · cases hnext
  · simp only at hnext
    split at hnext
    · cases hnext
      exact h
    · refine filled_settle ?_ hnext
      exact h

/-- Whatever an argument is, no option is left without a value. -/
theorem filled_meet {argument : String} (hnext : progress.meet argument = some next) :
    next.options.Filled := by
  unfold Progress.meet at hnext
  split at hnext
  · cases hnext
  split at hnext
  · cases hnext
    exact h
  · exact filled_meetName h hnext
  · exact filled_meetLetters h hnext
  · exact filled_meetText h hnext

theorem filled_meetAll {arguments : List String}
    (hnext : arguments.foldlM Progress.meet progress = some next) : next.options.Filled := by
  induction arguments generalizing progress with
  | nil =>
      cases hnext
      exact h
  | cons argument arguments ih =>
      rw [List.foldlM_cons] at hnext
      obtain ⟨met, hmet, hnext⟩ := Option.bind_eq_some_iff.mp hnext
      exact ih (filled_meet h hmet) hnext

end

section
variable {arguments : List String} {options : Options} (h : parse arguments = some options)
include h

/-- Options that are accepted are consistent and have their values. -/
theorem filled_of_parse : options.Filled ∧ isConsistent options = true := by
  obtain ⟨progress, hall, h⟩ := Option.bind_eq_some_iff.mp h
  obtain ⟨settled, hsettle, h⟩ := Option.bind_eq_some_iff.mp h
  have hstart : ({} : Progress).options.Filled := ⟨by simp, by simp⟩
  have hsettled := filled_settle (filled_meetAll hstart hall) hsettle
  split at h
  · next hconsistent =>
      cases h
      exact ⟨hsettled, hconsistent⟩
  · cases h

/-- Accepted options ask for a mapping to be shown, and for nothing else, or they name a first
schema. -/
theorem exists_mode_of_parse :
    (∃ path, options.view = some path ∧ options.schemas = none) ∨
      ∃ first rest, options.view = none ∧ options.schemas = some (first :: rest) := by
  obtain ⟨hfilled, hconsistent⟩ := filled_of_parse h
  have hmode : options.schemas.isSome ≠ options.view.isSome := by
    unfold isConsistent at hconsistent
    simp only [Bool.and_eq_true, bne_iff_ne] at hconsistent
    exact hconsistent.1.1
  cases hschemas : options.schemas with
  | none =>
      rw [hschemas] at hmode
      cases hview : options.view with
      | none =>
          rw [hview] at hmode
          exact absurd rfl hmode
      | some path => exact .inl ⟨path, rfl, rfl⟩
  | some names =>
      rw [hschemas] at hmode
      cases hview : options.view with
      | some path =>
          rw [hview] at hmode
          exact absurd rfl hmode
      | none =>
          cases names with
          | nil => exact absurd hschemas hfilled.schemas
          | cons first rest => exact .inr ⟨first, rest, rfl, rfl⟩

end

end CommandLine
end FieldMap
