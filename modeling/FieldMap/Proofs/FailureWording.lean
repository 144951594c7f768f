import FieldMap.Failure

/-!
# How failures are worded

Two of the failures of a run tell of an error in the program itself: that no schema was named, which
the command line sees to, and that a registry was in place already.  This module shows that they can
be told by their wording: no other failure is worded like them, whatever names, paths and texts occur
in it.

Nearly every wording begins with words of its own, which is what `Begins` says; the openings are
listed in `openings`, and neither of the two texts has one of them.  The text of a refusal by the
system is not known, but it ends with the number of the refusal.
-/

namespace FieldMap

/-- The text begins like this. -/
def Begins (opening text : String) : Prop :=
  ∃ rest, text = opening ++ rest

theorem begins_append (opening rest : String) : Begins opening (opening ++ rest) :=
  ⟨rest, rfl⟩

theorem Begins.append {opening text : String} (h : Begins opening text) (more : String) :
    Begins opening (text ++ more) := by
  obtain ⟨rest, rfl⟩ := h
  exact ⟨rest ++ more, String.append_assoc⟩

theorem begins_self (text : String) : Begins text text :=
  ⟨"", String.append_empty.symm⟩

/-- A chain begins like its first link. -/
theorem Begins.chain {opening first : String} (h : Begins opening first) (rest : List String) :
    Begins opening (": ".intercalate (first :: rest)) := by
  obtain ⟨more, rfl⟩ := h
  exact ⟨_, String.intercalate_cons_append⟩

theorem Begins.ne {opening text other : String} (h : Begins opening text)
    (hother : ¬ opening.toList <+: other.toList) : text ≠ other := by
  obtain ⟨rest, rfl⟩ := h
  rintro rfl
  rw [String.toList_append] at hother
  exact hother (List.prefix_append _ _)

/-- The texts of the errors in the program itself. -/
def internalTexts : List String :=
  ["--schema needs at least one file", "Primitive registry was already initialized"]

/-- How the wordings of the other failures begin. -/
def openings : List String :=
  ["Unexpected line in ", "Invalid size in ", "Missing 'end' for primitive '",
   "Missing 'size' field for primitive '", "Duplicate primitive name '",
   "Failed to read primitive registry ", "Failed to read ", "Parse error in ", "Struct '",
   "Failed to find the desired struct with the name ", "E_", "Failed to write ", "Failed to load ",
   "No struct selected", "stream did not contain valid UTF-8",
   "file name contained an unexpected NUL byte"]

theorem not_prefix_internalTexts : ∀ opening ∈ openings, ∀ text ∈ internalTexts,
    ¬ opening.toList <+: text.toList := by
  decide

theorem getLast?_internalTexts : ∀ text ∈ internalTexts, text.toList.getLast? ≠ some ')' := by
  decide

/-- The text begins in one of the listed ways. -/
def Opens (text : String) : Prop :=
  ∃ opening ∈ openings, Begins opening text

theorem RegistryError.opens {e : RegistryError} (h : e ≠ .alreadyInstalled) : Opens e.message := by
  cases e with
  | unexpectedLine file line text =>
      exact ⟨"Unexpected line in ", by decide,
        ((((begins_append _ _).append _).append _).append _).append _⟩
  | invalidSize file line text =>
      exact ⟨"Invalid size in ", by decide,
        ((((begins_append _ _).append _).append _).append _).append _⟩
  | missingEnd name file line =>
      exact ⟨"Missing 'end' for primitive '", by decide,
        ((((begins_append _ _).append _).append _).append _).append _⟩
  | missingSize name file =>
      exact ⟨"Missing 'size' field for primitive '", by decide,
        ((begins_append _ _).append _).append _⟩
  | duplicateName name file =>
      exact ⟨"Duplicate primitive name '", by decide, ((begins_append _ _).append _).append _⟩
  | unreadable file reason =>
      exact ⟨"Failed to read primitive registry ", by decide,
        ((begins_append _ _).append _).append _⟩
  | alreadyInstalled => exact absurd rfl h

theorem ParseError.begins (e : ParseError) : Begins "Parse error in " e.message :=
  ((((((begins_append _ _).append _).append _).append _).append _).append _).append _

theorem LoadError.opens (e : LoadError) : Opens e.message := by
  cases e with
  | io path reason =>
      exact ⟨"Failed to read ", by decide, ((begins_append _ _).append _).append _⟩
  | parse error => exact ⟨"Parse error in ", by decide, error.begins⟩
  | duplicateStruct name first second =>
      exact ⟨"Struct '", by decide,
        ((((begins_append _ _).append _).append _).append _).append _⟩

theorem Violation.begins_code (rule : Violation) : Begins "E_" rule.code := by
  cases rule with
  | unresolvedType => exact (⟨"UNRESOLVED_TYPE", by decide⟩ : Begins "E_" "E_UNRESOLVED_TYPE")
  | cycle trail again => exact (⟨"CYCLE", by decide⟩ : Begins "E_" "E_CYCLE")
  | sizeOverflow copies size => exact (⟨"SIZE_OVERFLOW", by decide⟩ : Begins "E_" "E_SIZE_OVERFLOW")
  | indexOverflow => exact (⟨"INDEX_OVERFLOW", by decide⟩ : Begins "E_" "E_INDEX_OVERFLOW")
  | tooManyChildren count => exact (⟨"INDEX_OVERFLOW", by decide⟩ : Begins "E_" "E_INDEX_OVERFLOW")
  | emptyStruct name => exact (⟨"EMPTY_STRUCT", by decide⟩ : Begins "E_" "E_EMPTY_STRUCT")
  | tooDeep => exact (⟨"TOO_DEEP", by decide⟩ : Begins "E_" "E_TOO_DEEP")

theorem CompileError.opens (e : CompileError) : Opens e.message := by
  cases e with
  | notFound name suggestion =>
      exact ⟨"Failed to find the desired struct with the name ", by decide,
        ((begins_append _ _).append _).append _⟩
  | invalid error =>
      have hcode := error.violation.begins_code
      exact ⟨"E_", by decide, ((((((((hcode.append _).append _).append _).append _).append _).append
        _).append _).append _).append _⟩

/-- A refusal by the system ends with its number, unless a name holds a NUL. -/
theorem OsError.exists_message (e : OsError) :
    (∃ front, e.message = front ++ ")") ∨ e.message = "file name contained an unexpected NUL byte" := by
  cases hcode : e.code? with
  | none =>
      cases e with
      | nulInName => exact .inr rfl
      | _ => cases hcode
  | some code =>
      refine .inl ⟨e.text ++ " (os error " ++ toString code, ?_⟩
      unfold OsError.message
      rw [hcode]
      rfl

/-- The failure is an error in the program itself. -/
def Failure.IsInternal : Failure → Prop
  | noSchema | registry .alreadyInstalled => True
  | _ => False

theorem Failure.not_isInternal_registry {e : RegistryError} (h : e ≠ .alreadyInstalled) :
    ¬ IsInternal (.registry e) := by
  cases e with
  | alreadyInstalled => exact absurd rfl h
  | _ => exact id

/-- No other failure is worded like one of the errors in the program itself. -/
theorem Failure.message_not_mem_internalTexts {failure : Failure} (h : ¬ failure.IsInternal) :
    failure.message ∉ internalTexts := by
  have hopens {text : String} (hopen : Opens text) (rest : List String) :
      ": ".intercalate (text :: rest) ∉ internalTexts := by
    intro hmem
    obtain ⟨opening, hopening, hbegins⟩ := hopen
    exact (hbegins.chain rest).ne (not_prefix_internalTexts opening hopening _ hmem) rfl
  cases failure with
  | noSchema => exact absurd trivial h
  | noStructSelected => exact hopens ⟨"No struct selected", by decide, begins_self _⟩ []
  | registry e =>
      have he : e ≠ .alreadyInstalled := by
        rintro rfl
        exact h trivial
      exact hopens (RegistryError.opens he) []
  | load e => exact hopens e.opens _
  | compile e => exact hopens e.opens []
  | save path e => exact hopens ⟨"Failed to write ", by decide, begins_append _ _⟩ _
  | view path e => exact hopens ⟨"Failed to load ", by decide, begins_append _ _⟩ _
  | input reason =>
      cases reason with
      | notUtf8 => exact hopens ⟨"stream did not contain valid UTF-8", by decide, begins_self _⟩ []
      | os e =>
          rcases e.exists_message with ⟨front, hfront⟩ | hnul
          · intro hmem
            have htext : front ++ ")" ∈ internalTexts := hfront ▸ hmem
            exact getLast?_internalTexts _ htext (by simp [String.toList_append])
          · refine hopens ⟨"file name contained an unexpected NUL byte", by decide, ?_⟩ []
            exact hnul ▸ begins_self _

end FieldMap
