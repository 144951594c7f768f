import FieldMap.Proofs.RegistryGrowth

/-!
# Registry files one after the other

Two registry files may be read one after the other, or put together and read as one, and it does
not matter which of the two comes first.

* `Abreast` says that two readers stand at the same place of the same blocks.  They may have
  counted their lines differently and may call their files by different names; neither of these
  comes into a registry, so what they leave is the same (`run_abreast`).
* A file that is accepted ends between two blocks, so the next one is read behind it as it is read
  by itself.
* `fresh_append_comm` is why the order does not matter: the names of all blocks must be different
  and new, whichever file they stand in.
-/

namespace FieldMap
namespace Registry

/-! ## Two readers at the same place -/

/-- The readers stand between two blocks with the same registry, or inside the same block. -/
inductive Abreast : Progress → Progress → Prop
  | between (registry : Registry) : Abreast ⟨registry, none⟩ ⟨registry, none⟩
  | inside (registry : Registry) (name : String) (header header' : Nat) (given : Option Nat) :
      Abreast ⟨registry, some ⟨name, header, given⟩⟩ ⟨registry, some ⟨name, header', given⟩⟩

section
variable {file file' : String} {progress progress' : Progress}

/-- At a line of the same text both readers go on abreast, or both stop with the same registry. -/
theorem readLine_abreast (file file' : String) (text : List Char) (number number' : Nat)
    (h : Abreast progress progress') :
    (∃ next next', (readLine file progress (text, number)).result = .ok next ∧
        (readLine file' progress' (text, number')).result = .ok next' ∧ Abreast next next') ∨
      ∃ left e e', (readLine file progress (text, number)).result = .error ⟨left, e⟩ ∧
        (readLine file' progress' (text, number')).result = .error ⟨left, e'⟩ := by
  cases h with
  | between registry =>
      simp only [readLine]
      cases keyword? ['p', 'r', 'i', 'm'] text with
      | none => exact .inr ⟨_, _, _, rfl, rfl⟩
      | some rest => exact .inl ⟨_, _, rfl, rfl, .inside _ _ _ _ _⟩
  | inside registry name header header' given =>
      simp only [readLine]
      split
      · unfold closeBlock
        cases given with
        | none => exact .inr ⟨_, _, _, rfl, rfl⟩
        | some size =>
            by_cases hknown : registry.contains name = true
            · simp only [if_pos hknown]
              exact .inr ⟨_, _, _, rfl, rfl⟩
            · simp only [if_neg hknown]
              exact .inl ⟨_, _, rfl, rfl, .between _⟩
      · cases keyword? ['s', 'i', 'z', 'e'] text with
        | none => exact .inr ⟨_, _, _, rfl, rfl⟩
        | some rest =>
            dsimp only
            cases readSize? (Text.trim rest) with
            | none => exact .inr ⟨_, _, _, rfl, rfl⟩
            | some size => exact .inl ⟨_, _, rfl, rfl, .inside _ _ _ _ _⟩

/-- Readers that stand abreast of the same texts both come to the same registry, or both stop and
leave the same registry. -/
theorem run_abreast {lines lines' : List (List Char × Nat)} (h : Abreast progress progress')
    (hlines : lines.map Prod.fst = lines'.map Prod.fst) :
    (run file progress lines).mapError Refusal.registry =
      (run file' progress' lines').mapError Refusal.registry := by
  induction lines generalizing progress progress' lines' with
  | nil =>
      obtain rfl := List.map_eq_nil_iff.mp hlines.symm
      cases h <;> rfl
  | cons line lines ih =>
      obtain ⟨line', rest', rfl, htext, hrest⟩ := List.map_eq_cons_iff.mp hlines.symm
      obtain ⟨text, number⟩ := line
      obtain ⟨_, number'⟩ := line'
      cases htext
      rw [run, run, Traced.result_fold_cons_bind, Traced.result_fold_cons_bind]
      rcases readLine_abreast file file' text number number' h with
        ⟨next, next', hnext, hnext', habreast⟩ | ⟨left, e, e', hstop, hstop'⟩
      · rw [hnext, hnext']
        exact ih habreast hrest.symm
      · rw [hstop, hstop']
        rfl

end

/-! ## A file behind another one -/

section
variable {file firstFile secondFile : String} {registry between : Registry}
  {first second : String}

/-- The lines of a file behind another one are its own lines, counted from the end of the other. -/
theorem numberedLines_append (hended : Text.IsEnded '\n' first.toList) :
    numberedLines (first ++ second) = numberedLines first ++
      numberedFrom (1 + (Text.lines '\n' first.toList).length) (Text.lines '\n' second.toList) := by
  rw [numberedLines_eq, numberedLines_eq, String.toList_append, Text.lines_append hended,
    numberedFrom_append]

/-- The texts of the lines that matter do not depend on where the count begins. -/
theorem map_fst_numberedFrom (start start' : Nat) (lines : List (List Char)) :
    (numberedFrom start lines).map Prod.fst = (numberedFrom start' lines).map Prod.fst := by
  induction lines generalizing start start' with
  | nil => rfl
  | cons line lines ih =>
      cases hskipped : isSkipped (Text.trim line) with
      | true =>
          rw [numberedFrom_cons_of_skipped hskipped, numberedFrom_cons_of_skipped hskipped]
          exact ih _ _
      | false =>
          rw [numberedFrom_cons_of_not_skipped hskipped, numberedFrom_cons_of_not_skipped hskipped,
            List.map_cons, List.map_cons, ih]

/-- A file behind one that is accepted comes to what it comes to by itself, with the registry that
the one in front of it leads to. -/
theorem mapError_parse_append (hended : Text.IsEnded '\n' first.toList)
    (hfirst : (parse registry first firstFile).result = .ok between) :
    (parse registry (first ++ second) file).result.mapError Refusal.registry =
      (parse between second secondFile).result.mapError Refusal.registry := by
  have habove : run file ⟨registry, none⟩ (numberedLines first) = .ok between := by
    obtain ⟨declared, hdeclares, hfresh, rfl⟩ := exists_declares_of_run hfirst
    exact run_of_declares hdeclares hfresh rfl
  show (run file ⟨registry, none⟩ (numberedLines (first ++ second))).mapError _ =
    (run secondFile ⟨between, none⟩ (numberedLines second)).mapError _
  rw [numberedLines_append hended, run_append habove]
  exact run_abreast (.between between) (map_fst_numberedFrom _ _ _)

/-- Nothing but the reasons of two refusals is different if both or none of the files are accepted
and the registry is left the same. -/
theorem mapError_eq_iff {outcome other : Except Refusal Registry} :
    outcome.mapError Refusal.registry = other.mapError Refusal.registry ↔
      ((∃ result, outcome = .ok result) ↔ ∃ result, other = .ok result) ∧
        standing outcome = standing other := by
  cases outcome <;> cases other <;> simp [Except.mapError, standing]

end

/-! ## The order of files -/

section
variable {registry : Registry} {declared later : List Primitive}

theorem extend_append :
    registry.extend (declared ++ later) = (registry.extend declared).extend later :=
  List.foldl_append

theorem fresh_append_iff :
    registry.Fresh (declared ++ later) ↔
      registry.Fresh declared ∧ (registry.extend declared).Fresh later := by
  unfold Fresh
  rw [List.map_append, newNames_append_iff, primitives_extend, List.map_append, List.map_reverse]

/-- Primitives are new in whatever order they come. -/
theorem fresh_append_comm :
    registry.Fresh (declared ++ later) ↔ registry.Fresh (later ++ declared) :=
  newNames_perm (List.perm_append_comm.map Primitive.name)

/-- The same new primitives are found in whatever order they have been added. -/
theorem get?_extend_append_comm (hfresh : registry.Fresh (declared ++ later)) (name : String) :
    (registry.extend (later ++ declared)).get? name =
      (registry.extend (declared ++ later)).get? name := by
  have hnodup := (fresh_iff.mp hfresh).1
  rw [get?_extend (fresh_iff.mp (fresh_append_comm.mp hfresh)).1, get?_extend hnodup,
    find?_name_perm hnodup List.perm_append_comm]

end

/-- Registry files can be put together and can change places.

Behind a file that is accepted, and whose last line is ended, another one is accepted exactly if it
is accepted by itself in the registry that the first one leads to; accepted or refused, it leaves
the same registry.  And two files that are accepted one after the other are accepted the other way
round as well; the registry then has the same entries. -/
theorem parse_in_sequence (registry : Registry) (first second file firstFile secondFile : String)
    {between : Registry} (hfirst : (parse registry first firstFile).result = .ok between) :
    (Text.IsEnded '\n' first.toList →
      ((∃ last, (parse registry (first ++ second) file).result = .ok last) ↔
          ∃ last, (parse between second secondFile).result = .ok last) ∧
        standing (parse registry (first ++ second) file).result =
          standing (parse between second secondFile).result) ∧
      ∀ last, (parse between second secondFile).result = .ok last →
        ∃ swapped final, (parse registry second secondFile).result = .ok swapped ∧
          (parse swapped first firstFile).result = .ok final ∧
          final.primitives.Perm last.primitives ∧ ∀ name, final.get? name = last.get? name := by
  constructor
  · intro hended
    exact mapError_eq_iff.mp (mapError_parse_append hended hfirst)
  · intro last hlast
    obtain ⟨declared, hdeclares, hfresh, rfl⟩ := exists_declares_of_run hfirst
    obtain ⟨later, hlater, hfreshLater, rfl⟩ := exists_declares_of_run hlast
    have hall := fresh_append_iff.mpr ⟨hfresh, hfreshLater⟩
    obtain ⟨hfreshAlone, hfreshBehind⟩ := fresh_append_iff.mp (fresh_append_comm.mp hall)
    refine ⟨registry.extend later, (registry.extend later).extend declared,
      run_of_declares hlater hfreshAlone rfl, run_of_declares hdeclares hfreshBehind rfl, ?_, ?_⟩
    · simp only [primitives_extend, ← List.append_assoc]
      exact List.perm_append_comm.append_right _
    · intro name
      rw [← extend_append, ← extend_append]
      exact get?_extend_append_comm hall name

/-- A file of one block. -/
def halvesContent : String := "prim vec2h\n  size 4\nend\n"

/-- Another one, whose last line is not ended. -/
def quaternionContent : String := "// four of them\nprim quat\n  size +16\nend"

/-- Behind the first file the other one adds its block, or is refused at the name that the first
one has taken; and the two can change places. -/
theorem halvesContent_in_sequence :
    (parse builtin halvesContent "halves").result = .ok (builtin.add ⟨"vec2h", 4⟩) ∧
    Text.IsEnded '\n' halvesContent.toList ∧
    (∃ last, (parse builtin (halvesContent ++ quaternionContent) "units").result = .ok last) ∧
    standing (parse builtin (halvesContent ++ clashingContent) "units").result =
      builtin.add ⟨"vec2h", 4⟩ ∧
    ∃ swapped final, (parse builtin quaternionContent "quaternions").result = .ok swapped ∧
      (parse swapped halvesContent "halves").result = .ok final ∧
      final.primitives.Perm ((builtin.add ⟨"vec2h", 4⟩).add ⟨"quat", 16⟩).primitives ∧
      ∀ name, final.get? name = ((builtin.add ⟨"vec2h", 4⟩).add ⟨"quat", 16⟩).get? name := by
  have hfirst : (parse builtin halvesContent "halves").result = .ok (builtin.add ⟨"vec2h", 4⟩) := by
    decide +kernel
  have hended : Text.IsEnded '\n' halvesContent.toList := by
    rintro _ ⟨⟩
    rfl
  have hlast : (parse (builtin.add ⟨"vec2h", 4⟩) quaternionContent "quaternions").result =
      .ok ((builtin.add ⟨"vec2h", 4⟩).add ⟨"quat", 16⟩) := by decide +kernel
  have hclash : (parse (builtin.add ⟨"vec2h", 4⟩) clashingContent "more").result =
      .error ⟨builtin.add ⟨"vec2h", 4⟩, .duplicateName "vec2h" "more"⟩ := by decide +kernel
  obtain ⟨htogether, hswap⟩ := parse_in_sequence builtin halvesContent quaternionContent "units"
    "halves" "quaternions" hfirst
  obtain ⟨-, hleft⟩ := (parse_in_sequence builtin halvesContent clashingContent "units"
    "halves" "more" hfirst).1 hended
  rw [hclash] at hleft
  exact ⟨hfirst, hended, (htogether hended).1.mpr ⟨_, hlast⟩, hleft, hswap _ hlast⟩

end Registry
end FieldMap
