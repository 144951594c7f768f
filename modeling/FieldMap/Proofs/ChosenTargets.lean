import FieldMap.Proofs.BrokenRules
import FieldMap.Proofs.StatefulSteps
import FieldMap.Proofs.UnfoldingLayout
import FieldMap.World

/-!
# Targets that are chosen

A choice goes on as long as no line offers the name of a struct.  What is read until then only adds
to what is shown, the same for each line whatever stands before it (`selectOnto_append`), and the
first line that offers a name is the last one that is read: its compilation is the outcome, be it a
mapping or a broken rule (`selectOnto_cons_of_offers`).  A broken rule is never taken for a name
that is not known, since the compilation of a struct has no such error
(`exists_invalid_of_compileStruct`).

`Chooser.Asks` says of a machine that it chooses in this way, and then the mapping of a target comes
from the compilation of this target, whether it is given or asked for
(`compile_of_compileTarget`).
-/

namespace FieldMap

/-- The name that a line gives. -/
def nameOn (line : String) : String :=
  String.ofList (Text.trim line.toList)

/-- The line gives the name of a struct. -/
def Scope.Offers (scope : Scope) (line : String) : Prop :=
  nameOn line ≠ "" ∧ nameOn line ∈ scope.structs.map Struct.name

/-- The error for a name that is not known. -/
def Scope.unknown (scope : Scope) (name : String) : CompileError :=
  .notFound name (nearest? name (scope.structs.map Struct.name))

/-- What is shown after a line that offers nothing, before the name is asked for again. -/
def Scope.answer (scope : Scope) (line : String) : String :=
  if nameOn line = "" then "" else (scope.unknown (nameOn line)).message ++ "\n"

/-- All that is shown for lines that offer nothing: each is asked for and answered. -/
def Scope.transcript (scope : Scope) (lines : List String) : String :=
  String.join (lines.map fun line => prompt ++ scope.answer line)

/-- What is reported for a line that offers nothing. -/
def Scope.noted (scope : Scope) (line : String) : List Event :=
  if nameOn line = "" then []
  else [.structNotFound (nameOn line) (nearest? (nameOn line) (scope.structs.map Struct.name))]

section
variable {scope : Scope} {named : Bool} {line : String}

theorem exists_invalid_of_compileStruct {target : Struct} {e : CompileError}
    (h : (compileStruct scope target named).result = .error e) : ∃ error, e = .invalid error := by
  cases founded_of_compileStruct h with
  | broken => exact ⟨_, rfl⟩
  | indexOverflow => exact ⟨_, rfl⟩
  | tooManyChildren => exact ⟨_, rfl⟩

/-- A name that no struct has is answered with the nearest one. -/
theorem compile_of_not_mem {name : String} (h : name ∉ scope.structs.map Struct.name) :
    compile scope name named =
      ⟨[.structNotFound name (nearest? name (scope.structs.map Struct.name))],
        .error (scope.unknown name)⟩ := by
  have hnone : scope.structs.find? (·.name == name) = none := find?_name_eq_none_iff.mpr h
  rw [compile, findStruct, hnone]
  rfl

/-- The compilation of a known name fails for a broken rule, if it fails. -/
theorem exists_invalid_of_compile {name : String} (h : name ∈ scope.structs.map Struct.name)
    {e : CompileError} (herror : (compile scope name named).result = .error e) :
    ∃ error, e = .invalid error := by
  rw [result_compile] at herror
  split at herror
  · exact exists_invalid_of_compileStruct herror
  · next hnone => exact absurd h (find?_name_eq_none_iff.mp hnone)

/-! ## One line -/

theorem reply_encode (scope : Scope) (named : Bool) (line : String) :
    reply scope named (Text.Utf8.encode line) =
      if nameOn line = "" then ([], .again "")
      else match (compile scope (nameOn line) named).result with
        | .ok mapping => ((compile scope (nameOn line) named).events, .chosen (nameOn line) mapping)
        | .error (.notFound name suggestion) =>
          ((compile scope (nameOn line) named).events,
            .again ((CompileError.notFound name suggestion).message ++ "\n"))
        | .error e => ((compile scope (nameOn line) named).events, .failed (.compile e)) := by
  rw [reply, Text.Utf8.decode_encode]
  rfl

theorem reply_of_not_offers (h : ¬ scope.Offers line) :
    reply scope named (Text.Utf8.encode line) = (scope.noted line, .again (scope.answer line)) := by
  rw [reply_encode]
  unfold Scope.noted Scope.answer
  by_cases hblank : nameOn line = ""
  · simp only [hblank, if_true]
  · have hunknown : nameOn line ∉ scope.structs.map Struct.name := fun hmem => h ⟨hblank, hmem⟩
    simp only [hblank, if_false, compile_of_not_mem hunknown]
    rfl

theorem selectOnto_cons_of_not_offers (h : ¬ scope.Offers line) (shown : String)
    (events : List Event) (rest : List (List UInt8)) :
    selectOnto scope named shown events (Text.Utf8.encode line :: rest) =
      selectOnto scope named (shown ++ (prompt ++ scope.answer line))
        ((scope.noted line).reverse ++ events) rest := by
  rw [selectOnto, reply_of_not_offers h]
  simp only [String.append_assoc, List.reverseAux_eq]

theorem selectOnto_cons_of_offers (h : scope.Offers line) (shown : String)
    (events : List Event) (rest : List (List UInt8)) :
    selectOnto scope named shown events (Text.Utf8.encode line :: rest) =
      { shown := shown ++ prompt
        events := (compile scope (nameOn line) named).events.reverse ++ events
        result := ((compile scope (nameOn line) named).result.mapError Failure.compile).map
          (Prod.mk (nameOn line))
        rest := rest } := by
  obtain ⟨hname, hmem⟩ := h
  rw [selectOnto, reply_encode, if_neg hname]
  cases hresult : (compile scope (nameOn line) named).result with
  | ok mapping =>
      simp only [List.reverseAux_eq]
      rfl
  | error e =>
      -- A known name is never answered, so this error ends the choice.
      obtain ⟨error, rfl⟩ := exists_invalid_of_compile hmem hresult
      simp only [List.reverseAux_eq]
      rfl

/-! ## All lines -/

/-- Lines that offer nothing add to what is shown and reported, and the choice goes on. -/
theorem selectOnto_append {before : List String} (h : ∀ line ∈ before, ¬ scope.Offers line)
    (shown : String) (events : List Event) (rest : List (List UInt8)) :
    selectOnto scope named shown events (before.map Text.Utf8.encode ++ rest) =
      selectOnto scope named (shown ++ scope.transcript before)
        ((before.flatMap scope.noted).reverse ++ events) rest := by
  induction before generalizing shown events with
  | nil => simp [Scope.transcript]
  | cons line before ih =>
      obtain ⟨hline, hbefore⟩ := List.forall_mem_cons.mp h
      rw [List.map_cons, List.cons_append, selectOnto_cons_of_not_offers hline, ih hbefore]
      simp [Scope.transcript, String.append_assoc]

end

/-- A choice that is made by lines of text, with or without their line breaks, is the compilation
of the first name of a struct that a line gives, and no line after it is read.  Each line is asked
for, and one that gives another name is answered with the error for this name.  If no line gives the
name of a struct, the end of the input is asked for as well, and nothing is chosen. -/
theorem select_eq_compile (scope : Scope) (named : Bool) (lines : List String) :
    (∀ before line after, lines = before ++ line :: after →
      (∀ earlier ∈ before, ¬ scope.Offers earlier) → scope.Offers line →
        (select scope named (lines.map Text.Utf8.encode)).result =
            ((compile scope (nameOn line) named).result.mapError Failure.compile).map
              (Prod.mk (nameOn line)) ∧
          (select scope named (lines.map Text.Utf8.encode)).rest = after.map Text.Utf8.encode ∧
          (select scope named (lines.map Text.Utf8.encode)).shown =
            scope.transcript before ++ prompt) ∧
    ((∀ line ∈ lines, ¬ scope.Offers line) →
      (select scope named (lines.map Text.Utf8.encode)).result = .error .noStructSelected ∧
        (select scope named (lines.map Text.Utf8.encode)).rest = [] ∧
        (select scope named (lines.map Text.Utf8.encode)).shown =
          scope.transcript lines ++ prompt) ∧
    ∀ line, ¬ scope.Offers line → nameOn line ≠ "" →
      (compile scope (nameOn line) named).result = .error (scope.unknown (nameOn line)) := by
  refine ⟨?_, ?_, ?_⟩
  · rintro before line after rfl hbefore hline
    rw [select, List.map_append, List.map_cons, selectOnto_append hbefore,
      selectOnto_cons_of_offers hline]
    simp
  · intro hlines
    have hall : selectOnto scope named "" [] (lines.map Text.Utf8.encode ++ []) = _ :=
      selectOnto_append hlines "" [] []
    rw [List.append_nil] at hall
    rw [select, hall]
    simp [selectOnto]
  · intro line hline hname
    rw [compile_of_not_mem fun hmem => hline ⟨hname, hmem⟩]

instance (scope : Scope) (line : String) : Decidable (scope.Offers line) :=
  inferInstanceAs (Decidable (_ ∧ _))

/-- A blank line, a slip, the name, and a line that is not read. -/
def routeLines : List String :=
  ["\n", "Rute\n", "\tRoute \r\n", "Point"]

/-- The route is chosen in the third line.  The first two lines alone choose nothing, although
there is something like the name in the second one. -/
theorem route_chosen :
    ((∀ earlier ∈ routeLines.take 2, ¬ routeScope.Offers earlier) ∧
      routeScope.Offers "\tRoute \r\n" ∧
      (select routeScope true (routeLines.map Text.Utf8.encode)).result =
        .ok ("Route", routeMapping) ∧
      (select routeScope true (routeLines.map Text.Utf8.encode)).rest =
        [Text.Utf8.encode "Point"] ∧
      (select routeScope true (routeLines.map Text.Utf8.encode)).shown =
        "Struct to parse: Struct to parse: Failed to find the desired struct with the name Rute! " ++
          "Did you mean Route?\nStruct to parse: ") ∧
    (select routeScope true ((routeLines.take 2).map Text.Utf8.encode)).result =
      .error .noStructSelected ∧
    nameOn "Rute\n" ≠ "" ∧
    (compile routeScope "Rute" true).result = .error (.notFound "Rute" (some "Route")) := by
  have hbefore : ∀ earlier ∈ routeLines.take 2, ¬ routeScope.Offers earlier := by decide +kernel
  have hline : routeScope.Offers "\tRoute \r\n" := by decide +kernel
  have hslip : nameOn "Rute\n" ≠ "" := by decide +kernel
  obtain ⟨hchosen, -, hunknown⟩ := select_eq_compile routeScope true routeLines
  obtain ⟨hresult, hrest, hshown⟩ := hchosen _ _ ["Point"] rfl hbefore hline
  have hnone := (select_eq_compile routeScope true (routeLines.take 2)).2.1 hbefore
  have hname : nameOn "\tRoute \r\n" = "Route" := by decide +kernel
  have htranscript : routeScope.transcript (routeLines.take 2) ++ prompt =
      "Struct to parse: Struct to parse: Failed to find the desired struct with the name Rute! " ++
        "Did you mean Route?\nStruct to parse: " := by decide +kernel
  have herror : routeScope.unknown (nameOn "Rute\n") = .notFound "Rute" (some "Route") := by
    decide +kernel
  refine ⟨⟨hbefore, hline, ?_, hrest, hshown.trans htranscript⟩, hnone.1, hslip, ?_⟩
  · rw [hresult, hname]
    rfl
  · have hanswer := hunknown "Rute\n" (hbefore _ (by simp [routeLines])) hslip
    rw [herror] at hanswer
    exact hanswer

/-! ## Machines that ask -/

/-- What is chosen is what `select` makes of some lines, unless the input cannot be read. -/
def Chooser.Asks {σ : Type} (choose : Chooser (StateM σ)) : Prop :=
  ∀ scope named s,
    (∃ lines, ((choose scope named).run s).1 = (select scope named lines).result) ∨
      ∃ e, ((choose scope named).run s).1 = .error (.input (.os e))

theorem World.choose_asks : Chooser.Asks choose :=
  fun _ _ world => .inl ⟨world.input, rfl⟩

section
variable {scope : Scope} {named : Bool} {target : String} {mapping : Mapping}

/-- A target that is chosen is compiled. -/
theorem compile_of_reply {line : List UInt8} {events : List Event}
    (h : reply scope named line = (events, .chosen target mapping)) :
    (compile scope target named).result = .ok mapping := by
  unfold reply at h
  split at h
  · cases h
  · dsimp only at h
    split at h
    · cases h
    · split at h
      · next hcompiled =>
          cases h
          exact hcompiled
      · cases h
      · cases h

theorem compile_of_selectOnto {shown : String} {events : List Event} {lines : List (List UInt8)}
    (h : (selectOnto scope named shown events lines).result = .ok (target, mapping)) :
    (compile scope target named).result = .ok mapping := by
  induction lines generalizing shown events with
  | nil => cases h
  | cons line rest ih =>
      rw [selectOnto] at h
      split at h
      · exact ih h
      · next hreply =>
          cases h
          exact compile_of_reply hreply
      · cases h

theorem compile_of_compileTarget {σ : Type} [Reporting (StateM σ)] {choose : Chooser (StateM σ)}
    (hasks : choose.Asks) {options : Options} {s next : σ}
    (h : (compileTarget choose options scope).run s = (.ok (target, mapping), next)) :
    (compile scope target options.debugNames).result = .ok mapping := by
  unfold compileTarget at h
  split at h
  · obtain ⟨found, _, hcompiled, h⟩ := run_bind_eq_ok_iff.mp h
    cases h
    rw [run_adapt_eq_ok_iff, run_perform] at hcompiled
    exact congrArg Prod.fst hcompiled
  · have houtcome := congrArg Prod.fst h
    rcases hasks scope options.debugNames s with ⟨lines, hlines⟩ | ⟨e, hread⟩
    · exact compile_of_selectOnto (hlines.symm.trans houtcome)
    · cases hread.symm.trans houtcome

end

end FieldMap
