import FieldMap.Proofs.AcceptedOptions
import FieldMap.Proofs.ChosenTargets
import FieldMap.Proofs.FailureWording
import FieldMap.Proofs.RegistrySequence

/-!
# Errors that no run ends with

A run checks two things that cannot go wrong: that there is a first schema, which the command line
sees to, and that no registry is in place when it puts its own there, which holds in every process
that runs once.  This module shows that both checks are without effect.

* `run_eq_of_schemas` follows the slot of the registry through a run: the registry that has been read
  is the one that a target is compiled with.  `compileRun` is a run without slot and checks.  The
  second check matters to a process that runs twice, as `run_eq_of_held` shows.
* `exists_declared_of_loadRegistryFiles` says what that registry holds.
* `Fails` says of a computation how it can fail at all, with a rule for sequences; `fails_compileRun`
  is the statement for a run without checks.
-/

namespace FieldMap

/-! ## The registry of a run -/

section
variable {m : Type → Type} [Monad m] [LawfulMonad m] {ε ε' α β : Type}

theorem adapt_mk_pure (reword : ε → ε') (result : Except ε α) :
    ExceptT.adapt reword (ExceptT.mk (pure result) : ExceptT ε m α) =
      ExceptT.mk (pure (result.mapError reword)) := by
  show ExceptT.mk (Except.mapError reword <$> pure result) = _
  rw [map_pure]

theorem mk_pure_ok_bind (a : α) (f : α → ExceptT ε m β) :
    (ExceptT.mk (pure (.ok a)) >>= f) = f a := by
  show ExceptT.mk (pure (.ok a) >>= ExceptT.bindCont f) = f a
  rw [pure_bind]
  rfl

theorem mk_pure_error_bind (e : ε) (f : α → ExceptT ε m β) :
    (ExceptT.mk (pure (.error e)) >>= f) = throw e := by
  show ExceptT.mk (pure (.error e) >>= ExceptT.bindCont f) = throw e
  rw [pure_bind]
  rfl

variable [FileSystem m] [Reporting m] [Terminal m]

/-- A run that reads schemas, the first of which is known.  The registry that it reads goes to the
target as it is. -/
def compileRun (choose : Chooser m) (options : Options) (first : String) (rest : List String) :
    ExceptT Failure m Unit := do
  let registry ← ExceptT.adapt (fun refusal => Failure.registry refusal.error)
    (loadRegistryFiles .builtin (options.primitives.getD []))
  let structs ← ExceptT.adapt Failure.load (loadSchemas ((first :: rest).map Path.mk))
  if options.list then ExceptT.lift (Terminal.print (Schema.listing structs))
  else emit choose options ⟨first⟩ ⟨registry, structs⟩

/-- With an empty slot, the registry that has been read is put there, and it is found there when a
target is compiled. -/
theorem run_eq_of_schemas (choose : Chooser m) {options : Options} {first : String}
    {rest : List String} (hview : options.view = none)
    (hschemas : options.schemas = some (first :: rest)) :
    run choose {} options = compileRun choose options first rest := by
  unfold run compileRun
  rw [hview, hschemas]
  refine bind_congr fun registry => ?_
  rw [adapt_mk_pure]
  exact mk_pure_ok_bind _ _

/-- With a registry in its slot, as for a second run of a process, a run would go no further than
its own registry. -/
theorem run_eq_of_held (choose : Chooser m) {options : Options} (hview : options.view = none)
    (held : Registry) :
    run choose ⟨some held⟩ options = (do
      let _ ← ExceptT.adapt (fun refusal => Failure.registry refusal.error)
        (loadRegistryFiles .builtin (options.primitives.getD []))
      throw (.registry .alreadyInstalled)) := by
  unfold run
  rw [hview]
  refine bind_congr fun registry => ?_
  rw [adapt_mk_pure]
  exact mk_pure_error_bind _ _

end

namespace Registry

section
variable {σ : Type} [FileSystem (StateM σ)] [Reporting (StateM σ)]

/-- The primitives that some files declare, in order: each file could be read, and its text declares
its part of them. -/
inductive Declared (σ : Type) [FileSystem (StateM σ)] : List String → List Primitive → Prop
  | nil : Declared σ [] []
  | cons {file : String} {files : List String} {content : String} {own later : List Primitive}
      {s next : σ}
      (hread : (readText ⟨file⟩ : ExceptT TextError (StateM σ) String).run s = (.ok content, next))
      (hdeclares : Declares (significantLines content) own) (hfiles : Declared σ files later) :
      Declared σ (file :: files) (own ++ later)

/-- Files that are loaded add what they declare, and nothing else. -/
theorem exists_declared_of_loadRegistryFiles {registry result : Registry} {files : List String}
    {s next : σ} (h : (loadRegistryFiles registry files : ExceptT Refusal (StateM σ) Registry).run s =
      (.ok result, next)) :
    ∃ declared, Declared σ files declared ∧ registry.Fresh declared ∧
      result = registry.extend declared := by
  induction files generalizing registry s with
  | nil =>
      cases h
      exact ⟨[], .nil, fresh_iff.mpr ⟨List.nodup_nil, fun _ hmem => nomatch hmem⟩, rfl⟩
  | cons file files ih =>
      obtain ⟨between, loaded, hfile, hrest⟩ := run_bind_eq_ok_iff.mp h
      obtain ⟨content, read, hread, hparse⟩ := run_bind_eq_ok_iff.mp hfile
      rw [run_perform] at hparse
      obtain ⟨own, hdeclares, hfresh, rfl⟩ := exists_declares_of_run (Prod.mk.inj hparse).1
      rw [map_fst_numberedLines] at hdeclares
      obtain ⟨later, hlater, hfreshLater, rfl⟩ := ih hrest
      exact ⟨own ++ later, .cons (run_adapt_eq_ok_iff.mp hread) hdeclares hlater,
        fresh_append_iff.mpr ⟨hfresh, hfreshLater⟩, extend_append.symm⟩

end

theorem BreaksOff.ne_alreadyInstalled {file : String} {registry : Registry} {name : String}
    {header : Nat} {given : Option Nat} {lines : List (List Char × Nat)} {e : RegistryError}
    (h : BreaksOff file registry name header given lines e) : e ≠ .alreadyInstalled := by
  induction h with
  | unfinished => simp
  | fault hfault => cases hfault <;> simp
  | size _ _ ih => exact ih

/-- A file is refused for what stands in it. -/
theorem ne_alreadyInstalled_of_parse {registry : Registry} {content file : String}
    {refusal : Refusal} (h : (parse registry content file).result = .error refusal) :
    refusal.error ≠ .alreadyInstalled := by
  obtain ⟨left, e⟩ := refusal
  obtain ⟨read, line, number, rest, -, -, hrefused⟩ := run_eq_error_iff.mp h
  cases hrefused with
  | stray _ => simp
  | block _ hbreaks => exact hbreaks.ne_alreadyInstalled

end Registry

/-! ## How a run can fail -/

/-- All failures of a computation are possible ones. -/
def Fails {σ ε α : Type} (possible : ε → Prop) (x : ExceptT ε (StateM σ) α) : Prop :=
  ∀ s e next, x.run s = (.error e, next) → possible e

section
variable {σ ε ε' α β : Type} {possible : ε → Prop}

theorem fails_bind {x : ExceptT ε (StateM σ) α} {f : α → ExceptT ε (StateM σ) β}
    (hx : Fails possible x) (hf : ∀ a, Fails possible (f a)) : Fails possible (x >>= f) := by
  intro s e last h
  rcases run_bind_eq_error_iff.mp h with hfirst | ⟨a, next, -, hlast⟩
  · exact hx s e last hfirst
  · exact hf a next e last hlast

theorem fails_adapt {x : ExceptT ε' (StateM σ) α} {reword : ε' → ε}
    (hx : Fails (fun e => possible (reword e)) x) : Fails possible (ExceptT.adapt reword x) := by
  intro s e next h
  obtain ⟨e', hx', rfl⟩ := run_adapt_eq_error_iff.mp h
  exact hx s e' next hx'

theorem fails_lift (x : StateM σ α) : Fails possible (ExceptT.lift x : ExceptT ε (StateM σ) α) := by
  intro s e next h
  rw [run_lift] at h
  cases h

theorem fails_of_forall (h : ∀ e, possible e) (x : ExceptT ε (StateM σ) α) : Fails possible x :=
  fun _ e _ _ => h e

end

/-! ## The failures of the steps -/

section
variable {scope : Scope} {named : Bool} {failure : Failure}

theorem not_isInternal_of_reply {line : List UInt8} {events : List Event}
    (h : reply scope named line = (events, .failed failure)) : ¬ failure.IsInternal := by
  unfold reply at h
  split at h
  · cases h
    exact id
  · dsimp only at h
    split at h
    · cases h
    · split at h
      · cases h
      · cases h
      · cases h
        exact id

theorem not_isInternal_of_selectOnto {shown : String} {events : List Event}
    {lines : List (List UInt8)}
    (h : (selectOnto scope named shown events lines).result = .error failure) :
    ¬ failure.IsInternal := by
  induction lines generalizing shown events with
  | nil =>
      cases h
      exact id
  | cons line rest ih =>
      rw [selectOnto] at h
      split at h
      · exact ih h
      · cases h
      · next hreply =>
          cases h
          exact not_isInternal_of_reply hreply

end

section
variable {σ : Type} [FileSystem (StateM σ)] [Reporting (StateM σ)]

theorem fails_loadRegistryFiles (registry : Registry) (files : List String) :
    Fails (fun refusal => refusal.error ≠ .alreadyInstalled)
      (loadRegistryFiles registry files : ExceptT Registry.Refusal (StateM σ) Registry) := by
  induction files generalizing registry with
  | nil =>
      intro s e next h
      cases h
  | cons file files ih =>
      refine fails_bind (fails_bind ?_ fun content => ?_) ih
      · exact fails_adapt (fails_of_forall (fun _ => by simp) _)
      · intro s refusal next h
        rw [run_perform] at h
        exact Registry.ne_alreadyInstalled_of_parse (Prod.mk.inj h).1

theorem fails_showMapping [Terminal (StateM σ)] (path : Path) :
    Fails (¬ ·.IsInternal) (showMapping path : ExceptT Failure (StateM σ) Unit) := by
  refine fails_bind (fails_adapt (fails_of_forall (fun _ => id) _)) fun mapping => ?_
  exact fails_bind (fails_lift _) fun _ => fails_lift _

end

section
variable {σ : Type} [Reporting (StateM σ)] {choose : Chooser (StateM σ)} (hasks : choose.Asks)
include hasks

theorem fails_compileTarget (options : Options) (scope : Scope) :
    Fails (¬ ·.IsInternal) (compileTarget choose options scope) := by
  unfold compileTarget
  split
  · refine fails_bind (fails_adapt (fails_of_forall (fun _ => id) _)) fun mapping => ?_
    intro s e next h
    cases h
  · intro s failure next h
    rcases hasks scope options.debugNames s with ⟨lines, hlines⟩ | ⟨e, hread⟩
    · rw [h] at hlines
      exact not_isInternal_of_selectOnto hlines.symm
    · rw [h] at hread
      cases hread
      exact id

variable [FileSystem (StateM σ)] [Terminal (StateM σ)]

theorem fails_emit (options : Options) (first : Path) (scope : Scope) :
    Fails (¬ ·.IsInternal) (emit choose options first scope) := by
  refine fails_bind (fails_lift _) fun start => ?_
  refine fails_bind (fails_compileTarget hasks options scope) fun ⟨target, mapping⟩ => ?_
  refine fails_bind (fails_lift _) fun now => fails_bind (fails_lift _) fun _ => ?_
  refine fails_bind (fails_lift _) fun path => fails_bind ?_ fun _ => fails_lift _
  exact fails_adapt (fails_of_forall (fun _ => id) _)

theorem fails_compileRun (options : Options) (first : String) (rest : List String) :
    Fails (¬ ·.IsInternal) (compileRun choose options first rest) := by
  refine fails_bind (fails_adapt ?_) fun registry => ?_
  · intro s refusal next h
    exact Failure.not_isInternal_registry (fails_loadRegistryFiles _ _ s refusal next h)
  refine fails_bind (fails_adapt (fails_of_forall (fun _ => id) _)) fun structs => ?_
  split
  · exact fails_lift _
  · exact fails_emit hasks options _ _

end

/-- Accepted options never lead to an error in the program itself.

A run of options that are accepted shows a mapping, or it is the run without slot and checks: the
registry that a target is compiled with, whether it is given or asked for, is the one that has been
read.  That registry holds the primitives that need no declaration and those that the registry files
declare, and nothing else.  Wherever the run takes place, if it fails, its failure is not worded like
one of the two checks. -/
theorem run_without_internal_errors {arguments : List String} {options : Options}
    (haccepted : CommandLine.parse arguments = some options) :
    (∀ (m : Type → Type) [Monad m] [LawfulMonad m] [FileSystem m] [Reporting m] [Terminal m]
      (choose : Chooser m),
      (∃ path, options.view = some path ∧ options.schemas = none ∧
        run choose {} options = showMapping ⟨path⟩) ∨
      ∃ first rest, options.view = none ∧ options.schemas = some (first :: rest) ∧
        run choose {} options = compileRun choose options first rest) ∧
    (∀ (σ : Type) [FileSystem (StateM σ)] [Reporting (StateM σ)] (s next : σ) (registry : Registry),
      (loadRegistryFiles .builtin (options.primitives.getD []) :
        ExceptT Registry.Refusal (StateM σ) Registry).run s = (.ok registry, next) →
      ∃ declared, Registry.Declared σ (options.primitives.getD []) declared ∧
        registry.primitives = declared.reverse ++ Registry.builtin.primitives ∧
        ∀ name, registry.get? name =
          (declared.find? (·.name == name)).or (Registry.builtin.get? name)) ∧
    ∀ (σ : Type) [FileSystem (StateM σ)] [Reporting (StateM σ)] [Terminal (StateM σ)]
      (choose : Chooser (StateM σ)), choose.Asks → ∀ s failure next,
        (run choose {} options).run s = (.error failure, next) →
          failure.message ≠ "--schema needs at least one file" ∧
          failure.message ≠ "Primitive registry was already initialized" := by
  have hmode := CommandLine.exists_mode_of_parse haccepted
  refine ⟨?_, ?_, ?_⟩
  · intro m _ _ _ _ _ choose
    rcases hmode with ⟨path, hview, hschemas⟩ | ⟨first, rest, hview, hschemas⟩
    · refine .inl ⟨path, hview, hschemas, ?_⟩
      unfold run
      rw [hview]
    · exact .inr ⟨first, rest, hview, hschemas, run_eq_of_schemas choose hview hschemas⟩
  · intro σ _ _ s next registry h
    obtain ⟨declared, hdeclared, hfresh, rfl⟩ := Registry.exists_declared_of_loadRegistryFiles h
    exact ⟨declared, hdeclared, Registry.primitives_extend,
      Registry.get?_extend (Registry.fresh_iff.mp hfresh).1⟩
  · intro σ _ _ _ choose hasks s failure next h
    have hexternal : ¬ failure.IsInternal := by
      rcases hmode with ⟨path, hview, -⟩ | ⟨first, rest, hview, hschemas⟩
      · have hrun : run choose {} options = showMapping ⟨path⟩ := by
          unfold run
          rw [hview]
        rw [hrun] at h
        exact fails_showMapping ⟨path⟩ s failure next h
      · rw [run_eq_of_schemas choose hview hschemas] at h
        exact fails_compileRun hasks options first rest s failure next h
    have hwording := Failure.message_not_mem_internalTexts hexternal
    rw [internalTexts, List.mem_cons, List.mem_singleton, not_or] at hwording
    exact hwording

namespace World

/-- A schema without structs, a registry file, and nobody who answers. -/
def unitsWorld : World where
  tree := { entries := [(["gauge.mrtype"], .inode 0 (.file [])),
    (["units"], .inode 1 (.file (Text.Utf8.encode Registry.halvesContent)))] }

/-- What two files are named by. -/
def unitsOptions : Options where
  schemas := some ["gauge"]
  primitives := some ["units"]

/-- The registry holds one primitive more when the target is asked for, and the run ends because
nobody chooses one. -/
theorem unitsWorld_asked :
    CommandLine.parse ["--schema", "gauge", "-punits"] = some unitsOptions ∧
    (∃ next declared, (loadRegistryFiles .builtin ["units"] :
        ExceptT Registry.Refusal (StateM World) Registry).run unitsWorld =
          (.ok (Registry.builtin.add ⟨"vec2h", 4⟩), next) ∧
      Registry.Declared World ["units"] declared ∧
      (Registry.builtin.add ⟨"vec2h", 4⟩).primitives =
        declared.reverse ++ Registry.builtin.primitives) ∧
    ∃ next, (run choose {} unitsOptions).run unitsWorld = (.error .noStructSelected, next) ∧
      Failure.message .noStructSelected ≠ "--schema needs at least one file" ∧
      Failure.message .noStructSelected ≠ "Primitive registry was already initialized" := by
  have hparse : CommandLine.parse ["--schema", "gauge", "-punits"] = some unitsOptions := by
    decide +kernel
  obtain ⟨-, hregistry, hfails⟩ := run_without_internal_errors hparse
  have hload : ((loadRegistryFiles .builtin ["units"] :
      ExceptT Registry.Refusal (StateM World) Registry).run unitsWorld).1 =
        .ok (Registry.builtin.add ⟨"vec2h", 4⟩) := by
    decide +kernel
  have hrun : ((run choose {} unitsOptions).run unitsWorld).1 = .error .noStructSelected := by
    decide +kernel
  refine ⟨hparse, ?_, ?_⟩
  · obtain ⟨declared, hdeclared, hprimitives, -⟩ :=
      hregistry World unitsWorld _ _ (Prod.ext hload rfl)
    exact ⟨_, declared, Prod.ext hload rfl, hdeclared, hprimitives⟩
  · have hended := Prod.ext hrun rfl
    exact ⟨_, hended, hfails World choose choose_asks unitsWorld _ _ hended⟩

end World

end FieldMap
