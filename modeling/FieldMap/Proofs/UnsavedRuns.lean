import FieldMap.Proofs.SavedFiles

/-!
# Runs that save nothing

Up to the moment when it saves a mapping a run only looks at files.  On any machine with files,
and whatever it refuses:

* a run that lists structs or shows a mapping leaves the disk as it is, in success and failure;
* a run that fails leaves the disk as it is or fails in its save, and then all files are spared but
  the one that the temporary path of its output leads to.

This file need not be the temporary one: a link at the temporary path is followed when the path is
written to, and the file that it leads to is overwritten, as `linkedWorld_notes_lost` shows.
-/

namespace FieldMap

/-! ## Looking at files -/

section
variable {σ τ ε α : Type} [FileSystem (StateM σ)] [Reporting (StateM σ)] [Terminal (StateM σ)]
  {look : σ → τ} (hlook : Looking look)
include hlook

theorem keeps_readText (path : Path) :
    Keeps look (readText path : ExceptT TextError (StateM σ) String) := by
  have hread : Keeps look (FileSystem.read path : ExceptT OsError (StateM σ) (List UInt8)) :=
    hlook.read path
  refine Keeps.bind (hread.adapt _) fun bytes => ?_
  split
  · exact keeps_pure _
  · exact keeps_throw _

theorem look_resolveSchemaPath (path : Path) (s : σ) :
    look ((resolveSchemaPath path : StateM σ Path) s).2 = look s := by
  have hkeeps := hlook.isPresent path s
  rcases hpresent : (FileSystem.isPresent path : StateM σ Bool) s with ⟨present, next⟩
  rw [hpresent] at hkeeps
  rw [resolveSchemaPath, bind_of_eq hpresent]
  cases present with
  | true => exact hkeeps
  | false =>
      rw [if_neg Bool.false_ne_true]
      by_cases hext : path.extension? = some schemaExtension
      · rw [if_pos hext]
        exact hkeeps
      · rw [if_neg hext]
        exact hkeeps

theorem look_outputPath (options : Options) (first : Path) (s : σ) :
    look ((outputPath options first : StateM σ Path) s).2 = look s := by
  unfold outputPath
  cases options.output with
  | some path => rfl
  | none => exact look_resolveSchemaPath hlook first s

theorem keeps_loadRegistryFile (registry : Registry) (file : String) :
    Keeps look (loadRegistryFile registry file :
      ExceptT Registry.Refusal (StateM σ) Registry) :=
  Keeps.bind ((keeps_readText hlook ⟨file⟩).adapt _) fun _ => keeps_perform hlook.report _

theorem keeps_loadRegistryFiles (registry : Registry) (files : List String) :
    Keeps look (loadRegistryFiles registry files :
      ExceptT Registry.Refusal (StateM σ) Registry) := by
  induction files generalizing registry with
  | nil => exact keeps_pure registry
  | cons file files ih =>
      exact Keeps.bind (keeps_loadRegistryFile hlook registry file) fun next => ih next

theorem keeps_loadSchemasFrom (seen : List Path) (known : List (Struct × Path))
    (paths : List Path) :
    Keeps look (loadSchemasFrom seen known paths :
      ExceptT LoadError (StateM σ) (List Struct)) := by
  induction paths generalizing seen known with
  | nil => exact keeps_pure _
  | cons given rest ih =>
      refine Keeps.bind (keeps_lift (look_resolveSchemaPath hlook given)) fun path => ?_
      split
      · exact Keeps.bind (keeps_lift (hlook.report _)) fun _ => ih seen known
      · refine Keeps.bind ((keeps_readText hlook path).adapt _) fun source => ?_
        refine Keeps.bind ((keeps_perform hlook.report _).adapt _) fun structs => ?_
        refine Keeps.bind (keeps_lift (hlook.report _)) fun _ => ?_
        exact Keeps.bind (keeps_mk_pure _) fun known => ih (path :: seen) known

theorem keeps_showMapping (path : Path) :
    Keeps look (showMapping path : ExceptT Failure (StateM σ) Unit) := by
  have hread : Keeps look (FileSystem.read path : ExceptT OsError (StateM σ) (List UInt8)) :=
    hlook.read path
  have hload : Keeps look (loadMapping path : ExceptT ReadError (StateM σ) Mapping) :=
    Keeps.bind (hread.adapt _) fun _ =>
      Keeps.bind (keeps_lift (hlook.report _)) fun _ => (keeps_mk_pure _).adapt _
  exact Keeps.bind (hload.adapt _) fun _ =>
    Keeps.bind (keeps_lift (hlook.print _)) fun _ => keeps_lift (hlook.print _)

theorem keeps_compileTarget {choose : Chooser (StateM σ)}
    (hchoose : ∀ scope named, Keeps look (choose scope named)) (options : Options)
    (scope : Scope) : Keeps look (compileTarget choose options scope) := by
  unfold compileTarget
  split
  · exact Keeps.bind ((keeps_perform hlook.report _).adapt _) fun _ => keeps_pure _
  · exact hchoose scope _

end

namespace FileMachine

open Disk

section
variable {σ : Type} [FileSystem (StateM σ)] [Reporting (StateM σ)] [Terminal (StateM σ)]
  [FileMachine σ] {choose : Chooser (StateM σ)} {options : Options}

/-! ## The run -/

/-- What a run that saves nothing may leave: the disk as it was, or one on which all files are
spared but the one that the temporary path of its output leads to. -/
def Unsaved (options : Options) (before : Disk) (next : σ) : Prop :=
  disk next = before ∨ ∃ first rest, options.schemas = some (first :: rest) ∧
    ∃ asked : σ, disk asked = before ∧
      Spared ((outputPath options ⟨first⟩ : StateM σ Path) asked).1 before (disk next)

theorem ends_emit (hchoose : ∀ scope named, Keeps disk (choose scope named))
    {first : String} {rest : List String} (hschemas : options.schemas = some (first :: rest))
    (scope : Scope) (before : Disk) :
    Ends (fun s => disk s = before) (emit choose options ⟨first⟩ scope) (fun _ _ => True)
      (Unsaved options before) := by
  have hsame (s : σ) (hs : disk s = before) : Unsaved options before s := .inl hs
  have hsave (mapping : Mapping) (path : Path) :=
    (ends_saveMapping (σ := σ) mapping path options.debugNames before).adapt (Failure.save path)
  unfold emit
  refine (keeps_lift looking.clock).bind_ends (· = before) hsame fun start => ?_
  refine (keeps_compileTarget looking hchoose options scope).bind_ends (· = before) hsame
    fun ⟨target, mapping⟩ => ?_
  refine (keeps_lift looking.clock).bind_ends (· = before) hsame fun now => ?_
  refine (keeps_lift (looking.report _)).bind_ends (· = before) hsame fun _ => ?_
  refine (ends_lift _).bind fun path => ?_
  have hpath (s : σ) (hs : ∃ asked, disk asked = before ∧
      (outputPath options ⟨first⟩ : StateM σ Path) asked = (path, s)) :
      disk s = before ∧ ∃ asked : σ, disk asked = before ∧
        ((outputPath options ⟨first⟩ : StateM σ Path) asked).1 = path := by
    obtain ⟨asked, hasked, hrun⟩ := hs
    have hkeeps := look_outputPath looking options ⟨first⟩ asked
    rw [hrun] at hkeeps
    exact ⟨hkeeps.trans hasked, asked, hasked, by rw [hrun]⟩
  refine (ends_assuming fun ⟨asked, hasked, hpath⟩ => ?_).weaken hpath (fun _ _ h => h)
    fun _ h => h
  have hspared (s : σ) (hs : Abandoned path before s) : Unsaved options before s :=
    .inr ⟨first, rest, hschemas, asked, hasked, hpath ▸ hs.spared⟩
  refine ((hsave mapping path).weaken (fun _ h => h) (fun _ _ h => h) hspared).bind fun _ => ?_
  exact (ends_lift _).weaken (fun _ h => h) (fun _ _ _ => trivial) fun _ h => h

/-- All that a run does before it lists or compiles keeps the disk. -/
theorem ends_run {slot : RegistrySlot} (held : Disk → Prop) {bad : σ → Prop}
    {last : Unit → σ → Prop} (hbad : ∀ s, held (disk s) → bad s)
    (hview : ∀ path, Ends (fun s => held (disk s))
      (showMapping path : ExceptT Failure (StateM σ) Unit) last bad)
    (hlist : ∀ structs, options.list = true →
      Ends (fun s => held (disk s)) (ExceptT.lift (Terminal.print (Schema.listing structs)) :
        ExceptT Failure (StateM σ) Unit) last bad)
    (hemit : ∀ first rest scope, options.schemas = some (first :: rest) →
      options.view = none → options.list = false →
        Ends (fun s => held (disk s)) (emit choose options ⟨first⟩ scope) last bad) :
    Ends (fun s => held (disk s)) (run choose slot options) last bad := by
  have hnone : Ends (fun s => held (disk s))
      (throw Failure.noSchema : ExceptT Failure (StateM σ) Unit) last bad :=
    (ends_throw _).weaken (fun _ h => h) (fun _ _ h => h) hbad
  unfold run
  cases hoption : options.view with
  | some path => exact hview ⟨path⟩
  | none =>
      refine ((keeps_loadRegistryFiles looking _ _).adapt _).bind_ends held hbad
        fun registry => ?_
      refine ((keeps_mk_pure _).adapt _).bind_ends held hbad fun slot => ?_
      cases hschemas : options.schemas with
      | none => exact hnone
      | some names =>
          cases names with
          | nil => exact hnone
          | cons first rest =>
              refine ((keeps_loadSchemasFrom looking [] [] _).adapt _).bind_ends held hbad
                fun structs => ?_
              cases hlisted : options.list with
              | true => exact hlist structs hlisted
              | false => exact hemit first rest _ hschemas hoption hlisted

/-- A run that lists structs or shows a mapping keeps the disk. -/
theorem ends_run_of_looking {slot : RegistrySlot} (held : Disk → Prop)
    (hlooking : options.list = true ∨ options.view.isSome = true) :
    Ends (fun s => held (disk s)) (run choose slot options) (fun _ s => held (disk s))
      fun s => held (disk s) := by
  refine ends_run held (fun _ h => h) (fun path => (keeps_showMapping looking path).ends held)
    (fun _ _ => (keeps_lift (looking.print _)).ends held) ?_
  intro first rest scope _ hview hlist
  rcases hlooking with hlisted | hviewed
  · rw [hlist] at hlisted
    cases hlisted
  · rw [hview] at hviewed
    cases hviewed

theorem ends_run_unsaved {slot : RegistrySlot}
    (hchoose : ∀ scope named, Keeps disk (choose scope named)) (before : Disk) :
    Ends (fun s => disk s = before) (run choose slot options) (fun _ _ => True)
      (Unsaved options before) := by
  have hsame (s : σ) (hs : disk s = before) : Unsaved options before s := .inl hs
  refine ends_run (· = before) hsame (fun path => ?_) (fun structs _ => ?_) ?_
  · exact ((keeps_showMapping looking path).ends (· = before)).weaken (fun _ h => h)
      (fun _ _ _ => trivial) hsame
  · exact ((keeps_lift (looking.print _)).ends (· = before)).weaken (fun _ h => h)
      (fun _ _ _ => trivial) hsame
  · intro first rest scope hschemas _ _
    exact ends_emit hchoose hschemas scope before

end

end FileMachine

/-! ## The process -/

section
variable {σ τ : Type} [Reporting (StateM σ)] [Terminal (StateM σ)] {look : σ → τ}
  {choose : Chooser (StateM σ)} {options : Options} {s next last : σ} {code : UInt32}
  (hclock : ∀ s, look ((Terminal.clock : StateM σ Nat) s).2 = look s)
  (hreport : ∀ events s, look ((Reporting.report events : StateM σ Unit) s).2 = look s)
include hclock hreport

/-- The end of a process, whatever its code. -/
theorem exists_run_finish (start : Nat) (code : UInt32) (s : σ) :
    ∃ last, (do
      let now ← Terminal.clock
      Reporting.report [.runFinished (now - start)]
      pure code : StateM σ UInt32) s = (code, last) ∧ look last = look s := by
  have hhere := hclock s
  rcases htime : (Terminal.clock : StateM σ Nat) s with ⟨now, here⟩
  rw [htime] at hhere
  have hlast := hreport [.runFinished (now - start)] here
  rcases htold : (Reporting.report [.runFinished (now - start)] : StateM σ Unit) here with
    ⟨⟨⟩, last⟩
  rw [htold] at hlast
  refine ⟨last, ?_, hlast.trans hhere⟩
  rw [bind_of_eq htime, bind_of_eq htold]
  rfl

variable [FileSystem (StateM σ)]

/-- A process whose run succeeds has the code of success. -/
theorem exists_execute_of_run
    (h : (run choose {} options).run ((Terminal.clock : StateM σ Nat) s).2 = (.ok (), next)) :
    ∃ last, execute choose options s = (0, last) ∧ look last = look next := by
  rcases htime : (Terminal.clock : StateM σ Nat) s with ⟨time, start⟩
  rw [htime] at h
  obtain ⟨last, hfinish, hlast⟩ := exists_run_finish hclock hreport time 0 next
  refine ⟨last, ?_, hlast⟩
  unfold execute
  rw [bind_of_eq htime, bind_of_eq h]
  exact hfinish

/-- A process looks at the clock before its run and after it and reports at its end.  Its code is that
of success when its run has succeeded. -/
theorem exists_run_of_execute
    (hcomplain : ∀ text s, look ((Terminal.complain text : StateM σ Unit) s).2 = look s)
    (h : execute choose options s = (code, last)) :
    ∃ outcome next,
      (run choose {} options).run ((Terminal.clock : StateM σ Nat) s).2 = (outcome, next) ∧
        look last = look next ∧ (code = 0 ↔ outcome = .ok ()) := by
  unfold execute at h
  rcases htime : (Terminal.clock : StateM σ Nat) s with ⟨time, start⟩
  rcases hrun : (run choose {} options).run start with ⟨outcome, next⟩
  rw [bind_of_eq htime, bind_of_eq hrun] at h
  refine ⟨outcome, next, rfl, ?_⟩
  cases outcome with
  | ok value =>
      obtain ⟨final, hfinish, hfinal⟩ := exists_run_finish hclock hreport time 0 next
      cases hfinish.symm.trans h
      exact ⟨hfinal, by simp⟩
  | error failure =>
      have htold := hcomplain s!"Error: {failure.message}" next
      rcases hsaid : (Terminal.complain s!"Error: {failure.message}" : StateM σ Unit) next with
        ⟨⟨⟩, told⟩
      rw [hsaid] at htold
      obtain ⟨final, hfinish, hfinal⟩ := exists_run_finish hclock hreport time 1 told
      cases hfinish.symm.trans ((bind_of_eq hsaid).symm.trans h)
      exact ⟨hfinal.trans htold, by simp⟩

end

namespace FileMachine

open Disk

/-- A process that lists structs or shows a mapping keeps the disk.  One that fails keeps it or spares
all files but the one that the temporary path of its output leads to: besides that file, under all its
names, and the temporary path's own entry, nothing is new or has gone but directories that were
missing on the way along the output path, and no file has changed. -/
theorem execute_spares {σ : Type} [FileSystem (StateM σ)] [Reporting (StateM σ)]
    [Terminal (StateM σ)] [FileMachine σ] {choose : Chooser (StateM σ)} {options : Options}
    {s last : σ} {code : UInt32} (hchoose : ∀ scope named, Keeps disk (choose scope named))
    (h : execute choose options s = (code, last)) :
    (options.list = true ∨ options.view.isSome = true → disk last = disk s) ∧
      (code ≠ 0 → disk last = disk s ∨ ∃ first rest, options.schemas = some (first :: rest) ∧
        ∃ asked : σ, disk asked = disk s ∧
          Spared ((outputPath options ⟨first⟩ : StateM σ Path) asked).1 (disk s) (disk last)) := by
  obtain ⟨outcome, next, hrun, hlast, hcode⟩ :=
    exists_run_of_execute looking.clock looking.report looking.complain h
  have hstart := looking.clock s
  rw [hlast]
  cases outcome with
  | ok value =>
      refine ⟨fun hlooking => ?_, fun hfailed => absurd (hcode.mpr rfl) hfailed⟩
      exact (ends_run_of_looking (· = disk s) hlooking).ok _ value next hstart hrun
  | error failure =>
      refine ⟨fun hlooking => ?_, fun _ => ?_⟩
      · exact (ends_run_of_looking (· = disk s) hlooking).error _ failure next hstart hrun
      · exact (ends_run_unsaved hchoose (disk s)).error _ failure next hstart hrun

/-! ## A disk that fills up -/

/-- A struct with one member. -/
def gaugeSource : String := "Gauge :: struct \x7b\n level: u8,\n\x7d\n"

/-- The schema file with this struct. -/
def gaugeEntry : Entry := .inode 0 (.file (Text.Utf8.encode gaugeSource))

/-- A disk with one schema, on which a write stops after two bytes and nothing is removed. -/
def fullDisk : FaultyWorld where
  world := { tree := { entries := [(["gauge.mrtype"], gaugeEntry)] } }
  faults :=
    [some ⟨.other 28 "No space left on device", 2⟩, some ⟨.other 5 "Input/output error", 0⟩]

/-- The schema is to be compiled. -/
def gaugeOptions : Options where
  schemas := some ["gauge.mrtype"]
  target := some "Gauge"

/-- The process fails and leaves a temporary file with the two bytes. -/
theorem fullDisk_spared :
    (execute FaultyWorld.choose gaugeOptions fullDisk).1 = 1 ∧
      (disk (execute FaultyWorld.choose gaugeOptions fullDisk).2).bytes? ["gauge.mrmap.tmp"] =
        some [77, 82] ∧
      ∃ asked : FaultyWorld, disk asked = disk fullDisk ∧
        Spared ((outputPath gaugeOptions ⟨"gauge.mrtype"⟩ : StateM FaultyWorld Path) asked).1
          (disk fullDisk) (disk (execute FaultyWorld.choose gaugeOptions fullDisk).2) := by
  have hcode : (execute FaultyWorld.choose gaugeOptions fullDisk).1 = 1 := by decide +kernel
  have hleft : (disk (execute FaultyWorld.choose gaugeOptions fullDisk).2).bytes?
      ["gauge.mrmap.tmp"] = some [77, 82] := by decide +kernel
  have hnone : (disk fullDisk).bytes? ["gauge.mrmap.tmp"] = none := by decide +kernel
  have hfailed : (1 : UInt32) ≠ 0 := by decide
  refine ⟨hcode, hleft, ?_⟩
  rcases hrun : execute FaultyWorld.choose gaugeOptions fullDisk with ⟨code, last⟩
  rw [hrun] at hcode hleft
  obtain rfl : code = 1 := hcode
  rcases (execute_spares (fun _ _ _ => rfl) hrun).2 hfailed with
    hsame | ⟨first, rest, hschemas, asked, hasked, hspared⟩
  · rw [hsame, hnone] at hleft
    cases hleft
  · cases hschemas
    exact ⟨asked, hasked, hspared⟩

/-! ## A link at the temporary path -/

/-- The place of the output is taken by a directory, and there is a link to some notes at the
temporary path. -/
def linkedWorld : World where
  tree :=
    { entries :=
        [(["gauge.mrtype"], gaugeEntry),
         (["out"], .directory),
         (["out", "gauge.mrmap"], .directory),
         (["out", "gauge.mrmap.tmp"], .inode 1 (.link ⟨"notes.txt"⟩)),
         (["out", "notes.txt"], .inode 2 (.file [104, 105]))] }

/-- The mapping is to go to the place that is taken, by a way that goes up. -/
def linkedOptions : Options where
  schemas := some ["gauge.mrtype"]
  target := some "Gauge"
  output := some "new/../out/gauge.mrmap"

/-- The process fails.  The notes have been overwritten, though the temporary path is another one, and
there is a new directory which is not above the place of the output. -/
theorem linkedWorld_notes_lost :
    CommandLine.parse ["-s", "gauge.mrtype", "-t", "Gauge", "-o", "new/../out/gauge.mrmap"] =
        some linkedOptions ∧
      (World.execute linkedOptions linkedWorld).1 = 1 ∧
      temporaryPath ⟨"new/../out/gauge.mrmap"⟩ = ⟨"new/../out/gauge.mrmap.tmp"⟩ ∧
      (disk linkedWorld).Leads false ⟨"new/../out/gauge.mrmap"⟩ ["out", "gauge.mrmap"] ∧
      (disk linkedWorld).Leads false ⟨"new/../out/gauge.mrmap.tmp"⟩ ["out", "gauge.mrmap.tmp"] ∧
      (disk linkedWorld).bytes? ["out", "notes.txt"] = some [104, 105] ∧
      (disk (World.execute linkedOptions linkedWorld).2).bytes? ["out", "notes.txt"] =
        some [77, 82, 77, 80, 1, 0, 1, 0, 1, 1, 0, 0, 0, 0] ∧
      (disk linkedWorld).at? ["new"] = none ∧
      (disk (World.execute linkedOptions linkedWorld).2).at? ["new"] = some .directory := by
  refine ⟨?_, ?_, ?_, ?_, ?_, ?_, ?_, ?_, ?_⟩
  all_goals decide +kernel

end FileMachine
end FieldMap
