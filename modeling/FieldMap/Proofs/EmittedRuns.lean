import FieldMap.Proofs.ChosenTargets
import FieldMap.Proofs.SeenFiles
import FieldMap.Proofs.UnsavedRuns

/-!
# Runs that emit a mapping

A process that succeeds, and neither lists structs nor shows a mapping, has taken each step of a
compilation with success.  `Emission` keeps what the steps came to, so that what is proved about such
a process does not take the run apart again:

* the registry and the structs that it loaded;
* the target, which may have been asked for, and its mapping, which is what the compilation of the
  target comes to in either case (`Emission.compile_eq`);
* the path of the mapping, its bytes, and what they did to the disk;
* the line that it printed at the end.

`exists_emission_of_execute` is the inversion of a run of this kind.  It holds on all machines whose
output can be seen (`ShowingMachine`), and on which files look the same as long as nothing is done to
them.
-/

namespace FieldMap

/-- The path that a mapping goes to. -/
def FileView.outputPath (view : FileView) (options : Options) (first : Path) : Path :=
  match options.output with
  | some path => ⟨path⟩
  | none => defaultOutput (view.schemaPath first)

/-- A machine with files whose output can be seen.  What is printed goes to the end of the output, and
what can be seen of the files stays the same while the machine only looks at them. -/
class ShowingMachine (σ : Type) [FileSystem (StateM σ)] [Reporting (StateM σ)]
    [Terminal (StateM σ)] extends FileMachine σ, ReadingMachine σ where
  looking_view : Looking view
  /-- The standard output so far. -/
  output : σ → String
  read_output (path : Path) (s : σ) :
    output ((FileSystem.read path : ExceptT OsError (StateM σ) (List UInt8)).run s).2 = output s
  report_output (events : List Event) (s : σ) :
    output ((Reporting.report events : StateM σ Unit) s).2 = output s
  complain_output (text : String) (s : σ) :
    output ((Terminal.complain text : StateM σ Unit) s).2 = output s
  clock_output (s : σ) : output ((Terminal.clock : StateM σ Nat) s).2 = output s
  print_output (text : String) (s : σ) :
    output ((Terminal.print text : StateM σ Unit) s).2 = output s ++ text

instance : ShowingMachine World where
  looking_view := ⟨fun _ _ => rfl, fun _ _ => rfl, fun _ _ => rfl, fun _ _ => rfl, fun _ _ => rfl,
    fun _ _ => rfl, fun _ => rfl⟩
  output := World.output
  read_output _ _ := rfl
  report_output _ _ := rfl
  complain_output _ _ := rfl
  clock_output _ := rfl
  print_output _ _ := rfl

namespace ShowingMachine

open FileMachine ReadingMachine

section
variable {σ : Type} [FileSystem (StateM σ)] [Reporting (StateM σ)] [Terminal (StateM σ)]
  [ShowingMachine σ] {choose : Chooser (StateM σ)} {options : Options} {s next last : σ}

/-- The disk of a machine, and what can be seen of it. -/
def files (s : σ) : Disk × FileView :=
  (disk s, view s)

theorem looking_files : Looking (files : σ → Disk × FileView) where
  isPresent path s := Prod.ext (looking.isPresent path s) (looking_view.isPresent path s)
  isDirectory path s := Prod.ext (looking.isDirectory path s) (looking_view.isDirectory path s)
  read path s := Prod.ext (looking.read path s) (looking_view.read path s)
  report events s := Prod.ext (looking.report events s) (looking_view.report events s)
  print text s := Prod.ext (looking.print text s) (looking_view.print text s)
  complain text s := Prod.ext (looking.complain text s) (looking_view.complain text s)
  clock s := Prod.ext (looking.clock s) (looking_view.clock s)

/-- The files of a machine and its output. -/
def seen (s : σ) : (Disk × FileView) × String :=
  (files s, output s)

theorem seen_clock (s : σ) : seen ((Terminal.clock : StateM σ Nat) s).2 = seen s :=
  Prod.ext (looking_files.clock s) (clock_output s)

theorem seen_report (events : List Event) (s : σ) :
    seen ((Reporting.report events : StateM σ Unit) s).2 = seen s :=
  Prod.ext (looking_files.report events s) (report_output events s)

theorem seen_complain (text : String) (s : σ) :
    seen ((Terminal.complain text : StateM σ Unit) s).2 = seen s :=
  Prod.ext (looking_files.complain text s) (complain_output text s)

theorem outputPath_eq (options : Options) (first : Path) (s : σ) :
    ((outputPath options first : StateM σ Path) s).1 = (view s).outputPath options first := by
  unfold outputPath FileView.outputPath
  cases options.output with
  | some path => rfl
  | none =>
      obtain ⟨next, hpath, -⟩ := run_resolveSchemaPath first s
      rw [run_lift] at hpath
      have hresolved : ((resolveSchemaPath first : StateM σ Path) s).1 =
          (view s).schemaPath first := Except.ok.inj (congrArg Prod.fst hpath)
      exact congrArg defaultOutput hresolved

/-- A process that emits a mapping: what it reads, compiles and writes, one step after another. -/
structure Emission (choose : Chooser (StateM σ)) (options : Options) (s last : σ) where
  first : String
  rest : List String
  schemas_eq : options.schemas = some (first :: rest)
  registry : Registry
  registered : σ
  run_registry : (loadRegistryFiles .builtin (options.primitives.getD []) :
    ExceptT Registry.Refusal (StateM σ) Registry).run ((Terminal.clock : StateM σ Nat) s).2 =
      (.ok registry, registered)
  structs : List Struct
  loaded : σ
  run_schemas : (loadSchemas ((first :: rest).map Path.mk) :
    ExceptT LoadError (StateM σ) (List Struct)).run registered = (.ok structs, loaded)
  target : String
  mapping : Mapping
  compiled : σ
  run_compile : (compileTarget choose options ⟨registry, structs⟩).run
    ((Terminal.clock : StateM σ Nat) loaded).2 = (.ok (target, mapping), compiled)
  path : Path
  path_eq : (view s).outputPath options ⟨first⟩ = path
  bytes : List UInt8
  encode_eq : Artifact.encode mapping options.debugNames = .ok bytes
  replaced : Disk.Replaced path bytes (disk s) (disk last)
  shown : String
  output_eq : output last = shown ++
    (s!"Emitted mapping for {target} -> {path.text} " ++
      s!"({mapping.sizes.length} sizes, {mapping.properties.length} properties)\n")

theorem Emission.files_registered (e : Emission choose options s last) :
    files e.registered = files s :=
  ((keeps_loadRegistryFiles looking_files _ _).of_run e.run_registry).trans
    (looking_files.clock s)

theorem Emission.compile_eq (e : Emission choose options s last) (hasks : choose.Asks) :
    (compile ⟨e.registry, e.structs⟩ e.target options.debugNames).result = .ok e.mapping :=
  compile_of_compileTarget hasks e.run_compile

/-- What the steps of a run after the loading come to when all of them succeed. -/
theorem exists_of_run_emit (hchoose : ∀ scope named, Keeps files (choose scope named))
    {first : Path} {scope : Scope} {path : Path}
    (hpath : (view s).outputPath options first = path)
    (h : (emit choose options first scope).run s = (.ok (), next)) :
    ∃ target mapping compiled bytes shown,
      (compileTarget choose options scope).run ((Terminal.clock : StateM σ Nat) s).2 =
          (.ok (target, mapping), compiled) ∧
        Artifact.encode mapping options.debugNames = .ok bytes ∧
        Disk.Replaced path bytes (disk s) (disk next) ∧
        output next = shown ++
          (s!"Emitted mapping for {target} -> {path.text} " ++
            s!"({mapping.sizes.length} sizes, {mapping.properties.length} properties)\n") := by
  unfold emit at h
  obtain ⟨_, _, ⟨⟩, hcompiling⟩ := run_bind_eq_ok_iff.mp h
  obtain ⟨⟨target, mapping⟩, compiled, hcompile, hstopping⟩ := run_bind_eq_ok_iff.mp hcompiling
  obtain ⟨stop, stopped, hstop, hreporting⟩ := run_bind_eq_ok_iff.mp hstopping
  obtain ⟨_, reported, hreport, hasking⟩ := run_bind_eq_ok_iff.mp hreporting
  obtain ⟨found, asked, hask, hsaving⟩ := run_bind_eq_ok_iff.mp hasking
  obtain ⟨_, saved, hsave, hprint⟩ := run_bind_eq_ok_iff.mp hsaving
  -- Nothing is done to the files before the save, so its path is the one that could be told at first.
  have hfiles : files reported = files s := calc
    files reported = files stopped := (keeps_lift (looking_files.report _)).of_run hreport
    _ = files compiled := (keeps_lift looking_files.clock).of_run hstop
    _ = files ((Terminal.clock : StateM σ Nat) s).2 :=
      (keeps_compileTarget looking_files hchoose options scope).of_run hcompile
    _ = files s := looking_files.clock s
  have hview : view reported = view s := congrArg Prod.snd hfiles
  have hdisk : disk asked = disk s :=
    ((keeps_lift (look_outputPath looking options first)).of_run hask).trans
      (congrArg Prod.fst hfiles)
  have hfound := outputPath_eq options first reported
  rw [run_lift] at hask
  cases hask
  rw [hfound, hview, hpath] at hsave hprint
  obtain ⟨bytes, hbytes, hreplaced⟩ :=
    (ends_saveMapping mapping path options.debugNames (disk s)).ok _ () saved hdisk
      (run_adapt_eq_ok_iff.mp hsave)
  have hlast := (keeps_lift (looking.print _)).of_run hprint
  have houtput := print_output (s!"Emitted mapping for {target} -> {path.text} " ++
    s!"({mapping.sizes.length} sizes, {mapping.properties.length} properties)\n") saved
  rw [run_lift] at hprint
  cases hprint
  exact ⟨target, mapping, compiled, bytes, output saved, hcompile, hbytes,
    hlast.symm ▸ hreplaced, houtput⟩

/-- A run that compiles and writes is an emission. -/
theorem exists_emission_of_execute (hchoose : ∀ scope named, Keeps files (choose scope named))
    (hview : options.view = none) (hlist : options.list = false)
    (h : execute choose options s = (0, last)) : Nonempty (Emission choose options s last) := by
  obtain ⟨outcome, next, hrun, hlast, hcode⟩ :=
    exists_run_of_execute seen_clock seen_report seen_complain h
  obtain rfl := hcode.mp rfl
  unfold run at hrun
  rw [hview, hlist] at hrun
  -- The slot of a process is empty, and so the registry that has been read is put there.
  obtain ⟨registry, registered, hregistry, hslots⟩ := run_bind_eq_ok_iff.mp hrun
  obtain ⟨slot, slotted, hslot, hschemas⟩ := run_bind_eq_ok_iff.mp hslots
  obtain ⟨⟨⟩, rfl⟩ := run_mk_pure_eq_ok_iff.mp (run_adapt_eq_ok_iff.mp hslot)
  cases hnames : options.schemas with
  | none =>
      rw [hnames] at hschemas
      cases hschemas
  | some names =>
      rw [hnames] at hschemas
      cases names with
      | nil => cases hschemas
      | cons first rest =>
          obtain ⟨structs, loaded, hload, hemit⟩ := run_bind_eq_ok_iff.mp hschemas
          simp only [Bool.false_eq_true, if_false] at hemit
          rw [run_adapt_eq_ok_iff] at hregistry hload
          have hloaded : files loaded = files s := calc
            files loaded = files slotted := (keeps_loadSchemasFrom looking_files _ _ _).of_run hload
            _ = files ((Terminal.clock : StateM σ Nat) s).2 :=
              (keeps_loadRegistryFiles looking_files _ _).of_run hregistry
            _ = files s := looking_files.clock s
          have hdisk : disk loaded = disk s := congrArg Prod.fst hloaded
          have hseen : view loaded = view s := congrArg Prod.snd hloaded
          obtain ⟨target, mapping, compiled, bytes, shown, hcompile, hbytes, hreplaced,
            houtput⟩ := exists_of_run_emit hchoose rfl hemit
          have hafter : disk last = disk next := congrArg (fun seen => seen.1.1) hlast
          rw [hseen] at houtput
          rw [hseen, hdisk, ← hafter] at hreplaced
          exact ⟨
            { first, rest, schemas_eq := hnames
              registry, registered := slotted, run_registry := hregistry
              structs, loaded, run_schemas := hload
              target, mapping, compiled, run_compile := hcompile
              path := _, path_eq := rfl, bytes, encode_eq := hbytes
              replaced := hreplaced, shown
              output_eq := (congrArg Prod.snd hlast).trans houtput }⟩

end

end ShowingMachine

end FieldMap
