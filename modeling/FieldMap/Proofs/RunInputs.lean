import FieldMap.CommandLine
import FieldMap.Proofs.EmittedRuns
import FieldMap.Proofs.MergedSchemas
import FieldMap.Proofs.ReplacedFiles

/-!
# What becomes of the files that a process reads

A process reads registry files and schema files, and when it emits a mapping it replaces the entry at
its output path and writes to the file that the temporary path beside it leads to.  Nothing keeps
these apart from its inputs.  Without an output path of its own a process writes to the path of its
first schema with another extension, so

* all inputs but those two files keep their content, and are read under their paths unless these lead
  through one of the two entries;
* a schema whose extension is that of mapping files is itself replaced by its mapping, as the
  schema of `crossedWorld` is, and a file with a second name at the temporary path is overwritten.

The inputs are all that is named, each as it is found, but schemas only once: one that is left out
is the same as one that is not (`FileView.exists_isSame_of_mem`).
-/

namespace FieldMap

/-- The location is a name of one of the files that a save to the path replaces or overwrites: the
path's own, or the one that its temporary path leads to. -/
def Disk.Overwrites (disk : Disk) (path : Path) (location : Location) : Prop :=
  disk.Leads false path location ∨ disk.Names (temporaryPath path) location

namespace FileView

/-- The paths of all files that a process reads to compile a struct. -/
def inputs (view : FileView) (options : Options) : List Path :=
  (options.primitives.getD []).map Path.mk ++
    view.schemaPaths ((options.schemas.getD []).map Path.mk)

theorem exists_isSame_of_mem {view : FileView} {paths : List Path} {given : Path}
    (h : given ∈ paths) : ∃ input ∈ view.schemaPaths paths,
      (view.schemaPath given).isSame input = true := by
  -- By induction on the paths, with those that have been seen in front of what is still to come.
  have hunseen (path : Path) (seen rest : List Path) (hpath : path ∈ rest) :
      ∃ input ∈ seen ++ Path.unseen seen rest, path.isSame input = true := by
    induction rest generalizing seen with
    | nil => exact absurd hpath List.not_mem_nil
    | cons first rest ih =>
        rw [Path.unseen]
        split
        · next hseen =>
            rcases List.mem_cons.mp hpath with rfl | hrest
            · obtain ⟨input, hinput, hsame⟩ := List.any_eq_true.mp hseen
              exact ⟨input, List.mem_append_left _ hinput, hsame⟩
            · exact ih seen hrest
        · rcases List.mem_cons.mp hpath with rfl | hrest
          · exact ⟨path, List.mem_append_right seen List.mem_cons_self, by simp [Path.isSame]⟩
          · obtain ⟨input, hinput, hsame⟩ := ih (first :: seen) hrest
            exact ⟨input, List.perm_middle.mem_iff.mpr hinput, hsame⟩
  rw [schemaPaths, Path.eraseDupsBy_isSame]
  exact hunseen _ [] _ (List.mem_map_of_mem h)

end FileView

namespace ShowingMachine

open FileMachine ReadingMachine

section
variable {σ : Type} [FileSystem (StateM σ)] [Reporting (StateM σ)] [Terminal (StateM σ)]
  [ShowingMachine σ] {choose : Chooser (StateM σ)} {options : Options} {s next last : σ}

/-! ## What is read can be read -/

theorem exists_read_of_loadRegistryFiles {registry result : Registry} {files : List String}
    (h : (loadRegistryFiles registry files :
      ExceptT Registry.Refusal (StateM σ) Registry).run s = (.ok result, next)) :
    ∀ file ∈ files, ∃ bytes, (view s).read ⟨file⟩ = .ok bytes := by
  induction files generalizing registry s with
  | nil => exact List.forall_mem_nil _
  | cons first rest ih =>
      obtain ⟨extended, registered, hfirst, hrest⟩ := run_bind_eq_ok_iff.mp h
      have hkept : view registered = view s :=
        (keeps_loadRegistryFile looking_view registry first).of_run hfirst
      obtain ⟨content, _, hcontent, -⟩ := run_bind_eq_ok_iff.mp hfirst
      obtain ⟨_, htext, -⟩ := run_readText ⟨first⟩ s
      rw [run_adapt_eq_ok_iff, htext] at hcontent
      have hbehind := ih hrest
      rw [hkept] at hbehind
      exact List.forall_mem_cons.mpr
        ⟨FileView.exists_read_of_text (Prod.mk.inj hcontent).1, hbehind⟩

/-- All files that an emission has read could be read. -/
theorem Emission.exists_read (e : Emission choose options s last) :
    ∀ input ∈ (view s).inputs options, ∃ bytes, (view s).read input = .ok bytes := by
  have hstarted := looking_view.clock s
  have hregistered : view e.registered = view s := congrArg Prod.snd e.files_registered
  have hregistry := exists_read_of_loadRegistryFiles e.run_registry
  have hschemas := exists_read_of_loadSchemas (congrArg Prod.fst e.run_schemas)
  rw [hstarted] at hregistry
  rw [hregistered] at hschemas
  intro input hinput
  rw [FileView.inputs, e.schemas_eq] at hinput
  rcases List.mem_append.mp hinput with hnamed | hschema
  · obtain ⟨file, hfile, rfl⟩ := List.mem_map.mp hnamed
    exact hregistry file hfile
  · exact hschemas input hschema

/-! ## What is kept -/

/-- A process that emits a mapping to the path derived from its first schema keeps the content of
every regular file that it has read, but for the file at this path and for the one that the temporary
path beside it leads to.  It is read under the same path still, if this leads to it without the
entries at the two paths. -/
theorem execute_keeps_inputs (hchoose : ∀ scope named, Keeps files (choose scope named))
    (hview : options.view = none) (hlist : options.list = false) (houtput : options.output = none)
    (h : execute choose options s = (0, last)) :
    ∃ first rest path, options.schemas = some (first :: rest) ∧
      path = defaultOutput ((view s).schemaPath ⟨first⟩) ∧
      ∀ input ∈ (view s).inputs options, ∃ bytes, (view s).read input = .ok bytes ∧
        ∀ content l, (disk s).content? input = some content →
          (disk s).locate true input = .ok l → ¬ (disk s).Overwrites path l →
            bytes = content ∧ (disk last).bytes? l = some content ∧
            ∀ own temporary, (disk s).Leads false path own →
              (disk s).Leads false (temporaryPath path) temporary →
              ((disk s).without own temporary).content? input = some content →
                (disk last).content? input = some content := by
  obtain ⟨e⟩ := exists_emission_of_execute hchoose hview hlist h
  have hpath : e.path = defaultOutput ((view s).schemaPath ⟨e.first⟩) := by
    rw [← e.path_eq, FileView.outputPath, houtput]
  refine ⟨e.first, e.rest, e.path, e.schemas_eq, hpath, fun input hinput => ?_⟩
  obtain ⟨bytes, hread⟩ := e.exists_read input hinput
  refine ⟨bytes, hread, fun content l hcontent hl hother => ?_⟩
  obtain ⟨hown, hnames⟩ := not_or.mp hother
  have hsees := read_sees input s
  rw [hread] at hsees
  refine ⟨read_ok input bytes content s _ (Prod.ext hsees rfl) hcontent, ?_, ?_⟩
  · obtain ⟨-, there, hthere, hbytes⟩ := Disk.content?_eq_some_iff.mp hcontent
    cases hl.symm.trans hthere
    exact e.replaced.bytes?_of_bytes? hbytes hown hnames
  · intro own temporary hplace htemporary hwithout
    refine (e.replaced.content?_of_without hplace htemporary hwithout fun m hm => ?_).2
    cases hl.symm.trans hm
    exact hnames

end

/-! ## Files in the way of a mapping -/

/-- A world with a registry, and with a schema that is named like a mapping file. -/
def crossedWorld : World where
  tree :=
    { entries :=
        [(["gauge.mrmap"], gaugeEntry),
         (["units"], .inode 1 (.file (Text.Utf8.encode "prim handle\n  size 6\nend\n")))] }

/-- The two files are to be read. -/
def crossedOptions : Options where
  schemas := some ["gauge.mrmap"]
  target := some "Gauge"
  primitives := some ["units"]

/-- The registry has its content still. -/
theorem crossedWorld_units_kept :
    (World.execute crossedOptions crossedWorld).1 = 0 ∧
      ∃ bytes, crossedWorld.tree.read ⟨"units"⟩ = .ok bytes ∧
        (disk (World.execute crossedOptions crossedWorld).2).content? ⟨"units"⟩ = some bytes := by
  have hcode : (World.execute crossedOptions crossedWorld).1 = 0 := by decide +kernel
  have hinput : ⟨"units"⟩ ∈ (view crossedWorld).inputs crossedOptions := by decide +kernel
  have houtput : defaultOutput ((view crossedWorld).schemaPath ⟨"gauge.mrmap"⟩) =
      ⟨"gauge.mrmap"⟩ := by decide +kernel
  have hown : (disk crossedWorld).Leads false ⟨"gauge.mrmap"⟩ ["gauge.mrmap"] := by decide +kernel
  have htemporary (follow : Bool) : (disk crossedWorld).Leads follow (temporaryPath ⟨"gauge.mrmap"⟩)
      ["gauge.mrmap.tmp"] := by
    cases follow
    all_goals decide +kernel
  have hlocate : (disk crossedWorld).locate true ⟨"units"⟩ = .ok ["units"] := by decide +kernel
  have hwithout : ((disk crossedWorld).without ["gauge.mrmap"] ["gauge.mrmap.tmp"]).content?
      ⟨"units"⟩ = some (Text.Utf8.encode "prim handle\n  size 6\nend\n") := by decide +kernel
  have hcontent : (disk crossedWorld).content? ⟨"units"⟩ =
      some (Text.Utf8.encode "prim handle\n  size 6\nend\n") := by decide +kernel
  have hother : ¬ (disk crossedWorld).Overwrites ⟨"gauge.mrmap"⟩ ["units"] := by
    -- Nothing is at the temporary path, so it has no other names.
    have hfree : (disk crossedWorld).number? ["gauge.mrmap.tmp"] = none := by decide +kernel
    rintro (hplace | ⟨there, hthere, hsame⟩)
    · exact absurd (hplace.unique hown) (by decide)
    · rw [hthere.unique (htemporary true), Disk.SameFile, hfree] at hsame
      rcases hsame with hsame | ⟨number, -, hnumber⟩
      · exact absurd hsame (by decide)
      · cases hnumber
  refine ⟨hcode, ?_⟩
  rcases hrun : World.execute crossedOptions crossedWorld with ⟨code, last⟩
  rw [hrun] at hcode
  obtain rfl : code = 0 := hcode
  obtain ⟨first, rest, path, hschemas, hpath, hkept⟩ :=
    execute_keeps_inputs (fun _ _ _ => rfl) rfl rfl rfl hrun
  cases hschemas
  rw [houtput] at hpath
  subst hpath
  obtain ⟨bytes, hread, hsame⟩ := hkept ⟨"units"⟩ hinput
  obtain ⟨rfl, -, hlast⟩ := hsame _ _ hcontent hlocate hother
  exact ⟨_, hread, hlast _ _ hown (htemporary false) hwithout⟩

/-- The schema has been replaced by its mapping. -/
theorem crossedWorld_schema_lost :
    CommandLine.parse ["-s", "gauge.mrmap", "-t", "Gauge", "-p", "units"] = some crossedOptions ∧
      crossedOptions.view = none ∧ crossedOptions.list = false ∧ crossedOptions.output = none ∧
      (World.execute crossedOptions crossedWorld).1 = 0 ∧
      ⟨"gauge.mrmap"⟩ ∈ (view crossedWorld).inputs crossedOptions ∧
      ∃ bytes, crossedWorld.tree.read ⟨"gauge.mrmap"⟩ = .ok bytes ∧
        (World.execute crossedOptions crossedWorld).2.tree.read ⟨"gauge.mrmap"⟩ ≠ .ok bytes := by
  have hbefore : crossedWorld.tree.read ⟨"gauge.mrmap"⟩ =
      .ok (Text.Utf8.encode gaugeSource) := by decide +kernel
  refine ⟨?_, ?_, ?_, ?_, ?_, ?_, _, hbefore, ?_⟩
  all_goals decide +kernel

/-- A world in which the registry has a second name, and this is the temporary one of the mapping. -/
def sharedUnitsWorld : World where
  tree :=
    { entries :=
        [(["gauge.mrtype"], gaugeEntry),
         (["units"], .inode 1 (.file (Text.Utf8.encode "prim handle\n  size 6\nend\n"))),
         (["gauge.mrmap.tmp"], .inode 1 (.file (Text.Utf8.encode "prim handle\n  size 6\nend\n")))] }

/-- The registry has been overwritten under its first name as well. -/
example :
    (World.execute { gaugeOptions with primitives := some ["units"] } sharedUnitsWorld).1 = 0 ∧
      (disk (World.execute { gaugeOptions with primitives := some ["units"] }
        sharedUnitsWorld).2).content? ⟨"units"⟩ =
          some [77, 82, 77, 80, 1, 0, 1, 0, 1, 1, 0, 0, 0, 0] := by
  refine ⟨?_, ?_⟩
  all_goals decide +kernel

end ShowingMachine
end FieldMap
