import FieldMap.CommandLine
import FieldMap.Proofs.EmittedRuns
import FieldMap.Proofs.MergedSchemas
import FieldMap.Proofs.PipelineRoundTrip
import FieldMap.Proofs.ReplacedFiles

/-!
# What is emitted can be shown

A process that emits a mapping prints the path that it went to.  Another process that is asked to
show the mapping file at this path, on the disk that the first one left, shows the mapping that was
compiled, its names included if it was compiled with names:

* the path can be named even where it is written so that it could be taken for an option
  (`CommandLine.parse_view`);
* the bytes at the path are those of the mapping (`Disk.Replaced.content?_eq`);
* the structs that were loaded have been parsed, so the mapping comes back from its bytes
  (`Emission.decode_eq`).

It does not, if the machine refuses to read the file, or if what was at the temporary path has made
something else of the output path, as the link of `knottedWorld` does.
-/

namespace FieldMap

/-- Any path can be named as that of the mapping to show. -/
theorem CommandLine.parse_view (text : String) :
    parse ["--view-mapping=" ++ text] = some { view := some text } := by
  have hchars : ("--view-mapping=" ++ text).toList =
      '-' :: '-' :: ("view-mapping".toList ++ '=' :: text.toList) := by
    rw [String.toList_append]
    rfl
  have hmeet : Progress.meet {} ("--view-mapping=" ++ text) =
      some { options := { view := some (String.ofList text.toList) } } := by
    unfold Progress.meet
    rw [hchars]
    rfl
  rw [String.ofList_toList] at hmeet
  rw [parse, List.foldlM_cons, hmeet]
  rfl

namespace ShowingMachine

open FileMachine ReadingMachine

section
variable {σ : Type} [FileSystem (StateM σ)] [Reporting (StateM σ)] [Terminal (StateM σ)]
  [ShowingMachine σ] {choose : Chooser (StateM σ)} {options : Options} {s last : σ}

/-! ## The mapping and its bytes -/

theorem Emission.counted (e : Emission choose options s last) : ∀ s ∈ e.structs, s.Counted := by
  intro s hs member hmember count hcount
  have hdeclarable := declarable_of_loadSchemas (congrArg Prod.fst e.run_schemas) s hs
  exact ((hdeclarable.members member hmember).count count hcount).1

theorem Emission.decode_eq (e : Emission choose options s last) (hasks : choose.Asks) :
    Artifact.decode e.bytes = .ok e.mapping := by
  obtain ⟨s, hs, -, hm⟩ := exists_compileStruct_of_compile (e.compile_eq hasks)
  obtain ⟨hexcess, hbytes⟩ := Artifact.encode_eq_ok_iff.mp e.encode_eq
  have hscope : Scope.Counted ⟨e.registry, e.structs⟩ := e.counted
  rw [hbytes]
  exact decode_bytes_of_compileStruct hscope (hscope s hs) hm hexcess

/-! ## The second process -/

theorem run_showMapping_of_ok {path : Path} {bytes : List UInt8} {mapping : Mapping}
    (hread : (view s).read path = .ok bytes) (hdecode : Artifact.decode bytes = .ok mapping) :
    ∃ next, (showMapping path : ExceptT Failure (StateM σ) Unit).run s = (.ok (), next) ∧
      output next = output s ++ s!"Mapping {path.text}\n\n" ++ mapping.render := by
  have hsees := read_sees path s
  have hkeeps := read_output path s
  rcases hrun : (FileSystem.read path : ExceptT OsError (StateM σ) (List UInt8)).run s with
    ⟨outcome, here⟩
  rw [hrun, hread] at hsees
  rw [hrun] at hkeeps
  obtain rfl : outcome = .ok bytes := hsees
  have hmapping (t : σ) : (ExceptT.adapt ReadError.invalid
      (ExceptT.mk (pure (Artifact.decode bytes))) :
        ExceptT ReadError (StateM σ) Mapping).run t = (.ok mapping, t) :=
    run_adapt_of_ok _ (run_mk_pure_eq_ok_iff.mpr ⟨hdecode, rfl⟩)
  have hload : (loadMapping path : ExceptT ReadError (StateM σ) Mapping).run s =
      (.ok mapping, ((Reporting.report [.mappingLoaded path.text bytes.length] :
        StateM σ Unit) here).2) := by
    rw [loadMapping, run_bind_of_ok (run_adapt_of_ok _ hrun), run_bind_of_ok (run_lift _ _)]
    exact hmapping _
  rw [showMapping, run_bind_of_ok (run_adapt_of_ok _ hload), run_bind_of_ok (run_lift _ _),
    run_lift]
  refine ⟨_, rfl, ?_⟩
  rw [print_output, print_output, report_output, hkeeps]

/-- The mapping that a process has emitted is shown by another one that is given the path and the disk
that the first one left, unless the machine refuses to read the file.  No link and no special file may
have been at the temporary path, and the path may not lead through a link at its own end. -/
theorem execute_view_of_emit (hasks : choose.Asks)
    (hchoose : ∀ scope named, Keeps files (choose scope named)) (hview : options.view = none)
    (hlist : options.list = false) (h : execute choose options s = (0, last)) :
    ∃ e : Emission choose options s last,
      (compile ⟨e.registry, e.structs⟩ e.target options.debugNames).result = .ok e.mapping ∧
      CommandLine.parse ["--view-mapping=" ++ e.path.text] = some { view := some e.path.text } ∧
      ((disk s).Plain (temporaryPath e.path) → (disk s).Clear e.path →
        (disk last).content? e.path = some e.bytes ∧
        ∀ (viewing : Options) (later : σ), viewing.view = some e.path.text →
          disk later = disk last →
            (∃ refusal, (view later).read e.path = .error refusal) ∨
            ∃ shown, execute choose viewing later = (0, shown) ∧
              output shown = output later ++ s!"Mapping {e.path.text}\n\n" ++ e.mapping.render) := by
  obtain ⟨e⟩ := exists_emission_of_execute hchoose hview hlist h
  refine ⟨e, e.compile_eq hasks, CommandLine.parse_view e.path.text, fun hplain hclear => ?_⟩
  have hcontent := e.replaced.content?_eq hplain hclear
  refine ⟨hcontent, fun viewing later hviewing hdisk => ?_⟩
  cases hread : (view later).read e.path with
  | error refusal => exact .inl ⟨refusal, rfl⟩
  | ok found =>
      -- What is read at the path is what the disk has there.
      right
      have hseen := read_sees e.path later
      rw [hread] at hseen
      obtain rfl : found = e.bytes :=
        read_ok e.path found e.bytes later _ (Prod.ext hseen rfl) (hdisk ▸ hcontent)
      have hstart := looking_view.clock later
      obtain ⟨next, hrun, houtput⟩ :=
        run_showMapping_of_ok ((congrArg (·.read e.path) hstart).trans hread) (e.decode_eq hasks)
      have hviews : (run choose {} viewing).run ((Terminal.clock : StateM σ Nat) later).2 =
          (.ok (), next) := by
        unfold run
        rw [hviewing]
        exact hrun
      obtain ⟨shown, hexecute, hshown⟩ := exists_execute_of_run clock_output report_output hviews
      exact ⟨shown, hexecute, by rw [hshown, houtput, clock_output]⟩

end

/-- A world with one schema and an input that misses the name of its struct at first. -/
def askedWorld : World where
  tree := { entries := [(["gauge.mrtype"], gaugeEntry)] }
  input := [Text.Utf8.encode "Gage\n", Text.Utf8.encode "Gauge\n"]

/-- The target is to be asked for, and compiled with names. -/
def askingOptions : Options where
  schemas := some ["gauge"]
  debugNames := true

/-- The mapping that was asked for goes beside its schema and is shown. -/
theorem askedWorld_viewed :
    (World.execute askingOptions askedWorld).1 = 0 ∧
      ∃ e : Emission World.choose askingOptions askedWorld
          (World.execute askingOptions askedWorld).2,
        e.path = ⟨"gauge.mrmap"⟩ ∧
        ∃ last, World.execute { view := some "gauge.mrmap" }
            { tree := (World.execute askingOptions askedWorld).2.tree } = (0, last) ∧
          last.output = "Mapping gauge.mrmap\n\n" ++ e.mapping.render := by
  have hcode : (World.execute askingOptions askedWorld).1 = 0 := by decide +kernel
  refine ⟨hcode, ?_⟩
  rcases hrun : World.execute askingOptions askedWorld with ⟨code, after⟩
  rw [hrun] at hcode
  obtain rfl : code = 0 := hcode
  obtain ⟨e, -, -, hshown⟩ :=
    execute_view_of_emit World.choose_asks (fun _ _ _ => rfl) rfl rfl hrun
  have hfirst : "gauge" = e.first := (List.cons.inj (Option.some.inj e.schemas_eq)).1
  have hpath : e.path = ⟨"gauge.mrmap"⟩ := by
    rw [← e.path_eq, ← hfirst]
    decide +kernel
  have htemporary : (disk askedWorld).Leads false (temporaryPath ⟨"gauge.mrmap"⟩)
      ["gauge.mrmap.tmp"] := by decide +kernel
  have hown : (disk askedWorld).Leads false ⟨"gauge.mrmap"⟩ ["gauge.mrmap"] := by decide +kernel
  have hplain : (disk askedWorld).Plain (temporaryPath e.path) := by
    rw [hpath]
    intro l hl
    rw [hl.unique htemporary]
    exact .inl (by decide +kernel)
  have hclear : (disk askedWorld).Clear e.path := by
    rw [hpath]
    intro l hl
    rw [hl.unique hown]
    exact .inl (by decide +kernel)
  obtain ⟨hcontent, hviewed⟩ := hshown hplain hclear
  rcases hviewed { view := some "gauge.mrmap" } { tree := after.tree } (by rw [hpath]) rfl with
    ⟨refusal, hrefused⟩ | ⟨last, hlast, houtput⟩
  · -- A world refuses to read no file that it has.
    cases hrefused.symm.trans (FileTree.read_of_content? hcontent)
  · refine ⟨e, hpath, last, hlast, ?_⟩
    have htitle : s!"Mapping {e.path.text}\n\n" = "Mapping gauge.mrmap\n\n" := by
      rw [hpath]
      decide +kernel
    have hshowed : last.output = "" ++ s!"Mapping {e.path.text}\n\n" ++ e.mapping.render := houtput
    rw [hshowed, htitle, String.empty_append]

/-! ## A link to the path at its temporary one -/

/-- A schema that is named like an option, and a link to the path of its mapping at the temporary
path. -/
def knottedWorld : World where
  tree :=
    { entries :=
        [(["-gauge.mrtype"], gaugeEntry),
         (["-gauge.mrmap.tmp"], .inode 1 (.link ⟨"-gauge.mrmap"⟩))] }

/-- The schema is to be compiled. -/
def knottedOptions : Options where
  schemas := some ["-gauge.mrtype"]
  target := some "Gauge"

/-- The mapping is emitted.  Its path is refused behind `--view-mapping`, since it looks like an
option, and where it is accepted, nothing can be read: the path is a link to itself. -/
theorem knottedWorld_not_viewed :
    CommandLine.parse ["--schema=-gauge.mrtype", "-t", "Gauge"] = some knottedOptions ∧
      (World.execute knottedOptions knottedWorld).1 = 0 ∧
      (World.execute knottedOptions knottedWorld).2.output =
        "Emitted mapping for Gauge -> -gauge.mrmap (1 sizes, 1 properties)\n" ∧
      CommandLine.parse ["--view-mapping", "-gauge.mrmap"] = none ∧
      CommandLine.parse ["--view-mapping=-gauge.mrmap"] = some { view := some "-gauge.mrmap" } ∧
      (World.execute { view := some "-gauge.mrmap" }
        (World.execute knottedOptions knottedWorld).2).1 = 1 := by
  refine ⟨?_, ?_, ?_, ?_, ?_, ?_⟩
  all_goals decide +kernel

end ShowingMachine
end FieldMap
