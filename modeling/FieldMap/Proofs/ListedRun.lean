import FieldMap.Proofs.AddedStructs
import FieldMap.Proofs.StatefulSteps
import FieldMap.World

/-!
# A run that lists a schema

A run in a world is followed step by step: what each step returns, and the world that it
leaves.  The lemmas that begin with `run_` are about computations that can fail, and those
that end in `of_ok` about their successes.

A run on one schema file with the option to list shows the listing of the structs in that
file and succeeds (`execute_list`).  Besides that it leaves nothing but events.
-/

namespace FieldMap

theorem FileTree.isPresent_of_read {tree : FileTree} {path : Path} {bytes : List UInt8}
    (h : tree.read path = .ok bytes) : tree.isPresent path = true := by
  unfold read at h
  unfold isPresent
  cases hentry : tree.entry path with
  | ok entry => rfl
  | error e =>
      rw [hentry] at h
      cases h

namespace World

section
variable {ε α : Type} {world next : World}

/-- The world after more events. -/
def after (world : World) (events : List Event) : World :=
  { world with notices := (events.map Notice.event).reverseAux world.notices }

@[simp] theorem output_after (world : World) (events : List Event) :
    (world.after events).output = world.output := rfl

theorem run_report (events : List Event) (world : World) :
    (ExceptT.lift (Reporting.report events) : ExceptT ε (StateM World) Unit).run world =
      (.ok (), world.after events) :=
  rfl

theorem run_perform_of_ok {x : Traced ε α} {a : α} (hx : x.result = .ok a) (world : World) :
    (perform x : ExceptT ε (StateM World) α).run world = (.ok a, world.after x.events) := by
  rw [run_perform, hx]
  rfl

/-! ## Files -/

theorem run_read (path : Path) (world : World) :
    (FileSystem.read path : ExceptT OsError (StateM World) (List UInt8)).run world =
      (world.tree.read path, world) :=
  rfl

theorem run_readText_of_ok {path : Path} {bytes : List UInt8} {text : String}
    (hread : world.tree.read path = .ok bytes) (htext : Text.Utf8.decode bytes = .ok text) :
    (readText path : ExceptT TextError (StateM World) String).run world = (.ok text, world) := by
  have hbytes := run_read path world
  rw [hread] at hbytes
  rw [readText, run_bind_of_ok (run_adapt_of_ok TextError.os hbytes), htext]
  rfl

/-- A path where something is stays as it is. -/
theorem resolveSchemaPath_of_isPresent {path : Path} (h : world.tree.isPresent path = true) :
    (resolveSchemaPath path : StateM World Path) world = (path, world) := by
  have hpresent : (FileSystem.isPresent path : StateM World Bool) world = (true, world) := by
    rw [← h]
    rfl
  rw [resolveSchemaPath, bind_of_eq hpresent]
  rfl

/-- One schema file gives the structs of its text. -/
theorem run_loadSchemas_singleton_of_ok {path : Path} {bytes : List UInt8} {source : String}
    {structs : List Struct} (hread : world.tree.read path = .ok bytes)
    (hsource : Text.Utf8.decode bytes = .ok source)
    (hparse : (Schema.parse source path.text).result = .ok structs)
    (hnames : (structs.map Struct.name).Nodup) :
    (loadSchemas [path] : ExceptT LoadError (StateM World) (List Struct)).run world =
      (.ok structs, (world.after (Schema.parse source path.text).events).after
        [.schemaLoaded structs.length path.text]) := by
  have hpath : (ExceptT.lift (resolveSchemaPath path) :
      ExceptT LoadError (StateM World) Path).run world = (.ok path, world) := by
    rw [run_lift, resolveSchemaPath_of_isPresent (FileTree.isPresent_of_read hread)]
  have htext := run_adapt_of_ok (LoadError.io path) (run_readText_of_ok hread hsource)
  have hstructs := run_adapt_of_ok LoadError.parse (run_perform_of_ok hparse world)
  have hadded : addStructs path [] structs = .ok ((structs.map (·, path)).reverse ++ []) :=
    addStructs_of_newNames (newNames_nil_iff.mpr hnames)
  have hback : (((structs.map (·, path)).reverse ++ []).map Prod.fst).reverse = structs := by
    rw [List.append_nil, List.map_reverse, List.reverse_reverse, List.map_map]
    exact List.map_id' structs
  rw [loadSchemas, loadSchemasFrom, run_bind_of_ok hpath]
  simp only [List.any_nil, Bool.false_eq_true, if_false]
  rw [run_bind_of_ok htext, run_bind_of_ok hstructs, run_bind_of_ok (run_report _ _), hadded]
  show (Except.ok (((structs.map (·, path)).reverse ++ []).map Prod.fst).reverse, _) = _
  rw [hback]

/-! ## The run -/

theorem execute_of_run {options : Options}
    (hrun : (run choose {} options).run world = (.ok (), next)) :
    World.execute options world = (0, next.after [.runFinished 0]) := by
  have hclock : (Terminal.clock : StateM World Nat) world = (0, world) := rfl
  unfold World.execute FieldMap.execute
  rw [bind_of_eq hclock, bind_of_eq hrun]
  rfl

/-- A run that lists one schema file shows the listing of its structs. -/
theorem execute_list {path : String} {bytes : List UInt8} {source : String}
    {structs : List Struct} (hread : world.tree.read ⟨path⟩ = .ok bytes)
    (hsource : Text.Utf8.decode bytes = .ok source)
    (hparse : (Schema.parse source path).result = .ok structs)
    (hnames : (structs.map Struct.name).Nodup) :
    ∃ last, World.execute { schemas := some [path], list := true } world = (0, last) ∧
      last.output = world.output ++ Schema.listing structs := by
  have hload := run_adapt_of_ok Failure.load
    (run_loadSchemas_singleton_of_ok hread hsource hparse hnames)
  generalize hloaded : World.after _ _ = loaded at hload
  have hregistry : (ExceptT.adapt (fun refusal => Failure.registry refusal.error)
      (loadRegistryFiles .builtin []) : ExceptT Failure (StateM World) Registry).run world =
        (.ok .builtin, world) := run_adapt_of_ok _ rfl
  have hslot : (ExceptT.adapt Failure.registry
      (ExceptT.mk (pure (RegistrySlot.install {} .builtin))) :
        ExceptT Failure (StateM World) RegistrySlot).run world = (.ok ⟨some .builtin⟩, world) :=
    run_adapt_of_ok _ rfl
  have hrun : (run choose {} { schemas := some [path], list := true }).run world =
      (.ok (), { loaded with output := loaded.output ++ Schema.listing structs }) := by
    unfold run
    simp only [Option.getD_none, Option.getD_some]
    rw [run_bind_of_ok hregistry, run_bind_of_ok hslot]
    simp only [List.map_cons, List.map_nil, if_true]
    rw [run_bind_of_ok hload]
    rfl
  have houtput : loaded.output = world.output := by
    rw [← hloaded, output_after, output_after]
  refine ⟨_, execute_of_run hrun, ?_⟩
  show loaded.output ++ Schema.listing structs = world.output ++ Schema.listing structs
  rw [houtput]

end

end World
end FieldMap
