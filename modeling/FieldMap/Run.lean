import FieldMap.CommandLine
import FieldMap.Mapping.Listing
import FieldMap.Registry.Slot
import FieldMap.Selection

/-!
# A run of the program

A run shows a mapping file, or reads registry and schema files and then lists the
structs or compiles one of them and writes its mapping.  It is written against an
abstract file system and terminal, so that the very same run can be carried out
for real or in memory.
-/

namespace FieldMap

/-- Where text goes and time comes from. -/
class Terminal (m : Type → Type) where
  /-- Shows a text on the standard output. -/
  print : String → m Unit
  /-- Shows a line on the standard error. -/
  complain : String → m Unit
  /-- Milliseconds since some moment that stays the same. -/
  clock : m Nat

section

variable {m : Type → Type} [Monad m] [FileSystem m] [Reporting m] [Terminal m]

/-- Chooses and compiles a target when none is given. -/
abbrev Chooser (m : Type → Type) := Scope → (named : Bool) → ExceptT Failure m (String × Mapping)

/-- Shows a mapping file. -/
def showMapping (path : Path) : ExceptT Failure m Unit := do
  let mapping ← ExceptT.adapt (Failure.view path) (loadMapping path)
  ExceptT.lift (Terminal.print s!"Mapping {path.text}\n\n")
  ExceptT.lift (Terminal.print mapping.render)

/-- The target of the options with its mapping. -/
def compileTarget (choose : Chooser m) (options : Options) (scope : Scope) :
    ExceptT Failure m (String × Mapping) :=
  match options.target with
  | some target => do
    let mapping ← ExceptT.adapt Failure.compile
      (perform (compile scope target options.debugNames))
    pure (target, mapping)
  | none => choose scope options.debugNames

/-- Where the mapping goes. -/
def outputPath (options : Options) (first : Path) : m Path :=
  match options.output with
  | some path => pure ⟨path⟩
  | none => do return defaultOutput (← resolveSchemaPath first)

/-- Compiles a target and writes its mapping. -/
def emit (choose : Chooser m) (options : Options) (first : Path) (scope : Scope) :
    ExceptT Failure m Unit := do
  let start ← ExceptT.lift Terminal.clock
  let (target, mapping) ← compileTarget choose options scope
  let now ← ExceptT.lift Terminal.clock
  ExceptT.lift (Reporting.report [.targetCompiled target (now - start)])
  let path ← ExceptT.lift (outputPath options first)
  ExceptT.adapt (Failure.save path) (saveMapping mapping path options.debugNames)
  ExceptT.lift (Terminal.print
    (s!"Emitted mapping for {target} -> {path.text} " ++
      s!"({mapping.sizes.length} sizes, {mapping.properties.length} properties)\n"))

/-- Carries out what the options ask for, in a process whose registry may be in
place already. -/
def run (choose : Chooser m) (slot : RegistrySlot) (options : Options) :
    ExceptT Failure m Unit := do
  match options.view with
  | some path => showMapping ⟨path⟩
  | none =>
    let registry ← ExceptT.adapt (fun refusal => Failure.registry refusal.error)
      (loadRegistryFiles .builtin (options.primitives.getD []))
    let slot ← ExceptT.adapt Failure.registry (ExceptT.mk (pure (slot.install registry)))
    match options.schemas.getD [] with
    | [] => throw .noSchema
    | first :: rest =>
      let structs ← ExceptT.adapt Failure.load
        (loadSchemas ((first :: rest).map Path.mk))
      if options.list then ExceptT.lift (Terminal.print (Schema.listing structs))
      else emit choose options ⟨first⟩ ⟨slot.get.1, structs⟩

/-- A whole run, from the accepted options to the exit code. -/
def execute (choose : Chooser m) (options : Options) : m UInt32 := do
  let start ← Terminal.clock
  let outcome ← (run choose {} options).run
  let code ← match outcome with
    | .ok () => pure 0
    | .error failure => do
      Terminal.complain s!"Error: {failure.message}"
      pure 1
  let now ← Terminal.clock
  Reporting.report [.runFinished (now - start)]
  pure code

end

end FieldMap
