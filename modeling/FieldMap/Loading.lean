import FieldMap.Artifact.Decode
import FieldMap.FileSystem
import FieldMap.Registry.Parser
import FieldMap.Reporting
import FieldMap.Schema.Parser
import FieldMap.Text.Utf8

/-!
# Reading files

Registry files, schema files and mapping files are read whole.  The first two are
text and have to be UTF-8.  Schema files named twice are read once, and the
structs of all of them together must have different names.
-/

namespace FieldMap

/-- Why a text file cannot be read. -/
inductive TextError
  | os (e : OsError)
  | notUtf8
  deriving DecidableEq, Repr

/-- The wording of an error. -/
def TextError.message : TextError → String
  | os e => e.message
  | notUtf8 => "stream did not contain valid UTF-8"

/-- Why schema files cannot be loaded. -/
inductive LoadError
  | io (path : Path) (reason : TextError)
  | parse (error : ParseError)
  | duplicateStruct (name : String) (first second : Path)
  deriving DecidableEq, Repr

/-- The wording of an error. -/
def LoadError.message : LoadError → String
  | io path reason => s!"Failed to read {path.text}: {reason.message}"
  | parse error => error.message
  | duplicateStruct name first second =>
    s!"Struct '{name}' is declared in both {first.text} and {second.text}"

/-- The wording of what an error is due to. -/
def LoadError.source? : LoadError → Option String
  | io _ reason => some reason.message
  | parse error => some error.message
  | duplicateStruct .. => none

/-- Why a mapping file cannot be loaded. -/
inductive ReadError
  | io (e : OsError)
  | invalid (e : Artifact.FormatError)
  deriving DecidableEq, Repr

/-- The wording of an error. -/
def ReadError.message : ReadError → String
  | io e => s!"Failed to read mapping: {e.message}"
  | invalid e => s!"Invalid mapping: {e.message}"

/-- The extension of schema files. -/
def schemaExtension : String := "mrtype"

section

variable {m : Type → Type} [Monad m] [FileSystem m]

/-- The text of a file. -/
def readText (path : Path) : ExceptT TextError m String := do
  let bytes ← ExceptT.adapt TextError.os (FileSystem.read path)
  match Text.Utf8.decode bytes with
  | .ok text => pure text
  | .error _ => throw .notUtf8

/-- The path of a schema: as given if something is there or it has the extension,
and else with the extension behind it. -/
def resolveSchemaPath (path : Path) : m Path := do
  if ← FileSystem.isPresent path then pure path
  else if path.extension? = some schemaExtension then pure path
  else pure ⟨path.text ++ "." ++ schemaExtension⟩

variable [Reporting m]

/-- The registry with the primitives of one file. -/
def loadRegistryFile (registry : Registry) (file : String) :
    ExceptT Registry.Refusal m Registry := do
  let unreadable (e : TextError) : Registry.Refusal := ⟨registry, .unreadable file e.message⟩
  let content ← ExceptT.adapt unreadable (readText ⟨file⟩)
  perform (registry.parse content file)

/-- The registry with the primitives of several files, in order. -/
def loadRegistryFiles (registry : Registry) : List String → ExceptT Registry.Refusal m Registry
  | [] => pure registry
  | file :: files => do
    let registry ← loadRegistryFile registry file
    loadRegistryFiles registry files

/-- Structs with the paths that declare them, newest first, and more structs from
one path. -/
def addStructs (path : Path) (known : List (Struct × Path)) :
    List Struct → Except LoadError (List (Struct × Path))
  | [] => .ok known
  | s :: rest =>
    match known.find? (·.1.name == s.name) with
    | some (_, first) => .error (.duplicateStruct s.name first path)
    | none => addStructs path ((s, path) :: known) rest

/-- The structs of the given files, after those known from the paths seen. -/
def loadSchemasFrom (seen : List Path) (known : List (Struct × Path)) :
    List Path → ExceptT LoadError m (List Struct)
  | [] => pure (known.map (·.1)).reverse
  | given :: rest => do
    let path ← ExceptT.lift (resolveSchemaPath given)
    if seen.any path.isSame then
      ExceptT.lift (Reporting.report [.schemaSkipped path.text])
      loadSchemasFrom seen known rest
    else
      let source ← ExceptT.adapt (LoadError.io path) (readText path)
      let structs ← ExceptT.adapt LoadError.parse (perform (Schema.parse source path.text))
      ExceptT.lift (Reporting.report [.schemaLoaded structs.length path.text])
      let known ← ExceptT.mk (pure (addStructs path known structs))
      loadSchemasFrom (path :: seen) known rest

/-- The structs of the given schema files, in order. -/
def loadSchemas (paths : List Path) : ExceptT LoadError m (List Struct) :=
  loadSchemasFrom [] [] paths

/-- The mapping in a file. -/
def loadMapping (path : Path) : ExceptT ReadError m Mapping := do
  let bytes ← ExceptT.adapt ReadError.io (FileSystem.read path)
  ExceptT.lift (Reporting.report [.mappingLoaded path.text bytes.length])
  ExceptT.adapt ReadError.invalid (ExceptT.mk (pure (Artifact.decode bytes)))

end

end FieldMap
