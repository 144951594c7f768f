import FieldMap.Artifact.Encode
import FieldMap.FileSystem
import FieldMap.Reporting

/-!
# Writing a mapping file

The whole file is made before anything is touched, written under a temporary name
beside its place, and moved there in one step.  When a step fails the temporary
file is removed again, so the place holds either what it held before or the whole
new file.  This relies on the temporary name: what is there already is written to,
and a link is followed.
-/

namespace FieldMap

/-- Why a mapping cannot be saved. -/
inductive WriteError
  | io (e : OsError)
  | tooLarge (e : Artifact.Excess)
  deriving DecidableEq, Repr

/-- The wording of an error. -/
def WriteError.message : WriteError → String
  | io e => s!"Failed to write mapping: {e.message}"
  | tooLarge e => e.message

/-- The wording of what an error is due to. -/
def WriteError.source? : WriteError → Option String
  | io e => some e.message
  | tooLarge _ => none

/-- The extension of mapping files. -/
def mappingExtension : String := "mrmap"

/-- Where the mapping of a schema goes unless told otherwise. -/
def defaultOutput (schema : Path) : Path :=
  schema.withExtension mappingExtension

/-- The temporary name beside a path. -/
def temporaryPath (path : Path) : Path :=
  path.withFileName (path.fileName?.getD "" ++ ".tmp")

variable {m : Type → Type} [Monad m] [FileSystem m]

/-- Makes a directory that may be there already. -/
def ensureDirectory (path : Path) : ExceptT OsError m Unit := do
  match ← ExceptT.lift (FileSystem.makeDirectory path).run with
  | .ok () => pure ()
  | .error e => if ← ExceptT.lift (FileSystem.isDirectory path) then pure () else throw e

/-- Makes the first of several directories, each of which lies in the next one,
and those of the others that are missing. -/
def ensureDirectories : List Path → ExceptT OsError m Unit
  | [] => pure ()
  | path :: outer => do
    match ← ExceptT.lift (ensureDirectory path).run with
    | .ok () => pure ()
    | .error .noEntry =>
      ensureDirectories outer
      ensureDirectory path
    | .error e => throw e

/-- Makes the directories above a path. -/
def ensureParent (path : Path) : ExceptT OsError m Unit :=
  match path.parent? with
  | some parent => ensureDirectories parent.chain
  | none => pure ()

/-- Writes a file under its temporary name and moves it to its place. -/
def replaceFile (path : Path) (bytes : List UInt8) : ExceptT OsError m Unit := do
  let temporary := temporaryPath path
  let replace : ExceptT OsError m Unit := do
    FileSystem.write temporary bytes
    FileSystem.rename temporary path
  match ← ExceptT.lift replace.run with
  | .ok () => pure ()
  | .error e =>
    let _ ← ExceptT.lift (FileSystem.remove temporary).run
    throw e

variable [Reporting m]

/-- Saves a mapping, with or without its names. -/
def saveMapping (mapping : Mapping) (path : Path) (named : Bool) : ExceptT WriteError m Unit := do
  let bytes ← ExceptT.adapt WriteError.tooLarge
    (ExceptT.mk (pure (Artifact.encode mapping named)))
  ExceptT.adapt WriteError.io (ensureParent path)
  ExceptT.adapt WriteError.io (replaceFile path bytes)
  ExceptT.lift (Reporting.report [.mappingWritten bytes.length path.text])

end FieldMap
