import FieldMap.CompileError
import FieldMap.Loading
import FieldMap.Saving

/-!
# How a run can fail

A failure is told as a chain: what was attempted, what went wrong, and what that
was due to.  An error that already tells its cause is followed by the cause all
the same.
-/

namespace FieldMap

/-- Why a run fails. -/
inductive Failure
  | noSchema
  | noStructSelected
  | input (reason : TextError)
  | registry (e : RegistryError)
  | load (e : LoadError)
  | compile (e : CompileError)
  | save (path : Path) (e : WriteError)
  | view (path : Path) (e : ReadError)
  deriving DecidableEq, Repr

namespace Failure

/-- The chain of a failure, from the outermost link on. -/
def chain : Failure → List String
  | noSchema => ["--schema needs at least one file"]
  | noStructSelected => ["No struct selected"]
  | input reason => [reason.message]
  | registry e => [e.message]
  | load e => e.message :: e.source?.toList
  | compile e => [e.message]
  | save path e => s!"Failed to write {path.text}" :: e.message :: e.source?.toList
  | view path e => [s!"Failed to load {path.text}", e.message]

/-- The wording of a failure. -/
def message (failure : Failure) : String :=
  ": ".intercalate failure.chain

end Failure
end FieldMap
