import FieldMap.Event
import FieldMap.Mapping

/-!
# Why a struct cannot be compiled

Either no struct has the name asked for, or the schema breaks one of the rules
that the mapping format imposes.  A broken rule is reported with the member that
breaks it; a struct with too many children is reported for itself.
-/

namespace FieldMap

/-- A broken rule. -/
inductive Violation
  /-- The type is neither a primitive nor a struct of the schema. -/
  | unresolvedType
  /-- The struct is being expanded already; the trail leads to it, innermost first. -/
  | cycle (trail : List String) (again : String)
  /-- The bytes of a member do not fit in one entry of the size table. -/
  | sizeOverflow (copies size : Nat)
  /-- The size table is full. -/
  | indexOverflow
  /-- A node would have more children than can be counted. -/
  | tooManyChildren (count : Nat)
  /-- A nested struct has no members. -/
  | emptyStruct (name : String)
  /-- Nodes would be nested too deep. -/
  | tooDeep
  deriving DecidableEq, Repr

namespace Violation

/-- The code of a rule. -/
def code : Violation → String
  | unresolvedType => "E_UNRESOLVED_TYPE"
  | cycle .. => "E_CYCLE"
  | sizeOverflow .. => "E_SIZE_OVERFLOW"
  | indexOverflow | tooManyChildren _ => "E_INDEX_OVERFLOW"
  | emptyStruct _ => "E_EMPTY_STRUCT"
  | tooDeep => "E_TOO_DEEP"

/-- The wording of a broken rule. -/
def message : Violation → String
  | unresolvedType => "not a primitive nor a declared struct"
  | cycle trail again => s!"cyclic struct definition {Event.showTrail (again :: trail)}"
  | sizeOverflow copies size =>
    s!"{copies} x {size} bytes exceeds the 255 byte limit of a size entry"
  | indexOverflow => s!"mapping exceeds {maxCount} size entries"
  | tooManyChildren count => s!"{count} children exceed the {maxCount} child limit"
  | emptyStruct name => s!"struct {name} has no members to map"
  | tooDeep => s!"struct nesting exceeds {maxDepth} levels"

end Violation

/-- A broken rule and where it is broken. -/
structure ValidationError where
  structName : String
  member : String
  typeName : String
  /-- The line of the declaration, 0 if it has none. -/
  line : Nat
  violation : Violation
  deriving DecidableEq, Repr

/-- The wording of an error, with its place. -/
def ValidationError.message (e : ValidationError) : String :=
  s!"{e.violation.code}: {e.structName}.{e.member} : {e.typeName}: {e.violation.message}" ++
    if e.line = 0 then "" else s!"\n  at line {e.line}"

/-- Why a struct cannot be compiled. -/
inductive CompileError
  | notFound (name : String) (suggestion : Option String)
  | invalid (error : ValidationError)
  deriving DecidableEq, Repr

/-- The wording of an error. -/
def CompileError.message : CompileError → String
  | notFound name suggestion =>
    s!"Failed to find the desired struct with the name {name}!" ++
      match suggestion with
      | some suggestion => s!" Did you mean {suggestion}?"
      | none => ""
  | invalid error => error.message

end FieldMap
