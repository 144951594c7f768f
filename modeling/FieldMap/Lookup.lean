import FieldMap.CompileError
import FieldMap.Schema
import FieldMap.Text.EditDistance
import FieldMap.Traced

/-!
# Finding a struct by name

The first struct of exactly that name is found.  If there is none, the name that
is closest to the wanted one is suggested; of several at the same distance the
earliest.
-/

namespace FieldMap

/-- One more candidate against the best one so far. -/
def closer (name : List Char) (best : Option (String × Nat)) (candidate : String) :
    Option (String × Nat) :=
  let distance := Text.editDistance name candidate.toList
  match best with
  | none => some (candidate, distance)
  | some (_, least) => if distance < least then some (candidate, distance) else best

/-- The candidate closest to a name, the earliest of several. -/
def nearest? (name : String) (candidates : List String) : Option String :=
  (candidates.foldl (closer name.toList) none).map (·.1)

/-- The struct of that name, or a suggestion. -/
def findStruct (structs : List Struct) (name : String) : Traced CompileError Struct :=
  match structs.find? (·.name == name) with
  | some s => pure s
  | none => do
    let suggestion := nearest? name (structs.map (·.name))
    Traced.report (.structNotFound name suggestion)
    Traced.fail (.notFound name suggestion)

end FieldMap
