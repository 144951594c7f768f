import FieldMap.Registry
import FieldMap.Schema

/-!
# What a type name means

A name is looked up among the primitives first and among the structs of the
schema second; of several structs of one name the first counts.
-/

namespace FieldMap

/-- Where type names are looked up. -/
structure Scope where
  registry : Registry
  structs : List Struct
  deriving DecidableEq, Repr

/-- What a type name stands for. -/
inductive Resolution
  | primitive (type : Primitive)
  | struct (type : Struct)
  | unresolved
  deriving DecidableEq, Repr

/-- The meaning of a type name. -/
def Scope.resolve (scope : Scope) (name : String) : Resolution :=
  match scope.registry.get? name with
  | some type => .primitive type
  | none =>
    match scope.structs.find? (·.name == name) with
    | some type => .struct type
    | none => .unresolved

end FieldMap
