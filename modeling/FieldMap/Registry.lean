/-!
# Primitive types

A registry knows the byte sizes of the primitive types.  Entries are only ever
added, each under a name that is still free, so what a registry knows stays true
of every registry that grows out of it.
-/

namespace FieldMap

/-- A primitive type and its size in bytes. -/
structure Primitive where
  name : String
  size : Nat
  deriving DecidableEq, Repr

/-- How many bytes so many values of a primitive take. -/
def Primitive.bytes (primitive : Primitive) (copies : Nat) : Nat :=
  primitive.size * copies

/-- The known primitives. -/
structure Registry where
  primitives : List Primitive := []
  deriving DecidableEq, Repr

namespace Registry

/-- No primitive at all. -/
def empty : Registry := {}

/-- The primitives that need no declaration, with their sizes on a 64-bit target. -/
def builtin : Registry where
  primitives :=
    [⟨"bool", 1⟩, ⟨"b8", 1⟩, ⟨"b16", 2⟩, ⟨"b32", 4⟩, ⟨"b64", 8⟩, ⟨"byte", 1⟩,
     ⟨"u8", 1⟩, ⟨"i8", 1⟩, ⟨"u16", 2⟩, ⟨"i16", 2⟩, ⟨"u32", 4⟩, ⟨"i32", 4⟩,
     ⟨"u64", 8⟩, ⟨"i64", 8⟩, ⟨"u128", 16⟩, ⟨"i128", 16⟩, ⟨"int", 8⟩, ⟨"uint", 8⟩,
     ⟨"uintptr", 8⟩, ⟨"rune", 4⟩, ⟨"f16", 2⟩, ⟨"f32", 4⟩, ⟨"f64", 8⟩]

/-- The primitive of that name. -/
def get? (registry : Registry) (name : String) : Option Primitive :=
  registry.primitives.find? (·.name == name)

/-- The name is taken. -/
def contains (registry : Registry) (name : String) : Bool :=
  registry.primitives.any (·.name == name)

/-- The registry with one more entry. -/
def add (registry : Registry) (primitive : Primitive) : Registry :=
  ⟨primitive :: registry.primitives⟩

/-- The entries sorted by name. -/
def sorted (registry : Registry) : List Primitive :=
  registry.primitives.mergeSort fun a b => a.name ≤ b.name

theorem get?_add (registry : Registry) (primitive : Primitive) (name : String) :
    (registry.add primitive).get? name =
      if primitive.name == name then some primitive else registry.get? name := by
  simp only [get?, add, List.find?_cons]
  cases primitive.name == name <;> rfl

theorem isSome_get? (registry : Registry) (name : String) :
    (registry.get? name).isSome = registry.contains name := by
  exact List.isSome_find?

end Registry
end FieldMap
