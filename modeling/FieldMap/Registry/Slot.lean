import FieldMap.Registry.Parser

/-!
# The installed registry

A process has one registry for everything it compiles.  It is put in place once;
whoever asks for it earlier settles it to the built-in primitives.
-/

namespace FieldMap

/-- The place of the registry, which is filled at most once. -/
structure RegistrySlot where
  held : Option Registry := none
  deriving DecidableEq, Repr

namespace RegistrySlot

/-- Puts a registry in place, unless one is there. -/
def install (slot : RegistrySlot) (registry : Registry) : Except RegistryError RegistrySlot :=
  match slot.held with
  | none => .ok ⟨some registry⟩
  | some _ => .error .alreadyInstalled

/-- The registry in place, the built-in one if there was none. -/
def get (slot : RegistrySlot) : Registry × RegistrySlot :=
  match slot.held with
  | some registry => (registry, slot)
  | none => (.builtin, ⟨some .builtin⟩)

end RegistrySlot
end FieldMap
