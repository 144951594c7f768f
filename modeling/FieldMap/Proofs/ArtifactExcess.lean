import FieldMap.Artifact.Encode
import FieldMap.Proofs.ForestNodes

/-!
# What cannot be written

A mapping file counts its sizes, its properties, the children of each property and the
bytes of each name in two bytes.  The writer looks for an excess on its way through the
properties; the lemmas here say what it finds without that way.

* `Node.Writable` is what a property needs so that it can be written itself.
* `forestExcess?_eq_none_iff`: no excess is found exactly when this holds of every
  property, at whatever depth.
* `exists_mem_of_forestExcess?`: an excess that is found is the own excess of some
  property.
-/

namespace FieldMap

/-- The children of the property can be counted, and so can the bytes of its name if names
are written. -/
def Node.Writable (named : Bool) (node : Node) : Prop :=
  node.children.length ≤ Artifact.maxWord ∧
    (named = true → (node.name.getD "").utf8ByteSize ≤ Artifact.maxWord)

namespace Artifact

theorem excessOf?_eq_none_iff {part : Part} {count : Nat} :
    excessOf? part count = none ↔ count ≤ maxWord := by
  unfold excessOf?
  split <;> simp [*]

theorem excessOf?_eq_some_iff {part : Part} {count : Nat} {e : Excess} :
    excessOf? part count = some e ↔ maxWord < count ∧ e = ⟨part, count⟩ := by
  unfold excessOf?
  split
  · next hle => simp [Nat.not_lt.mpr hle]
  · next hgt => simp [Nat.not_le.mp hgt, eq_comm]

theorem ownExcess?_eq_none_iff (named : Bool) (node : Node) :
    ownExcess? named node.name node.children = none ↔ node.Writable named := by
  unfold ownExcess? Node.Writable
  rw [← excessOf?_eq_none_iff]
  cases excessOf? .childList node.children.length with
  | some excess => simp
  | none => cases named <;> simp [excessOf?_eq_none_iff]

/-- The own excess of a property is its children, or its name where names are written. -/
theorem of_ownExcess?_eq_some {named : Bool} {node : Node} {e : Excess}
    (h : ownExcess? named node.name node.children = some e) :
    (maxWord < node.children.length ∧ e = ⟨.childList, node.children.length⟩) ∨
      (named = true ∧ maxWord < (node.name.getD "").utf8ByteSize ∧
        e = ⟨.debugName, (node.name.getD "").utf8ByteSize⟩) := by
  unfold ownExcess? at h
  cases hchildren : excessOf? .childList node.children.length with
  | some excess =>
      rw [hchildren] at h
      cases h
      exact .inl (excessOf?_eq_some_iff.mp hchildren)
  | none =>
      rw [hchildren] at h
      cases named with
      | false => cases h
      | true => exact .inr ⟨rfl, excessOf?_eq_some_iff.mp h⟩

/-- No excess is found exactly when every property is writable. -/
theorem forestExcess?_eq_none_iff {named : Bool} {f : Forest} :
    forestExcess? named f = none ↔ ∀ node ∈ f, node.Writable named := by
  induction f with
  | nil => simp [forestExcess?]
  | cons index name children siblings ihchildren ihsiblings =>
      have hown := ownExcess?_eq_none_iff named ⟨index, name, children⟩
      rw [Forest.forall_mem_cons, ← hown, ← ihchildren, ← ihsiblings, forestExcess?]
      cases ownExcess? named name children with
      | some excess => simp
      | none => cases forestExcess? named children <;> simp

/-- An excess that is found is the own excess of some property. -/
theorem exists_mem_of_forestExcess? {named : Bool} {f : Forest} {e : Excess}
    (h : forestExcess? named f = some e) :
    ∃ node ∈ f, ownExcess? named node.name node.children = some e := by
  induction f with
  | nil => cases h
  | cons index name children siblings ihchildren ihsiblings =>
      rw [forestExcess?] at h
      cases hown : ownExcess? named name children with
      | some excess =>
          rw [hown] at h
          cases h
          exact ⟨_, Forest.mem_cons.mpr (.inl rfl), hown⟩
      | none =>
          rw [hown] at h
          cases hbelow : forestExcess? named children with
          | some excess =>
              rw [hbelow] at h
              cases h
              obtain ⟨node, hnode, hexcess⟩ := ihchildren hbelow
              exact ⟨node, Forest.mem_cons.mpr (.inr (.inl hnode)), hexcess⟩
          | none =>
              rw [hbelow] at h
              obtain ⟨node, hnode, hexcess⟩ := ihsiblings h
              exact ⟨node, Forest.mem_cons.mpr (.inr (.inr hnode)), hexcess⟩

theorem excess?_eq_none_iff {m : Mapping} {named : Bool} :
    excess? m named = none ↔ m.sizes.length ≤ maxWord ∧ m.properties.length ≤ maxWord ∧
      ∀ node ∈ m.properties, node.Writable named := by
  rw [← excessOf?_eq_none_iff, ← excessOf?_eq_none_iff, ← forestExcess?_eq_none_iff, excess?]
  cases excessOf? .sizeTable m.sizes.length with
  | some excess => simp
  | none => cases excessOf? .propertyList m.properties.length <;> simp

theorem encode_eq_ok_iff {m : Mapping} {named : Bool} {written : List UInt8} :
    encode m named = .ok written ↔ excess? m named = none ∧ written = bytes m named := by
  unfold encode
  cases excess? m named with
  | some excess => simp
  | none => simp [eq_comm]

theorem encode_eq_error_iff {m : Mapping} {named : Bool} {e : Excess} :
    encode m named = .error e ↔ excess? m named = some e := by
  unfold encode
  cases excess? m named <;> simp

end Artifact
end FieldMap
