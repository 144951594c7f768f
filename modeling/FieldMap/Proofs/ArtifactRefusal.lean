import FieldMap.Proofs.ArtifactRoundTrip

/-!
# Which written mappings come back

Writing asks of a mapping only that its lists and names can be counted, so a file may hold
what no reader accepts: a leaf that points outside the table, or properties that are too
deep.  This module says of an arbitrary mapping what its file is read as.

* `Mapping.Readable` is the condition, on the properties alone.
* `Forest.visits` lists the properties in preorder, each with the number of properties above
  it, and `Visit.fault?` judges one of them without a look at the others.
* `Forest.fault?_eq_findSome?`: the refusal of the reader is the first of these judgements.
* `decode_of_encode_eq_ok` puts them together for a whole file.
-/

namespace FieldMap

/-- A property that is met in preorder, and how many properties stand above it. -/
structure Visit where
  above : Nat
  node : Node
  deriving Repr

/-- Why a reader stops at a property, with a table of so many sizes. -/
def Visit.fault? (sizeCount : Nat) (visit : Visit) : Option Artifact.FormatError :=
  if visit.node.children.isEmpty then
    if sizeCount ≤ visit.node.index.toNat then
      some (.indexOutOfRange visit.node.index sizeCount)
    else none
  else if maxDepth ≤ visit.above then some .tooDeep
  else none

namespace Forest

/-- The properties in preorder, with so many properties above the top. -/
def visits (above : Nat) : Forest → List Visit
  | nil => []
  | cons index name children siblings =>
      ⟨above, ⟨index, name, children⟩⟩ :: (visits (above + 1) children ++ visits above siblings)

/-- The refusal of a reader is that of the first property in preorder at which there is one:
nothing before it is refused, and what comes after it is not looked at. -/
theorem fault?_eq_findSome? {sizeCount room above : Nat} (hroom : above + room = maxDepth)
    (f : Forest) : f.fault? sizeCount room = (f.visits above).findSome? (Visit.fault? sizeCount) := by
  induction f generalizing room above with
  | nil => rfl
  | cons index name children siblings ihchildren ihsiblings =>
      rw [fault?, visits, List.findSome?_cons, List.findSome?_append, ← ihsiblings hroom,
        Visit.fault?]
      cases hempty : children.isEmpty with
      | true =>
          obtain rfl := isEmpty_eq_true_iff.mp hempty
          by_cases hindex : sizeCount ≤ index.toNat
          · simp [hindex]
          · simp [hindex, visits]
      | false =>
          cases room with
          | zero =>
              have hfull : maxDepth ≤ above := Nat.le_of_eq hroom.symm
              simp [hfull]
          | succ room =>
              have hfree : ¬ maxDepth ≤ above := by omega
              have hbelow : above + 1 + room = maxDepth := by omega
              simp [hfree, ihchildren hbelow]

end Forest

/-- Every leaf points into the table, and no way from the top to a leaf passes more than 256
properties with children. -/
structure Mapping.Readable (m : Mapping) : Prop where
  leaves : ∀ node ∈ m.properties, node.children = .nil → node.index.toNat < m.sizes.length
  depth : m.properties.depth ≤ 256

theorem Mapping.readable_iff {m : Mapping} :
    m.Readable ↔ m.properties.fault? m.sizes.length maxDepth = none := by
  rw [Forest.fault?_eq_none_iff]
  constructor
  · intro h
    refine ⟨?_, h.depth⟩
    intro index hindex
    obtain ⟨node, hnode, hleaf, rfl⟩ := Forest.mem_leaves.mp hindex
    exact h.leaves node hnode hleaf
  · rintro ⟨hleaves, hdepth⟩
    refine ⟨?_, hdepth⟩
    intro node hnode hleaf
    exact hleaves node.index (Forest.mem_leaves.mpr ⟨node, hnode, hleaf, rfl⟩)

namespace Artifact

/-- A file that was written from any mapping is accepted exactly when the mapping is readable.
It then comes back with the index of the first leaf below it on every property with children,
and with names on all properties or on none; otherwise the outcome is the refusal of the first
property in preorder that has one. -/
theorem decode_of_encode_eq_ok {m : Mapping} {named : Bool} {written : List UInt8}
    (hwritten : encode m named = .ok written) :
    ((∃ back, decode written = .ok back) ↔ m.Readable) ∧
      (m.Readable → decode written = .ok ⟨m.sizes, m.properties.normal named⟩) ∧
      (¬ m.Readable → ∃ e, decode written = .error e ∧
        (m.properties.visits 0).findSome? (Visit.fault? m.sizes.length) = some e) := by
  obtain ⟨hexcess, rfl⟩ := encode_eq_ok_iff.mp hwritten
  have hback := decode_bytes hexcess
  rw [← Forest.fault?_eq_findSome? (Nat.zero_add maxDepth), Mapping.readable_iff]
  cases hfault : m.properties.fault? m.sizes.length maxDepth with
  | none =>
      rw [hfault] at hback
      exact ⟨⟨fun _ => rfl, fun _ => ⟨_, hback⟩⟩, fun _ => hback, fun h => absurd rfl h⟩
  | some e =>
      rw [hfault] at hback
      refine ⟨⟨?_, nofun⟩, nofun, fun _ => ⟨e, hback, rfl⟩⟩
      rintro ⟨back, hread⟩
      rw [hback] at hread
      cases hread

/-- A mapping no compilation makes: indices at random, one name empty and one absent. -/
def looseMapping (last : UInt16) : Mapping where
  sizes := [4, 8]
  properties := .ofNodes
    [⟨7, some "", .ofNodes [⟨1, none, .nil⟩, ⟨0, some "x", .nil⟩]⟩, ⟨last, some "y", .nil⟩]

/-- The loose mapping comes back in normal form if its last leaf points at the second entry of
the table, and is refused if it points behind it. -/
theorem looseMapping_back :
    (∃ written, encode (looseMapping 1) true = .ok written ∧ decode written = .ok
      ⟨[4, 8], .ofNodes [⟨1, some "", .ofNodes [⟨1, some "", .nil⟩, ⟨0, some "x", .nil⟩]⟩,
        ⟨1, some "y", .nil⟩]⟩) ∧
    ∃ written, encode (looseMapping 2) false = .ok written ∧
      decode written = .error (.indexOutOfRange 2 2) := by
  constructor
  · have hwritten : encode (looseMapping 1) true = .ok (bytes (looseMapping 1) true) := rfl
    have hreadable : (looseMapping 1).Readable := Mapping.readable_iff.mpr rfl
    exact ⟨_, hwritten, (decode_of_encode_eq_ok hwritten).2.1 hreadable⟩
  · have hwritten : encode (looseMapping 2) false = .ok (bytes (looseMapping 2) false) := rfl
    have hrefused : ¬ (looseMapping 2).Readable := by
      rw [Mapping.readable_iff]
      exact nofun
    obtain ⟨e, hread, hfirst⟩ := (decode_of_encode_eq_ok hwritten).2.2 hrefused
    cases hfirst
    exact ⟨_, hwritten, hread⟩

end Artifact
end FieldMap
