import FieldMap.Proofs.ArtifactRefusal

/-!
# The first excess

A mapping file is made of parts that are counted in two bytes, and a mapping is refused for the
first of them that has too many entries.  Here the parts are listed in the order of the file,
whether they can be counted or not, and the writer is shown to look through this list.

* `Node.counted` are the parts of one property: its children come before its name.
* `counted` are the parts of a mapping: the two tables, and then the properties in preorder.
* `encode_refuses_first_excess` says when a mapping is written, and what is reported otherwise.
-/

namespace FieldMap

open Artifact (Part)

/-- The parts of a property with their numbers of entries: its children, and its name where names
are written. -/
def Node.counted (named : Bool) (node : Node) : List (Part × Nat) :=
  (.childList, node.children.length) ::
    if named then [(.debugName, (node.name.getD "").utf8ByteSize)] else []

namespace Artifact

/-- The parts of a file with their numbers of entries, in the order of the file. -/
def counted (m : Mapping) (named : Bool) : List (Part × Nat) :=
  (.sizeTable, m.sizes.length) :: (.propertyList, m.properties.length) ::
    (m.properties.visits 0).flatMap fun visit => visit.node.counted named

/-- The first part of a list that cannot be counted. -/
def firstExcess? (parts : List (Part × Nat)) : Option Excess :=
  parts.findSome? fun (part, count) => excessOf? part count

theorem firstExcess?_cons (part : Part) (count : Nat) (parts : List (Part × Nat)) :
    firstExcess? ((part, count) :: parts) = (excessOf? part count).or (firstExcess? parts) := by
  rw [firstExcess?, List.findSome?_cons]
  dsimp only
  cases excessOf? part count <;> rfl

theorem firstExcess?_append (front back : List (Part × Nat)) :
    firstExcess? (front ++ back) = (firstExcess? front).or (firstExcess? back) :=
  List.findSome?_append

/-- A first excess has nothing in front of it that is one. -/
theorem firstExcess?_eq_some_iff {parts : List (Part × Nat)} {e : Excess} :
    firstExcess? parts = some e ↔ ∃ before after, parts = before ++ (e.part, e.count) :: after ∧
      (∀ entry ∈ before, entry.2 ≤ maxWord) ∧ maxWord < e.count := by
  simp only [firstExcess?, List.findSome?_eq_some_iff, excessOf?_eq_none_iff,
    excessOf?_eq_some_iff]
  constructor
  · rintro ⟨before, ⟨part, count⟩, after, hparts, ⟨hcount, rfl⟩, hbefore⟩
    exact ⟨before, after, hparts, hbefore, hcount⟩
  · rintro ⟨before, after, hparts, hbefore, hcount⟩
    exact ⟨before, (e.part, e.count), after, hparts, ⟨hcount, rfl⟩, hbefore⟩

theorem ownExcess?_eq_firstExcess? (named : Bool) (node : Node) :
    ownExcess? named node.name node.children = firstExcess? (node.counted named) := by
  rw [ownExcess?, Node.counted, firstExcess?_cons]
  cases excessOf? .childList node.children.length with
  | some e => rfl
  | none =>
      cases named with
      | false => rfl
      | true => exact (Option.or_none).symm.trans (firstExcess?_cons _ _ []).symm

/-- What is found among properties is the first excess in preorder. -/
theorem forestExcess?_eq_firstExcess? (named : Bool) (above : Nat) (f : Forest) :
    forestExcess? named f =
      firstExcess? ((f.visits above).flatMap fun visit => visit.node.counted named) := by
  induction f generalizing above with
  | nil => rfl
  | cons index name children siblings ihchildren ihsiblings =>
      have hown := ownExcess?_eq_firstExcess? named ⟨index, name, children⟩
      rw [Forest.visits, List.flatMap_cons, List.flatMap_append, firstExcess?_append,
        firstExcess?_append, ← ihchildren, ← ihsiblings, ← hown, forestExcess?]
      cases ownExcess? named name children with
      | some e => rfl
      | none => cases forestExcess? named children <;> rfl

/-- The writer looks through the parts in the order of the file. -/
theorem excess?_eq_firstExcess? (m : Mapping) (named : Bool) :
    excess? m named = firstExcess? (counted m named) := by
  rw [excess?, forestExcess?_eq_firstExcess? named 0, counted, firstExcess?_cons,
    firstExcess?_cons]
  cases excessOf? .sizeTable m.sizes.length with
  | some e => rfl
  | none => cases excessOf? .propertyList m.properties.length <;> rfl

/-- A mapping is written exactly if its size table, its property list and the children of every
property have at most 65535 entries, and, where names are written, every name has at most 65535
bytes.  Otherwise it is refused for the first excess in the order of the file. -/
theorem encode_refuses_first_excess (m : Mapping) (named : Bool) :
    ((∃ written, encode m named = .ok written) ↔
      m.sizes.length ≤ 65535 ∧ m.properties.length ≤ 65535 ∧
        ∀ node ∈ m.properties, node.children.length ≤ 65535 ∧
          (named = true → (node.name.getD "").utf8ByteSize ≤ 65535)) ∧
      ∀ e, encode m named = .error e ↔
        ∃ before after, counted m named = before ++ (e.part, e.count) :: after ∧
          (∀ entry ∈ before, entry.2 ≤ 65535) ∧ 65535 < e.count := by
  constructor
  · simp only [encode_eq_ok_iff, exists_and_left, exists_eq, and_true]
    exact excess?_eq_none_iff
  · intro e
    rw [encode_eq_error_iff, excess?_eq_firstExcess?]
    exact firstExcess?_eq_some_iff

end Artifact
end FieldMap
