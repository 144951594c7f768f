import FieldMap.Mapping

/-!
# Properties at any depth

A forest is built from properties that stand side by side, and each of these has a
forest below it.  This module gives statements about all properties of a forest:

* `node ∈ f` says that the property occurs in the forest, at whatever depth;
* `Node.leaves` are the indices of the leaves of one property, its own index if it is a
  leaf itself;
* `Forest.depth` is the largest number of properties with children on a way from the top
  to a leaf.

The lemmas say what these come to on a forest that is given by a list of nodes.
-/

namespace FieldMap

/-- The indices of the leaves of one property. -/
def Node.leaves (node : Node) : List UInt16 :=
  if node.children.isEmpty then [node.index] else node.children.leaves

namespace Forest

/-- The property occurs in the forest. -/
def Mem (node : Node) : Forest → Prop
  | nil => False
  | cons index name children siblings =>
      node = ⟨index, name, children⟩ ∨ Mem node children ∨ Mem node siblings

instance : Membership Node Forest :=
  ⟨fun f node => Mem node f⟩

/-- The most properties with children on the way from the top to a leaf. -/
def depth : Forest → Nat
  | nil => 0
  | cons _ _ children siblings =>
      max (if children.isEmpty then 0 else depth children + 1) (depth siblings)

theorem isEmpty_eq_true_iff {f : Forest} : f.isEmpty = true ↔ f = nil := by
  cases f <;> simp [isEmpty]

theorem isEmpty_eq_false_iff {f : Forest} : f.isEmpty = false ↔ f ≠ nil := by
  cases f <;> simp [isEmpty]

theorem length_pos_iff {f : Forest} : 0 < f.length ↔ f ≠ nil := by
  cases f <;> simp

@[simp] theorem not_mem_nil (node : Node) : ¬ node ∈ nil :=
  fun h => h

@[simp] theorem mem_cons {node : Node} {index : UInt16} {name : Option String}
    {children siblings : Forest} :
    node ∈ cons index name children siblings ↔
      node = ⟨index, name, children⟩ ∨ node ∈ children ∨ node ∈ siblings :=
  Iff.rfl

/-- What is said of all properties is said of the first, of those below it and of those
after it. -/
theorem forall_mem_cons {motive : Node → Prop} {index : UInt16} {name : Option String}
    {children siblings : Forest} :
    (∀ node ∈ cons index name children siblings, motive node) ↔
      motive ⟨index, name, children⟩ ∧ (∀ node ∈ children, motive node) ∧
        ∀ node ∈ siblings, motive node := by
  simp only [mem_cons, or_imp, forall_and, forall_eq]

/-- A property occurs in a forest if it is one of the nodes or occurs below one of them. -/
theorem mem_ofNodes {node : Node} {nodes : List Node} :
    node ∈ ofNodes nodes ↔ ∃ top ∈ nodes, node = top ∨ node ∈ top.children := by
  induction nodes with
  | nil => simp
  | cons top nodes ih =>
      rw [ofNodes_cons, push, mem_cons, ih]
      simp [or_assoc]

/-- The indices of the leaves are those of the properties without children. -/
theorem mem_leaves {index : UInt16} {f : Forest} :
    index ∈ f.leaves ↔ ∃ node ∈ f, node.children = nil ∧ node.index = index := by
  induction f with
  | nil => simp
  | cons first name children siblings ihchildren ihsiblings =>
      rw [leaves_cons, List.mem_append, ihsiblings]
      cases hempty : children.isEmpty with
      | true =>
          obtain rfl := isEmpty_eq_true_iff.mp hempty
          simp [or_and_right, exists_or, eq_comm]
      | false =>
          have hne := isEmpty_eq_false_iff.mp hempty
          simp [ihchildren, hne, or_and_right, exists_or]

/-- A forest is no deeper than the forests below its nodes, and one level more. -/
theorem depth_ofNodes_le {nodes : List Node} {bound : Nat}
    (h : ∀ node ∈ nodes, node.children.depth ≤ bound) : (ofNodes nodes).depth ≤ bound + 1 := by
  induction nodes with
  | nil => exact Nat.zero_le _
  | cons top nodes ih =>
      have htop := h top List.mem_cons_self
      have hrest := ih fun node hnode => h node (List.mem_cons_of_mem _ hnode)
      rw [ofNodes_cons, push, depth]
      split <;> omega

end Forest
end FieldMap
