/-!
# Mappings

A mapping is a table of byte sizes and a forest of properties that point into it.
A property without children is a leaf, and its index is the entry of the table it
stands for; a property with children is a struct or an array, and carries the
index of its first leaf.

The forest is kept in the form of first child and next sibling: one property, the
properties below it, and the properties after it.  Recursion on this form needs no
lists inside the tree, and every traversal here is a loop along the siblings, so
that a level of many thousand properties costs no stack.
-/

namespace FieldMap

/-- The most entries of a size table, and the most properties side by side. -/
def maxCount : Nat := 65535

/-- The most properties with children on the way from the top to a leaf. -/
def maxDepth : Nat := 256

/-- Properties side by side, each with the properties below it. -/
inductive Forest
  | nil
  | cons (index : UInt16) (name : Option String) (children siblings : Forest)
  deriving Repr, Inhabited

/-- One property with everything below it. -/
structure Node where
  index : UInt16
  name : Option String
  children : Forest
  deriving Repr, Inhabited

namespace Forest

/-- Equality, looked for from the first property on. -/
def beq : Forest → Forest → Bool
  | nil, nil => true
  | cons i name children siblings, cons i' name' children' siblings' =>
    i == i' && name == name' && beq children children' && beq siblings siblings'
  | _, _ => false

theorem beq_eq_true_iff (f g : Forest) : beq f g = true ↔ f = g := by
  induction f generalizing g with
  | nil => cases g <;> simp [beq]
  | cons i name children siblings ihc ihs =>
    cases g with
    | nil => simp [beq]
    | cons i' name' children' siblings' => simp [beq, ihc, ihs, and_assoc]

instance : DecidableEq Forest := fun f g =>
  decidable_of_iff (beq f g = true) (beq_eq_true_iff f g)

/-- There is no property. -/
def isEmpty : Forest → Bool
  | nil => true
  | cons .. => false

/-- The properties side by side, counted onto a number. -/
def lengthOnto (n : Nat) : Forest → Nat
  | nil => n
  | cons _ _ _ siblings => lengthOnto (n + 1) siblings

/-- How many properties stand side by side. -/
def length (f : Forest) : Nat :=
  lengthOnto 0 f

/-- The property in front of a forest. -/
def push (node : Node) (f : Forest) : Forest :=
  cons node.index node.name node.children f

/-- The forest of nodes given in reverse order. -/
def ofReversed (nodes : List Node) : Forest :=
  nodes.foldl (fun f node => push node f) nil

/-- The forest of nodes. -/
def ofNodes (nodes : List Node) : Forest :=
  ofReversed nodes.reverse

/-- The properties side by side, onto nodes in reverse order. -/
def nodesOnto (nodes : List Node) : Forest → List Node
  | nil => nodes
  | cons index name children siblings => nodesOnto (⟨index, name, children⟩ :: nodes) siblings

/-- The properties side by side. -/
def nodes (f : Forest) : List Node :=
  (nodesOnto [] f).reverse

/-- The index of the first property. -/
def firstIndex? : Forest → Option UInt16
  | nil => none
  | cons index .. => some index

/-- The indices of the leaves, onto indices in reverse order. -/
def leavesOnto (indices : List UInt16) : Forest → List UInt16
  | nil => indices
  | cons index _ children siblings =>
    leavesOnto (if children.isEmpty then index :: indices else leavesOnto indices children) siblings

/-- The indices of the leaves, depth first and in order. -/
def leaves (f : Forest) : List UInt16 :=
  (leavesOnto [] f).reverse

/-- Some property has a name. -/
def isNamed : Forest → Bool
  | nil => false
  | cons _ name children siblings => name.isSome || isNamed children || isNamed siblings

/-- One property as it is met in preorder, with the number of properties above it. -/
structure Entry where
  depth : Nat
  index : UInt16
  name : Option String
  deriving DecidableEq, Repr

/-- The properties in preorder, onto entries in reverse order. -/
def preorderOnto (depth : Nat) (entries : List Entry) : Forest → List Entry
  | nil => entries
  | cons index name children siblings =>
    preorderOnto depth (preorderOnto (depth + 1) (⟨depth, index, name⟩ :: entries) children)
      siblings

/-- The properties in preorder. -/
def preorder (f : Forest) : List Entry :=
  (preorderOnto 0 [] f).reverse

theorem lengthOnto_eq (n : Nat) (f : Forest) : lengthOnto n f = n + length f := by
  unfold length
  induction f generalizing n with
  | nil => rfl
  | cons _ _ _ siblings _ ih => simp only [lengthOnto]; rw [ih, ih 1]; omega

@[simp] theorem length_nil : length nil = 0 := rfl

@[simp] theorem length_cons (index : UInt16) (name : Option String) (children siblings : Forest) :
    length (cons index name children siblings) = length siblings + 1 := by
  show lengthOnto 1 siblings = _
  rw [lengthOnto_eq, Nat.add_comm]

theorem leavesOnto_eq (indices : List UInt16) (f : Forest) :
    leavesOnto indices f = (leaves f).reverse ++ indices := by
  unfold leaves
  induction f generalizing indices with
  | nil => rfl
  | cons index name children siblings ihc ihs =>
    simp only [leavesOnto]
    rw [ihs, ihs (if children.isEmpty then [index] else leavesOnto [] children), ihc]
    split <;> simp

@[simp] theorem leaves_nil : leaves nil = [] := rfl

/-- A property without children is a leaf; otherwise the leaves are those below it. -/
theorem leaves_cons (index : UInt16) (name : Option String) (children siblings : Forest) :
    leaves (cons index name children siblings) =
      (if children.isEmpty then [index] else leaves children) ++ leaves siblings := by
  show (leavesOnto _ siblings).reverse = _
  rw [leavesOnto_eq]
  split <;> simp [leavesOnto_eq]

theorem nodesOnto_eq (nodes : List Node) (f : Forest) :
    nodesOnto nodes f = (f.nodes).reverse ++ nodes := by
  unfold Forest.nodes
  induction f generalizing nodes with
  | nil => rfl
  | cons index name children siblings _ ih =>
    simp only [nodesOnto]
    rw [ih, ih [⟨index, name, children⟩]]
    simp

@[simp] theorem nodes_nil : nodes nil = [] := rfl

@[simp] theorem nodes_cons (index : UInt16) (name : Option String) (children siblings : Forest) :
    nodes (cons index name children siblings) = ⟨index, name, children⟩ :: nodes siblings := by
  show (nodesOnto [⟨index, name, children⟩] siblings).reverse = _
  rw [nodesOnto_eq]
  simp

@[simp] theorem ofNodes_nil : ofNodes [] = nil := rfl

@[simp] theorem ofNodes_cons (node : Node) (nodes : List Node) :
    ofNodes (node :: nodes) = push node (ofNodes nodes) := by
  simp [ofNodes, ofReversed]

/-- A forest is the same thing as the list of its nodes. -/
@[simp] theorem ofNodes_nodes (f : Forest) : ofNodes f.nodes = f := by
  induction f with
  | nil => rfl
  | cons index name children siblings _ ih => simp [ih, push]

@[simp] theorem nodes_ofNodes (nodes : List Node) : (ofNodes nodes).nodes = nodes := by
  induction nodes with
  | nil => rfl
  | cons node nodes ih => simp [ih, push]

end Forest

/-- A table of sizes and the properties that point into it. -/
structure Mapping where
  sizes : List UInt8 := []
  properties : Forest := .nil
  deriving DecidableEq, Repr

namespace Mapping

/-- The indices of the leaves, depth first and in order. -/
def leafIndices (m : Mapping) : List UInt16 :=
  m.properties.leaves

/-- The bytes of all entries together. -/
def totalSize (m : Mapping) : Nat :=
  m.sizes.foldl (fun total size => total + size.toNat) 0

/-- Some property has a name. -/
def hasNames (m : Mapping) : Bool :=
  m.properties.isNamed

end Mapping
end FieldMap
