import FieldMap.Mapping
import FieldMap.Scope
import Mathlib.Algebra.BigOperators.Group.List.Basic
import Mathlib.Algebra.GroupWithZero.Nat

/-!
# Unfoldings

A struct refers to other structs by name, so what it holds depends on a scope.  An
`Unfolding` is the finite tree that is left when every reference has been followed.
It needs neither a scope nor a bound on the depth, and everything a mapping shows is
read off it by structural recursion:

* `flat` is the table of sizes, an array repeating the table of its struct;
* `forest` is the forest of properties, with all indices and names;
* `leafCount` and `byteSize` count leaves and bytes.

`Unfolds` ties an unfolding to the members it comes from.  A cyclic struct, or one
with a type that nothing declares, has no unfolding; no struct has two.

`Admits` says which unfoldings a compilation accepts: what may stand below a trail of
structs being expanded, with room for so many levels.
-/

namespace FieldMap

/-- The count of every member is absent or at least one. -/
def Struct.Counted (s : Struct) : Prop :=
  ∀ member ∈ s.members, ∀ count, member.count = some count → 1 ≤ count

/-- The counts of all structs of the scope are absent or at least one. -/
def Scope.Counted (scope : Scope) : Prop :=
  ∀ s ∈ scope.structs, s.Counted

theorem Struct.counted_iff (s : Struct) : s.Counted ↔ ∀ member ∈ s.members, 0 < member.copies := by
  refine forall_congr' fun member => imp_congr_right fun _ => ?_
  unfold Member.copies
  cases member.count with
  | none => simp
  | some count => simp [Nat.pos_iff_ne_zero, Nat.one_le_iff_ne_zero]

theorem Struct.Counted.copies_pos {s : Struct} (hs : s.Counted) {member : Member}
    (hmember : member ∈ s.members) : 0 < member.copies :=
  s.counted_iff.mp hs member hmember

instance (s : Struct) : Decidable s.Counted :=
  decidable_of_iff _ s.counted_iff.symm

instance (scope : Scope) : Decidable scope.Counted :=
  inferInstanceAs (Decidable (∀ s ∈ scope.structs, s.Counted))

theorem Scope.mem_structs_of_resolve {scope : Scope} {name : String} {s : Struct}
    (h : scope.resolve name = .struct s) : s ∈ scope.structs := by
  unfold Scope.resolve at h
  split at h
  · cases h
  · split at h
    · cases h
      exact List.mem_of_find?_eq_some ‹_›
    · cases h

theorem Scope.Counted.of_resolve {scope : Scope} (hscope : scope.Counted) {name : String}
    {s : Struct} (h : scope.resolve name = .struct s) : s.Counted :=
  hscope s (Scope.mem_structs_of_resolve h)

/-- How many levels of properties a member of struct type opens: a single struct one, an
array one for itself and one for its elements. -/
def Member.levels (member : Member) : Nat :=
  if member.copies = 1 then 1 else 2

/-- Members with all references followed, down to the primitives. -/
inductive Unfolding
  | nil
  | primitive (member : Member) (type : Primitive) (rest : Unfolding)
  | nested (member : Member) (type : Struct) (inner rest : Unfolding)

/-- The unfolding is that of the members. -/
inductive Unfolds (scope : Scope) : List Member → Unfolding → Prop
  | nil : Unfolds scope [] .nil
  | primitive {member : Member} {type : Primitive} {members : List Member} {rest : Unfolding}
      (hresolve : scope.resolve member.typeName = .primitive type)
      (hrest : Unfolds scope members rest) :
      Unfolds scope (member :: members) (.primitive member type rest)
  | nested {member : Member} {type : Struct} {members : List Member} {inner rest : Unfolding}
      (hresolve : scope.resolve member.typeName = .struct type)
      (hinner : Unfolds scope type.members inner) (hrest : Unfolds scope members rest) :
      Unfolds scope (member :: members) (.nested member type inner rest)

namespace Unfolding

/-- The sizes of the leaves in order. -/
def flat : Unfolding → List Nat
  | nil => []
  | primitive member type rest => type.size * member.copies :: rest.flat
  | nested member _ inner rest => (List.replicate member.copies inner.flat).flatten ++ rest.flat

/-- The number of leaves. -/
def leafCount : Unfolding → Nat
  | nil => 0
  | primitive _ _ rest => 1 + rest.leafCount
  | nested member _ inner rest => member.copies * inner.leafCount + rest.leafCount

/-- The bytes of all members together. -/
def byteSize : Unfolding → Nat
  | nil => 0
  | primitive member type rest => member.copies * type.size + rest.byteSize
  | nested member _ inner rest => member.copies * inner.byteSize + rest.byteSize

/-- A name, where properties have names. -/
def label (named : Bool) (name : String) : Option String :=
  if named then some name else none

/-- The properties over the elements of an array, the first of them at `start`, each so
many leaves after the one before. -/
def elements (named : Bool) (member : Member) (inner : (start : Nat) → Forest)
    (leaves start : Nat) (positions : List Nat) : Forest :=
  Forest.ofNodes <| positions.map fun position =>
    ⟨UInt16.ofNat (start + position * leaves),
      label named (member.name ++ "[" ++ toString position ++ "]"),
      inner (start + position * leaves)⟩

/-- The properties below a member of struct type: those of the struct, or those over the
elements if the member is an array. -/
def content (named : Bool) (member : Member) (inner : (start : Nat) → Forest)
    (leaves start : Nat) : Forest :=
  if member.copies = 1 then inner start
  else elements named member inner leaves start (List.range member.copies)

/-- The properties, the first leaf having the index `start`. -/
def forest (named : Bool) : Unfolding → (start : Nat) → Forest
  | nil, _ => .nil
  | primitive member _ rest, start =>
      .cons (UInt16.ofNat start) (label named member.name) .nil (rest.forest named (start + 1))
  | nested member _ inner rest, start =>
      .cons (UInt16.ofNat start) (label named member.name)
        (content named member (inner.forest named) inner.leafCount start)
        (rest.forest named (start + member.copies * inner.leafCount))

/-- Every member can be placed below the trail, within so many levels. -/
def Admits : Unfolding → (trail : List String) → (room : Nat) → Prop
  | nil, _, _ => True
  | primitive member type rest, trail, room =>
      type.size * member.copies ≤ 255 ∧ rest.Admits trail room
  | nested member type inner rest, trail, room =>
      type.name ∉ trail ∧ type.members ≠ [] ∧ member.levels ≤ room ∧
        inner.Admits (type.name :: trail) (room - member.levels) ∧ rest.Admits trail room

theorem elements_cons (named : Bool) (member : Member) (inner : (start : Nat) → Forest)
    (leaves start position : Nat) (positions : List Nat) :
    elements named member inner leaves start (position :: positions) =
      .cons (UInt16.ofNat (start + position * leaves))
        (label named (member.name ++ "[" ++ toString position ++ "]"))
        (inner (start + position * leaves))
        (elements named member inner leaves start positions) :=
  Forest.ofNodes_cons _ _

/-! ## Sizes -/

theorem length_flat (tree : Unfolding) : tree.flat.length = tree.leafCount := by
  induction tree with
  | nil => rfl
  | primitive member type rest ih => simp [flat, leafCount, ih, Nat.add_comm]
  | nested member type inner rest ihinner ihrest => simp [flat, leafCount, ihinner, ihrest]

/-- The sizes of the leaves add up to the bytes of the members. -/
theorem sum_flat (tree : Unfolding) : tree.flat.sum = tree.byteSize := by
  induction tree with
  | nil => rfl
  | primitive member type rest ih => simp [flat, byteSize, ih, Nat.mul_comm]
  | nested member type inner rest ihinner ihrest =>
      rw [flat, byteSize, List.sum_append, List.sum_flatten, List.map_replicate, List.sum_replicate,
        ihinner, ihrest, Nat.nsmul_eq_mul]

/-- The sizes of an admitted unfolding fit in a byte. -/
theorem Admits.le_of_mem_flat {tree : Unfolding} {trail : List String} {room : Nat}
    (h : tree.Admits trail room) : ∀ size ∈ tree.flat, size ≤ 255 := by
  induction tree generalizing trail room with
  | nil => simp [flat]
  | primitive member type rest ih =>
      obtain ⟨hsize, hrest⟩ := h
      intro size hmem
      rcases List.mem_cons.mp hmem with rfl | hmem
      · exact hsize
      · exact ih hrest size hmem
  | nested member type inner rest ihinner ihrest =>
      obtain ⟨_, _, _, hinner, hrest⟩ := h
      intro size hmem
      rcases List.mem_append.mp hmem with hmem | hmem
      · obtain ⟨sizes, hsizes, hmem⟩ := List.mem_flatten.mp hmem
        rw [List.eq_of_mem_replicate hsizes] at hmem
        exact ihinner hinner size hmem
      · exact ihrest hrest size hmem

end Unfolding

namespace Unfolds

variable {scope : Scope} {members : List Member} {tree : Unfolding}

theorem not_cons_of_unresolved {member : Member}
    (hresolve : scope.resolve member.typeName = .unresolved) :
    ¬ Unfolds scope (member :: members) tree := by
  intro h
  cases h with
  | primitive hfound _ =>
      rw [hresolve] at hfound
      cases hfound
  | nested hfound _ _ =>
      rw [hresolve] at hfound
      cases hfound

theorem cons_iff_of_primitive {member : Member} {type : Primitive}
    (hresolve : scope.resolve member.typeName = .primitive type) :
    Unfolds scope (member :: members) tree ↔
      ∃ rest, Unfolds scope members rest ∧ tree = .primitive member type rest := by
  constructor
  · intro h
    cases h with
    | primitive hfound hrest =>
        rw [hresolve] at hfound
        cases hfound
        exact ⟨_, hrest, rfl⟩
    | nested hfound _ _ =>
        rw [hresolve] at hfound
        cases hfound
  · rintro ⟨rest, hrest, rfl⟩
    exact .primitive hresolve hrest

theorem cons_iff_of_struct {member : Member} {type : Struct}
    (hresolve : scope.resolve member.typeName = .struct type) :
    Unfolds scope (member :: members) tree ↔
      ∃ inner rest, Unfolds scope type.members inner ∧ Unfolds scope members rest ∧
        tree = .nested member type inner rest := by
  constructor
  · intro h
    cases h with
    | primitive hfound _ =>
        rw [hresolve] at hfound
        cases hfound
    | nested hfound hinner hrest =>
        rw [hresolve] at hfound
        cases hfound
        exact ⟨_, _, hinner, hrest, rfl⟩
  · rintro ⟨inner, rest, hinner, hrest, rfl⟩
    exact .nested hresolve hinner hrest

/-- Members have at most one unfolding. -/
theorem unique (h : Unfolds scope members tree) {tree' : Unfolding}
    (h' : Unfolds scope members tree') : tree = tree' := by
  induction h generalizing tree' with
  | nil =>
      cases h'
      rfl
  | primitive hresolve _ ih =>
      obtain ⟨rest', hrest', rfl⟩ := (cons_iff_of_primitive hresolve).mp h'
      rw [ih hrest']
  | nested hresolve _ _ ihinner ihrest =>
      obtain ⟨inner', rest', hinner', hrest', rfl⟩ := (cons_iff_of_struct hresolve).mp h'
      rw [ihinner hinner', ihrest hrest']

/-- Every member has one property. -/
theorem length_forest (h : Unfolds scope members tree) (named : Bool) (start : Nat) :
    (tree.forest named start).length = members.length := by
  induction h generalizing start with
  | nil => rfl
  | primitive _ _ ih => simp [Unfolding.forest, ih]
  | nested _ _ _ _ ihrest => simp [Unfolding.forest, ihrest]

/-- Every member of an admitted unfolding has a leaf of its own. -/
theorem length_le_leafCount (hscope : scope.Counted) (h : Unfolds scope members tree)
    (hcounted : ∀ member ∈ members, 0 < member.copies) {trail : List String} {room : Nat}
    (hadmits : tree.Admits trail room) : members.length ≤ tree.leafCount := by
  induction h generalizing trail room with
  | nil => simp
  | primitive _ _ ih =>
      have hrest := ih (fun m hm => hcounted m (List.mem_cons_of_mem _ hm)) hadmits.2
      simp only [List.length_cons, Unfolding.leafCount]
      omega
  | @nested member type members inner rest hresolve _ _ ihinner ihrest =>
      obtain ⟨_, hne, _, hadinner, hadrest⟩ := hadmits
      have hrest := ihrest (fun m hm => hcounted m (List.mem_cons_of_mem _ hm)) hadrest
      have hinner := ihinner
        (fun m hm => (hscope.of_resolve hresolve).copies_pos hm) hadinner
      -- The struct has a member, this member a leaf, and the array repeats it at least once.
      have hcopies := hcounted member List.mem_cons_self
      have hpos : 0 < type.members.length := List.length_pos_iff.mpr hne
      have hmul : 1 * 1 ≤ member.copies * inner.leafCount :=
        Nat.mul_le_mul hcopies (by omega)
      simp only [List.length_cons, Unfolding.leafCount]
      omega

end Unfolds
end FieldMap
