import FieldMap.Proofs.LayoutSteps
import FieldMap.Proofs.Unfolding

/-!
# Compilation lays out unfoldings

A compilation meets the members of a struct one by one, with a trail, a level and a
number of entries so far, and stops at the first member that it cannot place.  The
unfolding of the struct knows nothing of this order.  This module shows that the two
agree:

* `IsLayout` says that a layout is that of the unfolding of some members, which the trail
  and the room admit and which still fits in the table;
* `LaysOut` is the statement for one room: from any start, a compilation makes of a struct
  exactly such a layout;
* `laysOut` proves it for every room, by strong induction, since an array expands its
  struct two levels below;
* `compileStruct_eq_ok_iff` is the statement for a whole compilation.

Both directions go along in each step: the unfolding comes out of a success below, and
the success below comes out of the unfolding.
-/

namespace FieldMap

/-- The layout of an unfolding from a start on. -/
def Unfolding.layout (named : Bool) (tree : Unfolding) (start : Nat) : Compile.Layout :=
  ⟨tree.flat.map UInt8.ofNat, tree.forest named start⟩

theorem Unfolding.length_sizes_layout (named : Bool) (tree : Unfolding) (start : Nat) :
    (tree.layout named start).sizes.length = tree.leafCount := by
  simp [layout, length_flat]

/-- The mapping of an unfolding. -/
def Unfolding.mapping (named : Bool) (tree : Unfolding) : Mapping :=
  ⟨tree.flat.map UInt8.ofNat, tree.forest named 0⟩

namespace Compile

theorem elementName_eq (member : Member) (position : Nat) :
    elementName member position = member.name ++ "[" ++ toString position ++ "]" :=
  rfl

/-- The layout of so many elements of an array that begins at `base`, the first of them
at the position `first`. -/
def elementsLayout (named : Bool) (member : Member) (inner : Unfolding) (base first count : Nat) :
    Layout :=
  ⟨(List.replicate count inner.flat).flatten.map UInt8.ofNat,
    Unfolding.elements named member (inner.forest named) inner.leafCount base
      (List.range' first count)⟩

theorem length_sizes_elementsLayout (named : Bool) (member : Member) (inner : Unfolding)
    (base first count : Nat) :
    (elementsLayout named member inner base first count).sizes.length =
      count * inner.leafCount := by
  simp [elementsLayout, Unfolding.length_flat]

/-- Elements in sequence, when each of them is laid out as the unfolding of its struct. -/
theorem inSequence_elements_iff (named : Bool) (member : Member) (inner : Unfolding) (base : Nat)
    (piece : Nat → Nat → Except CompileError (List UInt8 × Node))
    (hpiece : ∀ start position placed, start ≤ maxCount →
      (piece start position = .ok placed ↔ start + inner.leafCount ≤ maxCount ∧
        placed = (inner.flat.map UInt8.ofNat, ⟨UInt16.ofNat start,
          Unfolding.label named (elementName member position), inner.forest named start⟩)))
    (first count : Nat) (layout : Layout) (hstart : base + first * inner.leafCount ≤ maxCount) :
    inSequence piece (base + first * inner.leafCount) (List.range' first count) = .ok layout ↔
      base + (first + count) * inner.leafCount ≤ maxCount ∧
        layout = elementsLayout named member inner base first count := by
  induction count generalizing first layout with
  | zero =>
      have hnone : elementsLayout named member inner base first 0 = {} := rfl
      rw [hnone, List.range'_zero, inSequence, Except.ok.injEq, Nat.add_zero, eq_comm]
      exact (and_iff_right hstart).symm
  | succ count ih =>
      -- The first element ends where the next position begins.
      have hnext : base + first * inner.leafCount + inner.leafCount =
          base + (first + 1) * inner.leafCount := by
        rw [Nat.succ_mul]
        omega
      have hlast : first + 1 + count = first + (count + 1) := by omega
      have hsplit : elementsLayout named member inner base first (count + 1) =
          ⟨inner.flat.map UInt8.ofNat ++
              (elementsLayout named member inner base (first + 1) count).sizes,
            (elementsLayout named member inner base (first + 1) count).properties.push
              ⟨UInt16.ofNat (base + first * inner.leafCount),
                Unfolding.label named (elementName member first),
                inner.forest named (base + first * inner.leafCount)⟩⟩ := by
        simp [elementsLayout, List.replicate_succ, List.range'_succ, Unfolding.elements_cons,
          elementName_eq, Forest.push]
      rw [List.range'_succ, inSequence_cons_eq_ok_iff, hsplit]
      constructor
      · rintro ⟨sizes, node, tail, hfirst, htail, rfl⟩
        obtain ⟨hfits, hplaced⟩ := (hpiece _ _ _ hstart).mp hfirst
        obtain ⟨rfl, rfl⟩ := Prod.mk.inj hplaced
        rw [List.length_map, Unfolding.length_flat, hnext] at htail
        rw [hnext] at hfits
        obtain ⟨hall, rfl⟩ := (ih _ _ hfits).mp htail
        rw [hlast] at hall
        exact ⟨hall, rfl⟩
      · rintro ⟨hall, rfl⟩
        have hmono : (first + 1) * inner.leafCount ≤ (first + (count + 1)) * inner.leafCount :=
          Nat.mul_le_mul_right _ (by omega)
        have hfits : base + (first + 1) * inner.leafCount ≤ maxCount := by omega
        refine ⟨_, _, elementsLayout named member inner base (first + 1) count,
          (hpiece _ _ _ hstart).mpr ⟨by omega, rfl⟩, ?_, rfl⟩
        rw [List.length_map, Unfolding.length_flat, hnext]
        exact (ih _ _ hfits).mpr ⟨by rw [hlast]; exact hall, rfl⟩

/-! ## Layouts of unfoldings -/

/-- The layout is that of an admitted unfolding of the members, which fits in the table from
the start on. -/
def IsLayout (scope : Scope) (named : Bool) (trail : List String) (room : Nat)
    (members : List Member) (start : Nat) (layout : Layout) : Prop :=
  ∃ tree, Unfolds scope members tree ∧ tree.Admits trail room ∧
    start + tree.leafCount ≤ maxCount ∧ layout = tree.layout named start

section

variable {scope : Scope} {named : Bool} {trail : List String} {room start : Nat}
  {member : Member} {members : List Member} {layout : Layout}

theorem IsLayout.start_le (h : IsLayout scope named trail room members start layout) :
    start ≤ maxCount := by
  obtain ⟨tree, _, _, hfits, _⟩ := h
  omega

/-- Properties that are laid out need not be counted: each has a leaf, and these fit. -/
theorem IsLayout.length_le (h : IsLayout scope named trail room members start layout)
    (hscope : scope.Counted) (hmembers : ∀ m ∈ members, 0 < m.copies) :
    layout.properties.length ≤ maxCount := by
  obtain ⟨tree, htree, hadmits, hfits, rfl⟩ := h
  have hle := htree.length_le_leafCount hscope hmembers hadmits
  have hlength := htree.length_forest named start
  show (tree.forest named start).length ≤ maxCount
  omega

theorem isLayout_nil_iff (hstart : start ≤ maxCount) :
    IsLayout scope named trail room [] start layout ↔ layout = {} := by
  constructor
  · rintro ⟨tree, htree, _, _, rfl⟩
    cases htree
    rfl
  · rintro rfl
    exact ⟨.nil, .nil, trivial, hstart, rfl⟩

theorem isLayout_cons_iff_of_primitive {type : Primitive}
    (hresolve : scope.resolve member.typeName = .primitive type) :
    IsLayout scope named trail room (member :: members) start layout ↔
      type.size * member.copies ≤ 255 ∧
        ∃ tail, IsLayout scope named trail room members (start + 1) tail ∧
          layout = ⟨UInt8.ofNat (type.size * member.copies) :: tail.sizes,
            tail.properties.push
              ⟨UInt16.ofNat start, Unfolding.label named member.name, .nil⟩⟩ := by
  constructor
  · rintro ⟨tree, htree, hadmits, hfits, rfl⟩
    obtain ⟨rest, hrest, rfl⟩ := (Unfolds.cons_iff_of_primitive hresolve).mp htree
    simp only [Unfolding.leafCount] at hfits
    exact ⟨hadmits.1, rest.layout named (start + 1), ⟨rest, hrest, hadmits.2, by omega, rfl⟩, rfl⟩
  · rintro ⟨hbytes, _, ⟨rest, hrest, hadmits, hfits, rfl⟩, rfl⟩
    refine ⟨.primitive member type rest, .primitive hresolve hrest, ⟨hbytes, hadmits⟩, ?_, rfl⟩
    simp only [Unfolding.leafCount]
    omega

theorem isLayout_cons_iff_of_struct {nested : Struct}
    (hresolve : scope.resolve member.typeName = .struct nested) :
    IsLayout scope named trail room (member :: members) start layout ↔
      nested.name ∉ trail ∧ nested.members ≠ [] ∧ member.levels ≤ room ∧
        ∃ inner, Unfolds scope nested.members inner ∧
          inner.Admits (nested.name :: trail) (room - member.levels) ∧
          ∃ tail, IsLayout scope named trail room members
              (start + member.copies * inner.leafCount) tail ∧
            layout = ⟨(List.replicate member.copies inner.flat).flatten.map UInt8.ofNat ++
                tail.sizes,
              tail.properties.push ⟨UInt16.ofNat start, Unfolding.label named member.name,
                Unfolding.content named member (inner.forest named) inner.leafCount start⟩⟩ := by
  constructor
  · rintro ⟨tree, htree, hadmits, hfits, rfl⟩
    obtain ⟨inner, rest, hinner, hrest, rfl⟩ := (Unfolds.cons_iff_of_struct hresolve).mp htree
    obtain ⟨hcycle, hne, hlevels, hadinner, hadmits⟩ := hadmits
    simp only [Unfolding.leafCount] at hfits
    refine ⟨hcycle, hne, hlevels, inner, hinner, hadinner, rest.layout named _,
      ⟨rest, hrest, hadmits, by omega, rfl⟩, ?_⟩
    simp [Unfolding.layout, Unfolding.flat, Unfolding.forest, Forest.push]
  · rintro ⟨hcycle, hne, hlevels, inner, hinner, hadinner, _, ⟨rest, hrest, hadmits, hfits, rfl⟩,
      rfl⟩
    refine ⟨.nested member nested inner rest, .nested hresolve hinner hrest,
      ⟨hcycle, hne, hlevels, hadinner, hadmits⟩, ?_, ?_⟩
    · simp only [Unfolding.leafCount]
      omega
    · simp [Unfolding.layout, Unfolding.flat, Unfolding.forest, Forest.push]

end

/-- What a compilation with so much room makes of a struct: the layout of its unfolding. -/
def LaysOut (scope : Scope) (named : Bool) (room : Nat) : Prop :=
  ∀ (trail : List String) (start : Nat) (owner : Struct) (layout : Layout),
    owner.Counted → start ≤ maxCount →
      ((expand ⟨scope, named⟩ room trail start owner).result = .ok layout ↔
        IsLayout scope named (owner.name :: trail) room owner.members start layout)

/-! ## Members of struct type -/

section

variable {scope : Scope} {named : Bool} {owner nested : Struct} {trail : List String}
  {room start : Nat} {member : Member} {inner : Unfolding}
variable (hscope : scope.Counted) (hcounted : nested.Counted) (hne : nested.members ≠ [])

include hscope hcounted hne

theorem leafCount_pos (hinner : Unfolds scope nested.members inner)
    (hadmits : inner.Admits trail room) : 0 < inner.leafCount := by
  have hle := hinner.length_le_leafCount hscope (fun m hm => hcounted.copies_pos hm) hadmits
  have hpos : 0 < nested.members.length := List.length_pos_iff.mpr hne
  omega

/-- The outcome of a property over a struct whose unfolding is known. -/
theorem interior_eq_ok_iff_of_unfolds (hroom : LaysOut scope named (room - 1)) (hpos : 0 < room)
    (hinner : Unfolds scope nested.members inner)
    (hadmits : inner.Admits (nested.name :: trail) (room - 1)) (hstart : start ≤ maxCount)
    (name : Option String) (placed : List UInt8 × Node) :
    (interior owner trail (below ⟨scope, named⟩ room) start member nested name).result =
        .ok placed ↔
      start + inner.leafCount ≤ maxCount ∧
        placed = (inner.flat.map UInt8.ofNat,
          ⟨UInt16.ofNat start, name, inner.forest named start⟩) := by
  have hleaf := leafCount_pos hscope hcounted hne hinner hadmits
  rw [interior_eq_ok_iff]
  constructor
  · rintro ⟨_, _, layout, hlayout, rfl⟩
    -- The success yields some unfolding, and there is only the one that is known.
    obtain ⟨tree, htree, _, hfits, rfl⟩ := (hroom _ _ _ _ hcounted hstart).mp hlayout
    rw [hinner.unique htree]
    exact ⟨hfits, rfl⟩
  · rintro ⟨hfits, rfl⟩
    refine ⟨hpos, by omega, inner.layout named start, ?_, rfl⟩
    exact (hroom _ _ _ _ hcounted hstart).mpr ⟨inner, hinner, hadmits, hfits, rfl⟩

/-- The outcome of the elements of an array whose struct has a known unfolding. -/
theorem inSequence_interior_iff (hroom : LaysOut scope named (room - 1)) (hpos : 0 < room)
    (hinner : Unfolds scope nested.members inner)
    (hadmits : inner.Admits (nested.name :: trail) (room - 1)) (hstart : start ≤ maxCount)
    (count : Nat) (layout : Layout) :
    inSequence (fun start position => (interior owner trail (below ⟨scope, named⟩ room) start
        member nested (Unfolding.label named (elementName member position))).result) start
        (List.range count) = .ok layout ↔
      start + count * inner.leafCount ≤ maxCount ∧
        layout = elementsLayout named member inner start 0 count := by
  have helements := inSequence_elements_iff named member inner start
    (fun start position => (interior owner trail (below ⟨scope, named⟩ room) start member nested
      (Unfolding.label named (elementName member position))).result)
    (fun start position placed hstart => interior_eq_ok_iff_of_unfolds hscope hcounted hne hroom
      hpos hinner hadmits hstart _ placed)
    0 count layout (by omega)
  rw [Nat.zero_mul, Nat.add_zero, Nat.zero_add] at helements
  rw [List.range_eq_range']
  exact helements

omit hscope hne in
/-- An element of an array that is laid out gives the unfolding for all of them. -/
theorem exists_unfolds_of_inSequence_interior (hrooms : ∀ r < room, LaysOut scope named r)
    (hstart : start ≤ maxCount) {count : Nat} (hcount : 0 < count) {layout : Layout}
    (hlayout : inSequence (fun start position => (interior owner trail (below ⟨scope, named⟩ room)
      start member nested (Unfolding.label named (elementName member position))).result) start
      (List.range count) = .ok layout) :
    0 < room ∧ ∃ inner, Unfolds scope nested.members inner ∧
      inner.Admits (nested.name :: trail) (room - 1) := by
  obtain ⟨more, rfl⟩ : ∃ more, count = more + 1 := ⟨count - 1, by omega⟩
  rw [List.range_eq_range', List.range'_succ] at hlayout
  obtain ⟨_, _, _, hfirst, -, -⟩ := inSequence_cons_eq_ok_iff.mp hlayout
  obtain ⟨hroom, _, _, hexpand, -⟩ := interior_eq_ok_iff.mp hfirst
  obtain ⟨inner, hinner, hadmits, -, -⟩ :=
    (hrooms (room - 1) (by omega) _ _ _ _ hcounted hstart).mp hexpand
  exact ⟨hroom, inner, hinner, hadmits⟩

theorem single_eq_ok_iff_unfolding (hrooms : ∀ r < room, LaysOut scope named r)
    (hstart : start ≤ maxCount) (name : Option String) (placed : List UInt8 × Node) :
    (interior owner trail (below ⟨scope, named⟩ room) start member nested name).result =
        .ok placed ↔
      1 ≤ room ∧ ∃ inner, Unfolds scope nested.members inner ∧
        inner.Admits (nested.name :: trail) (room - 1) ∧ start + inner.leafCount ≤ maxCount ∧
        placed = (inner.flat.map UInt8.ofNat,
          ⟨UInt16.ofNat start, name, inner.forest named start⟩) := by
  constructor
  · intro hplaced
    obtain ⟨hpos, _, layout, hlayout, _⟩ := interior_eq_ok_iff.mp hplaced
    have hroom := hrooms (room - 1) (by omega)
    obtain ⟨inner, hinner, hadmits, -, -⟩ := (hroom _ _ _ _ hcounted hstart).mp hlayout
    obtain ⟨hfits, hplaced⟩ := (interior_eq_ok_iff_of_unfolds hscope hcounted hne hroom hpos hinner
      hadmits hstart name placed).mp hplaced
    exact ⟨hpos, inner, hinner, hadmits, hfits, hplaced⟩
  · rintro ⟨hpos, inner, hinner, hadmits, hplaced⟩
    have hroom := hrooms (room - 1) (by omega)
    exact (interior_eq_ok_iff_of_unfolds hscope hcounted hne hroom hpos hinner hadmits hstart name
      placed).mpr hplaced

theorem array_eq_ok_iff_unfolding (hcopies : 2 ≤ member.copies)
    (hrooms : ∀ r < room, LaysOut scope named r) (hstart : start ≤ maxCount)
    (placed : List UInt8 × Node) :
    (array ⟨scope, named⟩ owner trail (below ⟨scope, named⟩ room)
        (below ⟨scope, named⟩ (room - 1)) start member nested).result = .ok placed ↔
      2 ≤ room ∧ ∃ inner, Unfolds scope nested.members inner ∧
        inner.Admits (nested.name :: trail) (room - 2) ∧
        start + member.copies * inner.leafCount ≤ maxCount ∧
        placed = ((List.replicate member.copies inner.flat).flatten.map UInt8.ofNat,
          ⟨UInt16.ofNat start, Unfolding.label named member.name,
            Unfolding.elements named member (inner.forest named) inner.leafCount start
              (List.range member.copies)⟩) := by
  have hpositions : List.range member.copies = List.range' 0 member.copies := List.range_eq_range'
  rw [array_eq_ok_iff]
  constructor
  · rintro ⟨_, hpos, hlt, layout, hlayout, rfl⟩
    obtain ⟨hroom, inner, hinner, hadmits⟩ := exists_unfolds_of_inSequence_interior hcounted
      (fun r hr => hrooms r (by omega)) hstart (by omega) hlayout
    obtain ⟨hfits, rfl⟩ := (inSequence_interior_iff hscope hcounted hne
      (hrooms (room - 2) (by omega)) hroom hinner hadmits hstart _ layout).mp hlayout
    refine ⟨by omega, inner, hinner, hadmits, hfits, ?_⟩
    rw [hpositions]
    rfl
  · rintro ⟨hlevels, inner, hinner, hadmits, hfits, rfl⟩
    have hleaf := leafCount_pos hscope hcounted hne hinner hadmits
    have hle : member.copies * 1 ≤ member.copies * inner.leafCount := Nat.mul_le_mul_left _ hleaf
    have hroom : LaysOut scope named (room - 1 - 1) := hrooms (room - 2) (by omega)
    refine ⟨by omega, by omega, by omega, elementsLayout named member inner start 0 member.copies,
      ?_, ?_⟩
    · exact (inSequence_interior_iff hscope hcounted hne hroom (by omega) hinner hadmits hstart _
        _).mpr ⟨hfits, rfl⟩
    · rw [hpositions]
      rfl

omit hne

/-- The outcome of a member of struct type. -/
theorem structMember_eq_ok_iff_unfolding (hcopies : 0 < member.copies)
    (hrooms : ∀ r < room, LaysOut scope named r) (hstart : start ≤ maxCount) (owner : Struct)
    (trail : List String) (placed : List UInt8 × Node) :
    (structMember ⟨scope, named⟩ owner trail (below ⟨scope, named⟩ room)
        (below ⟨scope, named⟩ (room - 1)) start member nested).result = .ok placed ↔
      nested.name ∉ trail ∧ nested.members ≠ [] ∧ member.levels ≤ room ∧
        ∃ inner, Unfolds scope nested.members inner ∧
          inner.Admits (nested.name :: trail) (room - member.levels) ∧
          start + member.copies * inner.leafCount ≤ maxCount ∧
          placed = ((List.replicate member.copies inner.flat).flatten.map UInt8.ofNat,
            ⟨UInt16.ofNat start, Unfolding.label named member.name,
              Unfolding.content named member (inner.forest named) inner.leafCount start⟩) := by
  rw [structMember_eq_ok_iff]
  refine and_congr_right fun hcycle => and_congr_right fun hne => ?_
  by_cases hsingle : member.copies = 1
  · have hlevels : member.levels = 1 := by simp [Member.levels, hsingle]
    rw [if_pos hsingle, hlevels, single_eq_ok_iff_unfolding hscope hcounted hne hrooms hstart]
    simp [hsingle, Unfolding.content, Unfolding.label, Context.name]
  · have hlevels : member.levels = 2 := by simp [Member.levels, hsingle]
    rw [if_neg hsingle, hlevels,
      array_eq_ok_iff_unfolding hscope hcounted hne (by omega) hrooms hstart]
    simp [hsingle, Unfolding.content]

omit hcounted

/-- The outcome of members in sequence: they come to the layout of their unfolding. -/
theorem inSequence_place_iff (hrooms : ∀ r < room, LaysOut scope named r) (members : List Member)
    (hmembers : ∀ m ∈ members, 0 < m.copies) (start : Nat) (hstart : start ≤ maxCount)
    (layout : Layout) :
    inSequence (fun start member => (place ⟨scope, named⟩ owner trail (below ⟨scope, named⟩ room)
        (below ⟨scope, named⟩ (room - 1)) start member).result) start members = .ok layout ↔
      IsLayout scope named trail room members start layout := by
  induction members generalizing start layout with
  | nil => rw [inSequence, Except.ok.injEq, isLayout_nil_iff hstart, eq_comm]
  | cons member members ih =>
      have hcopies := hmembers member List.mem_cons_self
      replace ih := ih fun m hm => hmembers m (List.mem_cons_of_mem member hm)
      rw [inSequence_cons_eq_ok_iff]
      unfold place
      -- What the first member comes to decides where the others begin.
      cases hresolve : scope.resolve member.typeName with
      | unresolved =>
          constructor
          · rintro ⟨_, _, _, hplace, _⟩
            cases hplace
          · rintro ⟨tree, htree, _⟩
            exact absurd htree (Unfolds.not_cons_of_unresolved hresolve)
      | primitive type =>
          rw [isLayout_cons_iff_of_primitive hresolve]
          constructor
          · rintro ⟨sizes, node, tail, hplace, htail, rfl⟩
            obtain ⟨hbytes, hlt, hplaced⟩ := leaf_eq_ok_iff.mp hplace
            obtain ⟨rfl, rfl⟩ := Prod.mk.inj hplaced
            exact ⟨hbytes, tail, (ih (start + 1) hlt tail).mp htail, rfl⟩
          · rintro ⟨hbytes, tail, htail, rfl⟩
            have hlt := htail.start_le
            have htail := (ih (start + 1) hlt tail).mpr htail
            exact ⟨_, _, tail, leaf_eq_ok_iff.mpr ⟨hbytes, hlt, rfl⟩, htail, rfl⟩
      | struct nested =>
          have hplaces (placed : List UInt8 × Node) := structMember_eq_ok_iff_unfolding hscope
            (hscope.of_resolve hresolve) hcopies hrooms hstart owner trail placed
          have hlength (inner : Unfolding) : ((List.replicate member.copies inner.flat).flatten.map
              UInt8.ofNat).length = member.copies * inner.leafCount := by
            simp [Unfolding.length_flat]
          rw [isLayout_cons_iff_of_struct hresolve]
          constructor
          · rintro ⟨sizes, node, tail, hplace, htail, rfl⟩
            obtain ⟨hcycle, hne, hlevels, inner, hinner, hadmits, hfits, hplaced⟩ :=
              (hplaces _).mp hplace
            obtain ⟨rfl, rfl⟩ := Prod.mk.inj hplaced
            rw [hlength] at htail
            exact ⟨hcycle, hne, hlevels, inner, hinner, hadmits, tail, (ih _ hfits tail).mp htail,
              rfl⟩
          · rintro ⟨hcycle, hne, hlevels, inner, hinner, hadmits, tail, htail, rfl⟩
            have hfits := htail.start_le
            have hplace := (hplaces _).mpr
              ⟨hcycle, hne, hlevels, inner, hinner, hadmits, hfits, rfl⟩
            refine ⟨_, _, tail, hplace, ?_, rfl⟩
            rw [hlength]
            exact (ih _ hfits tail).mpr htail

end

/-- A compilation succeeds on a struct exactly when the struct has an unfolding that is
admitted and whose leaves fit in the table, and then it lays out the unfolding. -/
theorem laysOut {scope : Scope} (hscope : scope.Counted) (named : Bool) (room : Nat) :
    LaysOut scope named room := by
  induction room using Nat.strongRecOn with
  | ind room hrooms =>
      intro trail start owner layout hcounted hstart
      rw [expand_eq_ok_iff, inSequence_place_iff hscope hrooms owner.members
        (fun m hm => hcounted.copies_pos hm) start hstart]
      constructor
      · rintro ⟨hfound, _⟩
        exact hfound
      · intro hfound
        exact ⟨hfound, hfound.length_le hscope fun m hm => hcounted.copies_pos hm⟩

end Compile

/-- A struct of which all counts are positive compiles exactly when it has an unfolding that
is admitted below the struct itself and fits in the table, and then to its mapping. -/
theorem compileStruct_eq_ok_iff {scope : Scope} (hscope : scope.Counted) {target : Struct}
    (htarget : target.Counted) {named : Bool} {m : Mapping} :
    (compileStruct scope target named).result = .ok m ↔
      ∃ tree, Unfolds scope target.members tree ∧ tree.Admits [target.name] maxDepth ∧
        tree.leafCount ≤ maxCount ∧ m = tree.mapping named := by
  have hlaysOut (layout : Compile.Layout) :=
    Compile.laysOut hscope named maxDepth [] 0 target layout htarget (Nat.zero_le _)
  simp only [compileStruct, Traced.result_bind, Traced.result_report, Traced.result_pure]
  rw [bind_eq_ok_iff]
  constructor
  · rintro ⟨layout, hlayout, hm⟩
    obtain ⟨tree, htree, hadmits, hfits, rfl⟩ := (hlaysOut layout).mp hlayout
    exact ⟨tree, htree, hadmits, by omega, (Except.ok.inj hm).symm⟩
  · rintro ⟨tree, htree, hadmits, hfits, rfl⟩
    exact ⟨tree.layout named 0, (hlaysOut _).mpr ⟨tree, htree, hadmits, by omega, rfl⟩, rfl⟩

/-- The outcome of a compilation by name is that of the first struct with the name, if any. -/
theorem result_compile (scope : Scope) (name : String) (named : Bool) :
    (compile scope name named).result =
      match scope.structs.find? (·.name == name) with
      | some target => (compileStruct scope target named).result
      | none => .error (.notFound name (nearest? name (scope.structs.map Struct.name))) := by
  rw [compile, Traced.result_bind, findStruct]
  cases scope.structs.find? (·.name == name) with
  | some target => rfl
  | none => rfl

theorem result_compile_of_find? {scope : Scope} {name : String} {target : Struct}
    (h : scope.structs.find? (·.name == name) = some target) (named : Bool) :
    (compile scope name named).result = (compileStruct scope target named).result := by
  rw [result_compile, h]

/-- A schema to try statements on: a route has a length, two points and a last point. -/
def routeScope : Scope where
  registry := .builtin
  structs :=
    [⟨"Point", 1, [⟨"x", "f32", none, 2⟩, ⟨"label", "u8", some 3, 3⟩]⟩,
     ⟨"Route", 5, [⟨"length", "u16", none, 6⟩, ⟨"points", "Point", some 2, 7⟩,
       ⟨"last", "Point", none, 8⟩]⟩]

/-- The struct of the schema that refers to the other one. -/
def routeStruct : Struct :=
  ⟨"Route", 5, [⟨"length", "u16", none, 6⟩, ⟨"points", "Point", some 2, 7⟩,
    ⟨"last", "Point", none, 8⟩]⟩

/-- The properties of a point whose first leaf has the index. -/
def pointForest (index : UInt16) : Forest :=
  .ofNodes [⟨index, some "x", .nil⟩, ⟨index + 1, some "label", .nil⟩]

/-- What the route comes to, with names. -/
def routeMapping : Mapping where
  sizes := [2, 4, 3, 4, 3, 4, 3]
  properties := .ofNodes
    [⟨0, some "length", .nil⟩,
     ⟨1, some "points", .ofNodes
       [⟨1, some "points[0]", pointForest 1⟩, ⟨3, some "points[1]", pointForest 3⟩]⟩,
     ⟨5, some "last", pointForest 5⟩]

example : (compileStruct routeScope routeStruct true).result = .ok routeMapping := rfl

end FieldMap
