import FieldMap.Proofs.UnfoldingLayout

/-!
# Flattening

What a successful compilation returns, told without the compilation.  The struct unfolds
in one way only, and the mapping is read off this unfolding:

* the sizes are its `flat` table, as numbers and not only as bytes, because no admitted
  leaf is larger than a byte can say;
* the properties are its `forest`, from the first index on;
* the total size is its `byteSize`, the sum over the members of the count times the size
  of the type.
-/

namespace FieldMap

theorem foldl_toNat_eq_sum (sizes : List UInt8) (total : Nat) :
    sizes.foldl (fun total size => total + size.toNat) total =
      total + (sizes.map UInt8.toNat).sum := by
  induction sizes generalizing total with
  | nil => simp
  | cons size sizes ih =>
      rw [List.foldl_cons, ih, List.map_cons, List.sum_cons, Nat.add_assoc]

theorem Mapping.totalSize_eq_sum (m : Mapping) :
    m.totalSize = (m.sizes.map UInt8.toNat).sum := by
  have hsum := foldl_toNat_eq_sum m.sizes 0
  rw [Nat.zero_add] at hsum
  exact hsum

/-- A table of numbers that fit in a byte loses nothing when it is stored in bytes. -/
theorem map_toNat_map_ofNat {sizes : List Nat} (hsizes : ∀ size ∈ sizes, size ≤ 255) :
    (sizes.map UInt8.ofNat).map UInt8.toNat = sizes := by
  rw [List.map_map]
  have hsame (size : Nat) (hmem : size ∈ sizes) : (UInt8.toNat ∘ UInt8.ofNat) size = size := by
    have hlt : size < UInt8.size := Nat.lt_succ_of_le (hsizes size hmem)
    exact UInt8.toNat_ofNat_of_lt' hlt
  rw [List.map_congr_left hsame, List.map_id']

namespace Unfolding

variable {tree : Unfolding} {trail : List String} {room : Nat}

theorem Admits.toNat_sizes (hadmits : tree.Admits trail room) (named : Bool) :
    (tree.mapping named).sizes.map UInt8.toNat = tree.flat :=
  map_toNat_map_ofNat hadmits.le_of_mem_flat

theorem Admits.totalSize_mapping (hadmits : tree.Admits trail room) (named : Bool) :
    (tree.mapping named).totalSize = tree.byteSize := by
  rw [Mapping.totalSize_eq_sum, hadmits.toNat_sizes, sum_flat]

end Unfolding

/-- A compiled mapping is the flattening of the one unfolding its struct has. -/
theorem compileStruct_flattens {scope : Scope} (hscope : scope.Counted) {target : Struct}
    (htarget : target.Counted) {named : Bool} {m : Mapping}
    (hm : (compileStruct scope target named).result = .ok m) :
    ∃ tree, (∀ other, Unfolds scope target.members other ↔ other = tree) ∧
      m.sizes.map UInt8.toNat = tree.flat ∧ m.properties = tree.forest named 0 ∧
      m.totalSize = tree.byteSize := by
  obtain ⟨tree, htree, hadmits, -, rfl⟩ := (compileStruct_eq_ok_iff hscope htarget).mp hm
  have honly (other : Unfolding) : Unfolds scope target.members other ↔ other = tree := by
    constructor
    · intro hother
      exact hother.unique htree
    · rintro rfl
      exact htree
  exact ⟨tree, honly, hadmits.toNat_sizes named, rfl, hadmits.totalSize_mapping named⟩

/-- The route flattens to two bytes of length and three points of seven bytes. -/
theorem route_flattens : routeScope.Counted ∧ routeStruct.Counted ∧
    (compileStruct routeScope routeStruct true).result = .ok routeMapping ∧
    ∃ tree, (∀ other, Unfolds routeScope routeStruct.members other ↔ other = tree) ∧
      tree.flat = [2, 4, 3, 4, 3, 4, 3] ∧ tree.byteSize = 23 := by
  have hscope : routeScope.Counted := by decide
  have htarget : routeStruct.Counted := by decide
  have hm : (compileStruct routeScope routeStruct true).result = .ok routeMapping := rfl
  obtain ⟨tree, honly, hsizes, -, htotal⟩ := compileStruct_flattens hscope htarget hm
  exact ⟨hscope, htarget, hm, tree, honly, hsizes.symm, htotal.symm⟩

end FieldMap
