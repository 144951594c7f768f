import FieldMap.Proofs.ForestNodes
import FieldMap.Proofs.UnfoldingLayout

/-!
# Leaf intervals

The properties of a compiled mapping point into the table without a gap and without a
turn back: read from left to right, the leaves are the entries one after the other, and
a property with children carries the index of the first leaf below it.

* `Forest.Spans` is the invariant: the leaves of a forest are the entries from a start
  to before a stop, and every property with children begins where its children do.
* `Unfolding.Solid.spans` shows it for the forest of an unfolding in which every struct
  has a leaf.
* `Mapping.Spanned` says that the properties of a mapping span its table, and
  `Mapping.Indexed` lists what follows for every property of it; both hold of every
  mapping that comes out of a compilation.
-/

namespace FieldMap

namespace Forest

/-- The leaves are the entries from `start` to before `stop`, and every property with
children begins where its children do. -/
inductive Spans : Forest → (start stop : Nat) → Prop
  | nil {start : Nat} : Spans .nil start start
  | leaf {index : UInt16} {name : Option String} {siblings : Forest} {stop : Nat}
      (hsiblings : Spans siblings (index.toNat + 1) stop) :
      Spans (.cons index name .nil siblings) index.toNat stop
  | interior {index : UInt16} {name : Option String} {children siblings : Forest}
      {middle stop : Nat} (hne : children ≠ .nil) (hchildren : Spans children index.toNat middle)
      (hsiblings : Spans siblings middle stop) :
      Spans (.cons index name children siblings) index.toNat stop

namespace Spans

variable {f : Forest} {start stop : Nat}

/-- Every property takes an entry at least. -/
theorem add_length_le (h : f.Spans start stop) : start + f.length ≤ stop := by
  induction h with
  | nil => exact Nat.le_refl _
  | leaf _ ih =>
      rw [length_cons]
      omega
  | interior hne _ _ ihchildren ihsiblings =>
      have hpos := length_pos_iff.mpr hne
      rw [length_cons]
      omega

theorem le (h : f.Spans start stop) : start ≤ stop := by
  have hle := h.add_length_le
  omega

theorem lt_of_ne_nil (h : f.Spans start stop) (hne : f ≠ .nil) : start < stop := by
  have hle := h.add_length_le
  have hpos := length_pos_iff.mpr hne
  omega

theorem eq_of_nil (h : Spans .nil start stop) : start = stop := by
  cases h
  rfl

theorem cons_leaf {index : UInt16} {name : Option String} {siblings : Forest}
    (hindex : index.toNat = start) (hsiblings : siblings.Spans (start + 1) stop) :
    (cons index name .nil siblings).Spans start stop := by
  subst hindex
  exact .leaf hsiblings

theorem cons_interior {index : UInt16} {name : Option String} {children siblings : Forest}
    {middle : Nat} (hindex : index.toNat = start) (hmiddle : start < middle)
    (hchildren : children.Spans start middle) (hsiblings : siblings.Spans middle stop) :
    (cons index name children siblings).Spans start stop := by
  subst hindex
  refine .interior ?_ hchildren hsiblings
  rintro rfl
  exact Nat.ne_of_lt hmiddle hchildren.eq_of_nil

/-- The leaves are the entries of the interval, in order. -/
theorem leaves (h : f.Spans start stop) :
    f.leaves.map UInt16.toNat = List.range' start (stop - start) := by
  induction h with
  | nil => simp
  | @leaf index name siblings stop hsiblings ih =>
      have hle := hsiblings.le
      have hcount : stop - index.toNat = (stop - (index.toNat + 1)) + 1 := by omega
      rw [leaves_cons, List.map_append, ih, hcount, List.range'_succ]
      rfl
  | @interior index name children siblings middle stop hne hchildren hsiblings ihchildren
      ihsiblings =>
      have hbelow := hchildren.le
      have hbeside := hsiblings.le
      have hempty := isEmpty_eq_false_iff.mpr hne
      -- The interval of the children and that of the siblings meet at `middle`.
      have hcount : stop - index.toNat = (middle - index.toNat) + (stop - middle) := by omega
      have hmiddle : index.toNat + 1 * (middle - index.toNat) = middle := by omega
      rw [leaves_cons, hempty, if_neg Bool.false_ne_true, List.map_append, ihchildren, ihsiblings,
        hcount, ← List.range'_append, hmiddle]

theorem head?_leaves (h : f.Spans start stop) (hne : f ≠ .nil) {index : UInt16}
    (hindex : index.toNat = start) : f.leaves.head? = some index := by
  have hlt := h.lt_of_ne_nil hne
  have hleaves := h.leaves
  obtain ⟨count, hcount⟩ : ∃ count, stop - start = count + 1 := ⟨stop - start - 1, by omega⟩
  rw [hcount, List.range'_succ] at hleaves
  obtain ⟨first, rest, heq, hfirst, -⟩ := List.map_eq_cons_iff.mp hleaves
  rw [heq, List.head?_cons]
  exact congrArg some (UInt16.toNat_inj.mp (hfirst.trans hindex.symm))

theorem toNat_lt_of_mem_leaves (h : f.Spans start stop) {index : UInt16} (hmem : index ∈ f.leaves) :
    index.toNat < stop := by
  have hle := h.le
  have hrange : index.toNat ∈ List.range' start (stop - start) := by
    rw [← h.leaves]
    exact List.mem_map_of_mem hmem
  have hlt := (List.mem_range'_1.mp hrange).2
  omega

/-- Every property, at whatever depth, spans an interval of its own that begins at its
index. -/
theorem of_mem (h : f.Spans start stop) {node : Node} (hnode : node ∈ f) :
    ∃ last ≤ stop, (push node .nil).Spans node.index.toNat last := by
  induction h with
  | nil => exact absurd hnode (not_mem_nil node)
  | leaf hsiblings ih =>
      rcases mem_cons.mp hnode with rfl | hbelow | hbeside
      · exact ⟨_, hsiblings.le, .leaf .nil⟩
      · exact absurd hbelow (not_mem_nil node)
      · exact ih hbeside
  | interior hne hchildren hsiblings ihchildren ihsiblings =>
      rcases mem_cons.mp hnode with rfl | hbelow | hbeside
      · exact ⟨_, hsiblings.le, .interior hne hchildren .nil⟩
      · obtain ⟨last, hlast, hspans⟩ := ihchildren hbelow
        exact ⟨last, Nat.le_trans hlast hsiblings.le, hspans⟩
      · exact ihsiblings hbeside

theorem leaves_node {node : Node} (h : (push node .nil).Spans node.index.toNat stop) :
    node.leaves.map UInt16.toNat = List.range' node.index.toNat node.leaves.length := by
  have hleaves := h.leaves
  rw [push, leaves_cons, leaves_nil, List.append_nil] at hleaves
  have hlength := congrArg List.length hleaves
  rw [List.length_map, List.length_range'] at hlength
  rw [Node.leaves, hleaves, hlength]

theorem children_node {node : Node} (h : (push node .nil).Spans node.index.toNat stop)
    (hne : node.children ≠ .nil) : node.children.Spans node.index.toNat stop := by
  obtain ⟨index, name, children⟩ := node
  cases h with
  | leaf _ => exact absurd rfl hne
  | interior _ hchildren hsiblings =>
      cases hsiblings
      exact hchildren

end Spans
end Forest

namespace Unfolding

/-- Every struct below has a leaf, and stands there at least once. -/
def Solid : Unfolding → Prop
  | nil => True
  | primitive _ _ rest => rest.Solid
  | nested member _ inner rest =>
      0 < member.copies ∧ 0 < inner.leafCount ∧ inner.Solid ∧ rest.Solid

end Unfolding

/-- An admitted unfolding of positive counts is solid. -/
theorem Unfolds.solid {scope : Scope} (hscope : scope.Counted) {members : List Member}
    {tree : Unfolding} (h : Unfolds scope members tree)
    (hcounted : ∀ member ∈ members, 0 < member.copies) {trail : List String} {room : Nat}
    (hadmits : tree.Admits trail room) : tree.Solid := by
  induction h generalizing trail room with
  | nil => trivial
  | primitive _ _ ih => exact ih (fun m hm => hcounted m (List.mem_cons_of_mem _ hm)) hadmits.2
  | nested hresolve hinner _ ihinner ihrest =>
      obtain ⟨_, hne, _, hadinner, hadrest⟩ := hadmits
      have hnested := hscope.of_resolve hresolve
      have hleaf := Compile.leafCount_pos hscope hnested hne hinner hadinner
      have hcopies := hcounted _ List.mem_cons_self
      refine ⟨hcopies, hleaf, ?_, ?_⟩
      · exact ihinner (fun m hm => hnested.copies_pos hm) hadinner
      · exact ihrest (fun m hm => hcounted m (List.mem_cons_of_mem _ hm)) hadrest

namespace Unfolding

theorem toNat_index {start : Nat} (h : start ≤ maxCount) : (UInt16.ofNat start).toNat = start :=
  UInt16.toNat_ofNat_of_lt' (Nat.lt_succ_of_le h)

/-- Elements in sequence span one interval if each of them spans its own. -/
theorem spans_elements (named : Bool) (member : Member) (inner : (start : Nat) → Forest)
    {leaves : Nat} (hleaves : 0 < leaves) (base first count : Nat)
    (hfits : base + (first + count) * leaves ≤ maxCount)
    (hinner : ∀ start, start + leaves ≤ maxCount → (inner start).Spans start (start + leaves)) :
    (elements named member inner leaves base (List.range' first count)).Spans
      (base + first * leaves) (base + (first + count) * leaves) := by
  induction count generalizing first with
  | zero => exact .nil
  | succ count ih =>
      have hnext : base + (first + 1) * leaves = base + first * leaves + leaves := by
        rw [Nat.succ_mul, Nat.add_assoc]
      have hlast : first + (count + 1) = first + 1 + count := by omega
      rw [hlast] at hfits ⊢
      have hrest := ih (first + 1) hfits
      rw [hnext] at hrest
      have hle := hrest.le
      have hspans := hinner (base + first * leaves) (by omega)
      have hindex := toNat_index (show base + first * leaves ≤ maxCount by omega)
      rw [List.range'_succ, elements_cons]
      exact .cons_interior hindex (by omega) hspans hrest

/-- The properties of a solid unfolding span as many entries as it has leaves. -/
theorem Solid.spans {tree : Unfolding} (h : tree.Solid) (named : Bool) (start : Nat)
    (hfits : start + tree.leafCount ≤ maxCount) :
    (tree.forest named start).Spans start (start + tree.leafCount) := by
  induction tree generalizing start with
  | nil => exact .nil
  | primitive member type rest ih =>
      simp only [leafCount] at hfits ⊢
      have hrest := ih h (start + 1) (by omega)
      rw [Nat.add_assoc] at hrest
      exact .cons_leaf (toNat_index (by omega)) hrest
  | nested member type inner rest ihinner ihrest =>
      obtain ⟨hcopies, hleaf, hinner, hrest⟩ := h
      simp only [leafCount] at hfits ⊢
      have hmul : 0 < member.copies * inner.leafCount := Nat.mul_pos hcopies hleaf
      have hspans := ihrest hrest (start + member.copies * inner.leafCount) (by omega)
      rw [Nat.add_assoc] at hspans
      refine .cons_interior (toNat_index (by omega)) (Nat.lt_add_of_pos_right hmul) ?_ hspans
      -- The children begin at the index of the property, be they members or elements.
      unfold content
      split
      · next hsingle =>
          rw [hsingle, Nat.one_mul] at hfits ⊢
          exact ihinner hinner start (by omega)
      · have helements := spans_elements named member (inner.forest named) hleaf start 0
          member.copies (by rw [Nat.zero_add]; omega) (ihinner hinner)
        rw [Nat.zero_mul, Nat.add_zero, Nat.zero_add] at helements
        rw [List.range_eq_range']
        exact helements

/-- No way down the properties is longer than the room that admits the unfolding. -/
theorem Admits.depth_le {tree : Unfolding} {trail : List String} {room : Nat}
    (h : tree.Admits trail room) (named : Bool) (start : Nat) :
    (tree.forest named start).depth ≤ room := by
  induction tree generalizing trail room start with
  | nil => exact Nat.zero_le _
  | primitive member type rest ih =>
      have hrest := ih h.2 (start + 1)
      rw [forest, Forest.depth]
      exact Nat.max_le.mpr ⟨Nat.zero_le _, hrest⟩
  | nested member type inner rest ihinner ihrest =>
      obtain ⟨_, _, hlevels, hinner, hrest⟩ := h
      have hbeside := ihrest hrest (start + member.copies * inner.leafCount)
      have hcontent : (content named member (inner.forest named) inner.leafCount start).depth + 1 ≤
          room := by
        -- A single struct opens one level, an array one more for its elements.
        unfold content
        unfold Member.levels at hlevels hinner
        split
        · next hsingle =>
            rw [if_pos hsingle] at hlevels hinner
            have hbelow := ihinner hinner start
            omega
        · next harray =>
            rw [if_neg harray] at hlevels hinner
            have hbelow : ∀ node ∈ (List.range member.copies).map fun position =>
                (⟨UInt16.ofNat (start + position * inner.leafCount),
                  label named (member.name ++ "[" ++ toString position ++ "]"),
                  inner.forest named (start + position * inner.leafCount)⟩ : Node),
                node.children.depth ≤ room - 2 := by
              intro node hnode
              obtain ⟨position, _, rfl⟩ := List.mem_map.mp hnode
              exact ihinner hinner _
            have hdepth := Forest.depth_ofNodes_le hbelow
            unfold elements
            omega
      rw [forest, Forest.depth]
      split <;> omega

end Unfolding

/-- The properties of a mapping span its whole table, and both keep within their limits. -/
structure Mapping.Spanned (m : Mapping) : Prop where
  spans : m.properties.Spans 0 m.sizes.length
  sizes_le : m.sizes.length ≤ maxCount
  depth_le : m.properties.depth ≤ maxDepth

theorem spanned_of_compileStruct {scope : Scope} (hscope : scope.Counted) {target : Struct}
    (htarget : target.Counted) {named : Bool} {m : Mapping}
    (hm : (compileStruct scope target named).result = .ok m) : m.Spanned := by
  obtain ⟨tree, htree, hadmits, hleaves, rfl⟩ := (compileStruct_eq_ok_iff hscope htarget).mp hm
  have hsolid := htree.solid hscope (fun m hm => htarget.copies_pos hm) hadmits
  have hspans := hsolid.spans named 0 (by omega)
  have hsizes : (tree.mapping named).sizes.length = tree.leafCount := by
    rw [Unfolding.mapping, List.length_map, tree.length_flat]
  rw [Nat.zero_add, ← hsizes] at hspans
  exact ⟨hspans, by omega, hadmits.depth_le named 0⟩

/-- The properties of a mapping point into its table without a gap and without a turn back,
and neither are too many side by side nor too deep. -/
structure Mapping.Indexed (m : Mapping) : Prop where
  cover : m.leafIndices.map UInt16.toNat = List.range m.sizes.length
  interval : ∀ node ∈ m.properties,
    node.leaves.map UInt16.toNat = List.range' node.index.toNat node.leaves.length
  interior : ∀ node ∈ m.properties, node.children ≠ .nil →
    1 ≤ node.children.length ∧ node.children.length ≤ 65535 ∧
      node.children.leaves.head? = some node.index
  sizes : m.sizes.length ≤ 65535
  properties : m.properties.length ≤ 65535
  depth : m.properties.depth ≤ 256

/-- Whatever a compilation of positive counts returns is indexed. -/
theorem compileStruct_indexed {scope : Scope} (hscope : scope.Counted) {target : Struct}
    (htarget : target.Counted) {named : Bool} {m : Mapping}
    (hm : (compileStruct scope target named).result = .ok m) : m.Indexed := by
  obtain ⟨hspans, hsizes, hdepth⟩ := spanned_of_compileStruct hscope htarget hm
  refine ⟨?_, ?_, ?_, hsizes, ?_, hdepth⟩
  · rw [List.range_eq_range']
    exact hspans.leaves
  · intro node hnode
    obtain ⟨last, _, hnode⟩ := hspans.of_mem hnode
    exact hnode.leaves_node
  · intro node hnode hne
    -- The children span an interval of the table, so there are no more of them than entries.
    obtain ⟨last, hlast, hnode⟩ := hspans.of_mem hnode
    have hchildren := hnode.children_node hne
    have hcount := hchildren.add_length_le
    have hmax : maxCount = 65535 := rfl
    exact ⟨Forest.length_pos_iff.mpr hne, by omega, hchildren.head?_leaves hne rfl⟩
  · have hcount := hspans.add_length_le
    rw [Nat.zero_add] at hcount
    exact Nat.le_trans hcount hsizes

/-- The array of the route begins where its first element does, and ends before the last
point. -/
theorem route_indexed : routeScope.Counted ∧ routeStruct.Counted ∧
    (compileStruct routeScope routeStruct true).result = .ok routeMapping ∧
    routeMapping.Indexed ∧
    (⟨1, some "points", .ofNodes [⟨1, some "points[0]", pointForest 1⟩,
      ⟨3, some "points[1]", pointForest 3⟩]⟩ : Node).leaves = [1, 2, 3, 4] := by
  have hscope : routeScope.Counted := by decide
  have htarget : routeStruct.Counted := by decide
  have hm : (compileStruct routeScope routeStruct true).result = .ok routeMapping := rfl
  exact ⟨hscope, htarget, hm, compileStruct_indexed hscope htarget hm, rfl⟩

end FieldMap
