import FieldMap.Proofs.LeafIntervals

/-!
# Uses of structs

A struct is used where a member names it: once, or once for every element of an array.  Wherever
that is, the properties and sizes are those that the struct comes to by itself, moved to the
entry at which the use begins.

* `StandsFor` finds the properties that stand for a struct, by going down the properties of a
  struct and its members side by side.  It knows neither the compilation nor its layout.
* `Forest.shift` moves all indices, and `Unfolding.forest_add` shows that an unfolding has the
  same properties from every start up to such a move.
* `StandsFor.hasUse` locates every use in the unfolding: what the struct unfolds to stands
  there as one piece, and what admits the whole admits the struct by itself.
-/

namespace FieldMap

/-- The properties with all indices moved by an offset. -/
def Forest.shift (offset : UInt16) : Forest → Forest
  | nil => nil
  | cons index name children siblings =>
    cons (index + offset) name (children.shift offset) (siblings.shift offset)

theorem Forest.shift_push (offset : UInt16) (node : Node) (f : Forest) :
    (push node f).shift offset =
      push ⟨node.index + offset, node.name, node.children.shift offset⟩ (f.shift offset) :=
  rfl

/-- Properties side by side are moved one by one. -/
theorem Forest.shift_ofNodes (offset : UInt16) (nodes : List Node) :
    (ofNodes nodes).shift offset =
      ofNodes (nodes.map fun node =>
        ⟨node.index + offset, node.name, node.children.shift offset⟩) := by
  induction nodes with
  | nil => rfl
  | cons node nodes ih => rw [ofNodes_cons, shift_push, ih, List.map_cons, ofNodes_cons]

/-- The properties below the property of a member that stand for one value of its type each:
those of the elements of an array, and else the property itself. -/
def Member.instances (member : Member) (node : Node) : List Node :=
  if member.copies = 1 then [node] else node.children.nodes

/-- What lies below the property of a member is one of these properties or lies below one. -/
theorem Member.exists_instance_of_mem (member : Member) (top : Node) {node : Node}
    (hnode : node ∈ top.children) :
    ∃ use ∈ member.instances top, node = use ∨ node ∈ use.children := by
  unfold Member.instances
  split
  · exact ⟨top, List.mem_singleton_self top, .inr hnode⟩
  · rw [← Forest.ofNodes_nodes top.children] at hnode
    exact Forest.mem_ofNodes.mp hnode

/-- Among the properties of the members, at any depth, the property stands for one value of the
struct. -/
inductive StandsFor (scope : Scope) : List Member → Forest → Node → Struct → Prop
  | here {member : Member} {members : List Member} {index : UInt16} {name : Option String}
      {children siblings : Forest} {node : Node} {type : Struct}
      (hresolve : scope.resolve member.typeName = .struct type)
      (hnode : node ∈ member.instances ⟨index, name, children⟩) :
      StandsFor scope (member :: members) (.cons index name children siblings) node type
  | inside {member : Member} {members : List Member} {index : UInt16} {name : Option String}
      {children siblings : Forest} {use node : Node} {type inner : Struct}
      (hresolve : scope.resolve member.typeName = .struct type)
      (huse : use ∈ member.instances ⟨index, name, children⟩)
      (hinside : StandsFor scope type.members use.children node inner) :
      StandsFor scope (member :: members) (.cons index name children siblings) node inner
  | beside {member : Member} {members : List Member} {index : UInt16} {name : Option String}
      {children siblings : Forest} {node : Node} {type : Struct}
      (hbeside : StandsFor scope members siblings node type) :
      StandsFor scope (member :: members) (.cons index name children siblings) node type

namespace Unfolding

/-- The properties of an unfolding are the same from every start, up to a move. -/
theorem forest_add (tree : Unfolding) (named : Bool) (start offset : Nat) :
    tree.forest named (start + offset) = (tree.forest named start).shift (UInt16.ofNat offset) := by
  induction tree generalizing start with
  | nil => rfl
  | primitive member type rest ih =>
      have hrest := ih (start + 1)
      rw [Nat.add_right_comm] at hrest
      simp only [forest, Forest.shift, hrest, UInt16.ofNat_add]
  | nested member type inner rest ihinner ihrest =>
      have hrest := ihrest (start + member.copies * inner.leafCount)
      rw [Nat.add_right_comm] at hrest
      have hcontent : content named member (inner.forest named) inner.leafCount (start + offset) =
          (content named member (inner.forest named) inner.leafCount start).shift
            (UInt16.ofNat offset) := by
        unfold content
        split
        · exact ihinner start
        · unfold elements
          rw [Forest.shift_ofNodes, List.map_map]
          congr 1
          apply List.map_congr_left
          intro position _
          have helement := ihinner (start + position * inner.leafCount)
          simp only [Function.comp_apply, Nat.add_right_comm start offset, helement,
            UInt16.ofNat_add]
      simp only [forest, Forest.shift, hrest, hcontent, UInt16.ofNat_add]

/-- What admits members below a trail admits them below fewer structs and with more room. -/
theorem Admits.mono {tree : Unfolding} {trail fewer : List String} {room more : Nat}
    (h : tree.Admits trail room) (hfewer : fewer ⊆ trail) (hmore : room ≤ more) :
    tree.Admits fewer more := by
  induction tree generalizing trail fewer room more with
  | nil => trivial
  | primitive member type rest ih =>
      obtain ⟨hsize, hrest⟩ := h
      exact ⟨hsize, ih hrest hfewer hmore⟩
  | nested member type inner rest ihinner ihrest =>
      obtain ⟨hcycle, hne, hlevels, hinner, hrest⟩ := h
      refine ⟨fun hmem => hcycle (hfewer hmem), hne, by omega, ?_, ihrest hrest hfewer hmore⟩
      exact ihinner hinner (List.cons_subset_cons _ hfewer) (by omega)

/-- The properties that stand for a struct below one member begin a number of uses after it. -/
theorem exists_position_of_mem_instances {named : Bool} {member : Member} {inner : Unfolding}
    {start : Nat} {name : Option String} {children : Forest} {node : Node}
    (hchildren : children = content named member (inner.forest named) inner.leafCount start)
    (hnode : node ∈ member.instances ⟨UInt16.ofNat start, name, children⟩) :
    ∃ position < member.copies,
      node.index = UInt16.ofNat (start + position * inner.leafCount) ∧
      node.children = inner.forest named (start + position * inner.leafCount) := by
  subst hchildren
  unfold Member.instances content at hnode
  by_cases hsingle : member.copies = 1
  · rw [if_pos hsingle, if_pos hsingle, List.mem_singleton] at hnode
    subst hnode
    refine ⟨0, by omega, ?_, ?_⟩
    · rw [Nat.zero_mul, Nat.add_zero]
    · rw [Nat.zero_mul, Nat.add_zero]
  · simp only [if_neg hsingle, elements, Forest.nodes_ofNodes] at hnode
    obtain ⟨position, hposition, rfl⟩ := List.mem_map.mp hnode
    exact ⟨position, List.mem_range.mp hposition, rfl, rfl⟩

end Unfolding

/-- Equal pieces one after another can be cut in front of any of them. -/
theorem exists_flatten_replicate_eq {α : Type} (piece : List α) {position copies : Nat}
    (h : position < copies) :
    ∃ before after, before.length = position * piece.length ∧
      (List.replicate copies piece).flatten = before ++ (piece ++ after) := by
  obtain ⟨rest, rfl⟩ : ∃ rest, copies = position + (rest + 1) := ⟨copies - position - 1, by omega⟩
  refine ⟨(List.replicate position piece).flatten, (List.replicate rest piece).flatten, ?_, ?_⟩
  · simp
  · rw [← List.replicate_append_replicate, List.flatten_append, List.replicate_succ,
      List.flatten_cons]

/-- A property that stands for the struct of a member begins where a copy of its leaves does. -/
theorem Unfolding.exists_cut_of_mem_instances {named : Bool} {member : Member} {type : Struct}
    {inner : Unfolding} (rest : Unfolding) {start : Nat} {name : Option String}
    {children : Forest} {node : Node}
    (hchildren : children = content named member (inner.forest named) inner.leafCount start)
    (hnode : node ∈ member.instances ⟨UInt16.ofNat start, name, children⟩) :
    ∃ before after, (nested member type inner rest).flat = before ++ (inner.flat ++ after) ∧
      node.index = UInt16.ofNat (start + before.length) ∧
      node.children = inner.forest named (start + before.length) := by
  obtain ⟨position, hposition, hindex, hbelow⟩ :=
    exists_position_of_mem_instances hchildren hnode
  obtain ⟨before, after, hlength, hcut⟩ := exists_flatten_replicate_eq inner.flat hposition
  rw [← inner.length_flat, ← hlength] at hindex hbelow
  refine ⟨before, after ++ rest.flat, ?_, hindex, hbelow⟩
  simp [flat, hcut]

/-- In an unfolding that starts at an entry, the property is that of a struct with an unfolding of
its own, which stands there as one piece and is admitted by itself. -/
def Unfolding.HasUse (scope : Scope) (named : Bool) (tree : Unfolding) (room start : Nat)
    (node : Node) (type : Struct) : Prop :=
  ∃ inner before after, type ∈ scope.structs ∧ Unfolds scope type.members inner ∧
    inner.Admits [type.name] room ∧ tree.flat = before ++ (inner.flat ++ after) ∧
    node.index = UInt16.ofNat (start + before.length) ∧
    node.children = inner.forest named (start + before.length)

/-- What is used in a piece of an unfolding is used in the unfolding. -/
theorem Unfolding.HasUse.of_piece {scope : Scope} {named : Bool} {piece tree : Unfolding}
    {less room start : Nat} {node : Node} {type : Struct} {before after : List Nat}
    (h : piece.HasUse scope named less (start + before.length) node type)
    (hflat : tree.flat = before ++ (piece.flat ++ after)) (hless : less ≤ room) :
    tree.HasUse scope named room start node type := by
  obtain ⟨inner, front, back, hmem, hinner, hadmits, hpiece, hindex, hchildren⟩ := h
  have hlength : start + (before ++ front).length = start + before.length + front.length := by
    rw [List.length_append]
    omega
  refine ⟨inner, before ++ front, back ++ after, hmem, hinner, ?_, ?_, ?_, ?_⟩
  · exact hadmits.mono (List.Subset.refl _) hless
  · rw [hflat, hpiece]
    simp
  · rw [hlength]
    exact hindex
  · rw [hlength]
    exact hchildren

namespace StandsFor

variable {scope : Scope} {members : List Member} {f : Forest} {node : Node} {type : Struct}

/-- A property that stands for a struct is where the unfolding has the struct. -/
theorem hasUse (h : StandsFor scope members f node type) {tree : Unfolding}
    (htree : Unfolds scope members tree) {trail : List String} {room : Nat}
    (hadmits : tree.Admits trail room) {named : Bool} {start : Nat}
    (hf : f = tree.forest named start) : tree.HasUse scope named room start node type := by
  induction h generalizing tree trail room start with
  | @here member _ _ _ _ _ _ type hresolve hnode =>
      obtain ⟨inner, rest, hinner, -, rfl⟩ := (Unfolds.cons_iff_of_struct hresolve).mp htree
      obtain ⟨-, -, -, hadinner, -⟩ := hadmits
      obtain ⟨rfl, -, hcontent, -⟩ := Forest.cons.inj hf
      obtain ⟨before, after, hpiece, hindex, hchildren⟩ :=
        Unfolding.exists_cut_of_mem_instances rest hcontent hnode
      have hown : inner.Admits [type.name] (room - member.levels) :=
        hadinner.mono (List.cons_subset_cons _ (List.nil_subset trail)) (Nat.le_refl _)
      have huse : inner.HasUse scope named (room - member.levels) (start + before.length) _ type :=
        ⟨inner, [], [], Scope.mem_structs_of_resolve hresolve, hinner, hown, by simp, hindex,
          hchildren⟩
      exact huse.of_piece hpiece (by omega)
  | @inside member _ _ _ _ _ _ _ _ _ hresolve huse _ ih =>
      obtain ⟨inner, rest, hinner, -, rfl⟩ := (Unfolds.cons_iff_of_struct hresolve).mp htree
      obtain ⟨-, -, -, hadinner, -⟩ := hadmits
      obtain ⟨rfl, -, hcontent, -⟩ := Forest.cons.inj hf
      obtain ⟨before, after, hpiece, -, hchildren⟩ :=
        Unfolding.exists_cut_of_mem_instances rest hcontent huse
      have hinside := ih hinner hadinner hchildren
      exact hinside.of_piece hpiece (by omega)
  | @beside member _ _ _ _ _ _ _ _ ih =>
      cases htree with
      | @primitive _ primitive _ rest _ hrest =>
          obtain ⟨-, -, -, hsiblings⟩ := Forest.cons.inj hf
          have hbeside := ih hrest hadmits.2 hsiblings
          have hpiece : (Unfolding.primitive member primitive rest).flat =
              [primitive.size * member.copies] ++ (rest.flat ++ []) := by
            simp [Unfolding.flat]
          exact hbeside.of_piece hpiece (Nat.le_refl _)
      | @nested _ type _ inner rest _ _ hrest =>
          obtain ⟨-, -, -, hsiblings⟩ := Forest.cons.inj hf
          obtain ⟨-, -, -, -, hadrest⟩ := hadmits
          have hlength : (List.replicate member.copies inner.flat).flatten.length =
              member.copies * inner.leafCount := by
            simp [Unfolding.length_flat]
          rw [← hlength] at hsiblings
          have hbeside := ih hrest hadrest hsiblings
          have hpiece : (Unfolding.nested member type inner rest).flat =
              (List.replicate member.copies inner.flat).flatten ++ (rest.flat ++ []) := by
            simp [Unfolding.flat]
          exact hbeside.of_piece hpiece (Nat.le_refl _)

end StandsFor

/-- A property with children stands for a struct, or else all its children stand for one and the
same struct, as the elements of an array do. -/
def IsUse (scope : Scope) (members : List Member) (f : Forest) (node : Node) : Prop :=
  ∃ type, StandsFor scope members f node type ∨
    ∀ element ∈ node.children.nodes, StandsFor scope members f element type

section

variable {scope : Scope} {member : Member} {members : List Member} {index : UInt16}
  {name : Option String} {children siblings : Forest} {node use : Node} {type : Struct}

theorem IsUse.inside (hresolve : scope.resolve member.typeName = .struct type)
    (huse : use ∈ member.instances ⟨index, name, children⟩)
    (h : IsUse scope type.members use.children node) :
    IsUse scope (member :: members) (.cons index name children siblings) node := by
  obtain ⟨inner, hnode | helements⟩ := h
  · exact ⟨inner, .inl (.inside hresolve huse hnode)⟩
  · exact ⟨inner, .inr fun element helement => .inside hresolve huse (helements element helement)⟩

theorem IsUse.beside (h : IsUse scope members siblings node) :
    IsUse scope (member :: members) (.cons index name children siblings) node := by
  obtain ⟨type, hnode | helements⟩ := h
  · exact ⟨type, .inl (.beside hnode)⟩
  · exact ⟨type, .inr fun element helement => .beside (helements element helement)⟩

/-- The property of a member of struct type stands for the struct, or its children do. -/
theorem isUse_of_resolve (hresolve : scope.resolve member.typeName = .struct type) :
    IsUse scope (member :: members) (.cons index name children siblings)
      ⟨index, name, children⟩ := by
  refine ⟨type, ?_⟩
  by_cases hsingle : member.copies = 1
  · left
    apply StandsFor.here hresolve
    rw [Member.instances, if_pos hsingle]
    exact List.mem_singleton_self _
  · right
    intro element helement
    apply StandsFor.here hresolve
    rw [Member.instances, if_neg hsingle]
    exact helement

end

/-- No property with children is left over. -/
theorem Unfolds.isUse_of_mem {scope : Scope} {members : List Member} {tree : Unfolding}
    (htree : Unfolds scope members tree) (named : Bool) (start : Nat) {node : Node}
    (hnode : node ∈ tree.forest named start) (hne : node.children ≠ .nil) :
    IsUse scope members (tree.forest named start) node := by
  induction htree generalizing start with
  | nil => exact absurd hnode (Forest.not_mem_nil node)
  | primitive _ _ ih =>
      rcases Forest.mem_cons.mp hnode with rfl | hbelow | hbeside
      · exact absurd rfl hne
      · exact absurd hbelow (Forest.not_mem_nil node)
      · exact (ih (start + 1) hbeside).beside
  | @nested member type members inner rest hresolve _ _ ihinner ihrest =>
      rcases Forest.mem_cons.mp hnode with rfl | hbelow | hbeside
      · exact isUse_of_resolve hresolve
      · obtain ⟨use, huse, rfl | hbelow⟩ := member.exists_instance_of_mem ⟨_, _, _⟩ hbelow
        · exact ⟨type, .inl (.here hresolve huse)⟩
        · obtain ⟨position, -, -, hchildren⟩ :=
            Unfolding.exists_position_of_mem_instances rfl huse
          rw [hchildren] at hbelow
          have hinside := ihinner _ hbelow
          rw [← hchildren] at hinside
          exact hinside.inside hresolve huse
      · exact (ihrest _ hbeside).beside

/-- No property below a use has an index that leaves the table. -/
theorem toNat_index_add {part : Mapping} (hpart : part.Spanned) {offset : UInt16}
    (hfits : offset.toNat + part.sizes.length ≤ maxCount) {node : Node}
    (hnode : node ∈ part.properties) :
    (node.index + offset).toNat = node.index.toNat + offset.toNat := by
  obtain ⟨last, hlast, hspan⟩ := hpart.spans.of_mem hnode
  have hlt : node.index.toNat < last := hspan.lt_of_ne_nil nofun
  have hmax : maxCount = 65535 := rfl
  rw [UInt16.toNat_add, Nat.mod_eq_of_lt (by omega)]

/-- Every use of a struct in a compiled mapping is laid out as the struct is by itself.

Where a property stands for a struct, the struct compiles in the same scope, and the children of
the property are its properties, moved to the index of the property.  The sizes from this index
on are its sizes.  Every property with children stands for a struct or consists of such
properties. -/
theorem compileStruct_compositional {scope : Scope} (hscope : scope.Counted) {target : Struct}
    (htarget : target.Counted) {named : Bool} {m : Mapping}
    (hm : (compileStruct scope target named).result = .ok m) :
    (∀ node type, StandsFor scope target.members m.properties node type →
      ∃ part, (compileStruct scope type named).result = .ok part ∧
        node.children = part.properties.shift node.index ∧
        (∀ inner ∈ part.properties,
          (inner.index + node.index).toNat = inner.index.toNat + node.index.toNat) ∧
        (m.sizes.drop node.index.toNat).take part.sizes.length = part.sizes) ∧
    ∀ node ∈ m.properties, node.children ≠ .nil →
      IsUse scope target.members m.properties node := by
  obtain ⟨tree, htree, hadmits, hleaves, rfl⟩ := (compileStruct_eq_ok_iff hscope htarget).mp hm
  constructor
  · intro node type hnode
    obtain ⟨inner, before, after, hmem, hinner, hadinner, hflat, hindex, hchildren⟩ :=
      hnode.hasUse htree hadmits rfl
    have hlength := congrArg List.length hflat
    simp only [List.length_append, Unfolding.length_flat] at hlength
    have hpart : (compileStruct scope type named).result = .ok (inner.mapping named) :=
      (compileStruct_eq_ok_iff hscope (hscope type hmem)).mpr
        ⟨inner, hinner, hadinner, by omega, rfl⟩
    have hspanned := spanned_of_compileStruct hscope (hscope type hmem) hpart
    rw [Nat.zero_add] at hindex hchildren
    have hoffset : node.index.toNat = before.length := by
      rw [hindex]
      exact Unfolding.toNat_index (by omega)
    have hsizes : (inner.mapping named).sizes.length = inner.leafCount := by
      rw [Unfolding.mapping, List.length_map, inner.length_flat]
    refine ⟨inner.mapping named, hpart, ?_, ?_, ?_⟩
    · have hmoved := inner.forest_add named 0 before.length
      rw [Nat.zero_add, ← hindex, ← hchildren] at hmoved
      exact hmoved
    · intro below hbelow
      exact toNat_index_add hspanned (by omega) hbelow
    · rw [hoffset]
      simp only [Unfolding.mapping, hflat, List.map_append]
      rw [← List.length_map UInt8.ofNat, List.drop_left, List.take_left]
  · intro node hnode hne
    exact htree.isUse_of_mem named 0 hnode hne

/-- The second of the points of the route is laid out as a point is by itself. -/
theorem route_compositional : routeScope.Counted ∧ routeStruct.Counted ∧
    (compileStruct routeScope routeStruct true).result = .ok routeMapping ∧
    StandsFor routeScope routeStruct.members routeMapping.properties
      ⟨3, some "points[1]", pointForest 3⟩
      ⟨"Point", 1, [⟨"x", "f32", none, 2⟩, ⟨"label", "u8", some 3, 3⟩]⟩ ∧
    ∃ part : Mapping,
      (compileStruct routeScope
        ⟨"Point", 1, [⟨"x", "f32", none, 2⟩, ⟨"label", "u8", some 3, 3⟩]⟩ true).result = .ok part ∧
      pointForest 3 = part.properties.shift 3 ∧
      ([2, 4, 3, 4, 3, 4, 3].drop 3).take part.sizes.length = part.sizes := by
  have hscope : routeScope.Counted := by decide
  have htarget : routeStruct.Counted := by decide
  have hm : (compileStruct routeScope routeStruct true).result = .ok routeMapping := rfl
  have hstands : StandsFor routeScope routeStruct.members routeMapping.properties
      ⟨3, some "points[1]", pointForest 3⟩
      ⟨"Point", 1, [⟨"x", "f32", none, 2⟩, ⟨"label", "u8", some 3, 3⟩]⟩ :=
    .beside (.here rfl (.tail _ (.head _)))
  obtain ⟨part, hpart, hchildren, -, hsizes⟩ :=
    (compileStruct_compositional hscope htarget hm).1 _ _ hstands
  exact ⟨hscope, htarget, hm, hstands, part, hpart, hchildren, hsizes⟩

end FieldMap
