import FieldMap.Proofs.UnfoldingLayout

/-!
# Members are never too many when they are counted

The properties of a struct are counted after its members have been laid out.  By then the table of
sizes has set a bound already: a member that has been laid out has appended an entry at least, and
the table takes no more than 65535.  So the count never refuses a struct; one with too many members
has been refused before, at the latest for the first member that finds the table full.

* `growMember` is one step of the loop over the members of a struct, and `expand_eq_growMember` says
  that a struct is laid out by this loop and the count behind it.
* `Progress.Grown` says what some members have added to a layout: a property for each of them, and
  at least as many entries.  `grown_growMember` is the statement for one step and `grown_fold` for
  the whole loop.
* `expand_eq_without_count` follows: without the count, events and outcome would be the same.
-/

namespace FieldMap

/-- What follows a computation may be exchanged for what does the same behind its success. -/
theorem Traced.bind_congr_of_ok {ε α β : Type} {x : Traced ε α} {f g : α → Traced ε β}
    (h : ∀ a, x.result = .ok a → f a = g a) : x >>= f = x >>= g := by
  obtain ⟨events, result⟩ := x
  cases result with
  | error e => rfl
  | ok a =>
      have hbehind : f a = g a := h a rfl
      show Traced.bind ⟨events, .ok a⟩ f = Traced.bind ⟨events, .ok a⟩ g
      simp only [Traced.bind, hbehind]

theorem Forest.length_ofReversed (nodes : List Node) :
    (Forest.ofReversed nodes).length = nodes.length := by
  have hnodes : Forest.ofReversed nodes = Forest.ofNodes nodes.reverse := by
    rw [Forest.ofNodes, List.reverse_reverse]
  rw [hnodes, ← Forest.length_nodes, Forest.nodes_ofNodes, List.length_reverse]

namespace Compile

/-- Lays out one more member of a struct, with so much room below it. -/
def growMember (context : Context) (owner : Struct) (trail : List String) (room : Nat)
    (progress : Progress) (member : Member) : Traced CompileError Progress :=
  progress.grow fun start =>
    place context owner (owner.name :: trail) (below context room) (below context (room - 1))
      start member

/-- A struct is laid out member by member, and the properties are counted at the end. -/
theorem expand_eq_growMember (context : Context) (room : Nat) (trail : List String) (start : Nat)
    (owner : Struct) :
    expand context room trail start owner = (do
      Traced.report (.expanding (owner.name :: trail))
      let progress ← Traced.fold (growMember context owner trail room) ⟨start, [], []⟩
        owner.members
      Traced.ofExcept (checkChildCount owner progress.nodes.length)
      pure progress.layout) := by
  rw [expand_eq_expandWith]
  rfl

/-! ## What members add -/

/-- So many members have been laid out from the first progress to the second.  Each has added a
property and an entry at least, and the entries have not gone beyond the table. -/
structure Progress.Grown (count : Nat) (before after : Progress) : Prop where
  nodes : after.nodes.length = before.nodes.length + count
  sizes : before.sizes.length + count ≤ after.sizes.length
  next : after.next + before.sizes.length = before.next + after.sizes.length
  fits : after.next ≤ max before.next maxCount

section
variable {before between after : Progress} {count more : Nat}

theorem Progress.Grown.refl (progress : Progress) : Progress.Grown 0 progress progress :=
  ⟨rfl, Nat.le_refl _, rfl, Nat.le_max_left _ _⟩

theorem Progress.Grown.trans (h : Progress.Grown count before between)
    (h' : Progress.Grown more between after) : Progress.Grown (count + more) before after := by
  obtain ⟨hnodes, hsizes, hnext, hfits⟩ := h
  obtain ⟨hnodes', hsizes', hnext', hfits'⟩ := h'
  exact ⟨by omega, by omega, by omega, by omega⟩

/-- A property with entries that fit in the table is one more member. -/
theorem grown_push {sizes : List UInt8} (node : Node) (hpos : 0 < sizes.length)
    (hfits : before.next + sizes.length ≤ maxCount) :
    Progress.Grown 1 before (before.push sizes node) := by
  have hsizes : (before.push sizes node).sizes.length = before.sizes.length + sizes.length := by
    simp [Progress.push, Nat.add_comm]
  have hnext : (before.push sizes node).next = before.next + sizes.length := rfl
  exact ⟨rfl, by omega, by omega, by omega⟩

/-- However a layout has begun, it does not grow by more members than the table has entries. -/
theorem Progress.Grown.count_le {start : Nat} (h : Progress.Grown count ⟨start, [], []⟩ after) :
    count ≤ maxCount := by
  have hsizes : 0 + count ≤ after.sizes.length := h.sizes
  have hnext : after.next + 0 = start + after.sizes.length := h.next
  have hfits : after.next ≤ max start maxCount := h.fits
  omega

end

section
variable {scope : Scope} {named : Bool} {owner : Struct} {trail : List String} {room start : Nat}
  {member : Member} {before after : Progress}
variable (hscope : scope.Counted)
include hscope

/-- A member that can be placed appends an entry at least, and no more than the table takes. -/
theorem length_sizes_of_place (hcopies : 0 < member.copies) {sizes : List UInt8} {node : Node}
    (h : (place ⟨scope, named⟩ owner trail (below ⟨scope, named⟩ room)
      (below ⟨scope, named⟩ (room - 1)) start member).result = .ok (sizes, node)) :
    0 < sizes.length ∧ start + sizes.length ≤ maxCount := by
  unfold place at h
  split at h
  · next type hresolve =>
      obtain ⟨-, hstart, hplaced⟩ := leaf_eq_ok_iff.mp h
      cases hplaced
      exact ⟨Nat.one_pos, hstart⟩
  · next nested hresolve =>
      have hcounted : nested.Counted := hscope.of_resolve hresolve
      have hstart : start < maxCount := by
        obtain ⟨-, -, hbegun⟩ := structMember_eq_ok_iff.mp h
        split at hbegun
        · exact (interior_eq_ok_iff.mp hbegun).2.1
        · exact (array_eq_ok_iff.mp hbegun).2.2.1
      have hrooms (r : Nat) (_ : r < room) : LaysOut scope named r := laysOut hscope named r
      obtain ⟨-, hne, -, inner, hinner, hadmits, hfits, hplaced⟩ :=
        (structMember_eq_ok_iff_unfolding hscope hcounted hcopies hrooms (Nat.le_of_lt hstart) owner
          trail (sizes, node)).mp h
      have hleaves : 0 < inner.leafCount := leafCount_pos hscope hcounted hne hinner hadmits
      have hlength : sizes.length = member.copies * inner.leafCount := by
        rw [(Prod.mk.inj hplaced).1]
        simp [Unfolding.length_flat]
      rw [hlength]
      exact ⟨Nat.mul_pos hcopies hleaves, hfits⟩
  · cases h

/-- One step of the loop adds one member. -/
theorem grown_growMember (hcopies : 0 < member.copies)
    (h : (growMember ⟨scope, named⟩ owner trail room before member).result = .ok after) :
    Progress.Grown 1 before after := by
  rw [growMember, result_grow] at h
  obtain ⟨⟨sizes, node⟩, hplace, rfl⟩ := map_eq_ok_iff.mp h
  obtain ⟨hpos, hfits⟩ := length_sizes_of_place hscope hcopies hplace
  exact grown_push node hpos hfits

/-- The loop adds all of its members. -/
theorem grown_fold {members : List Member} (hcopies : ∀ m ∈ members, 0 < m.copies)
    (h : (Traced.fold (growMember ⟨scope, named⟩ owner trail room) before members).result =
      .ok after) : Progress.Grown members.length before after := by
  induction members generalizing before with
  | nil =>
      cases h
      exact Progress.Grown.refl _
  | cons member members ih =>
      obtain ⟨hcopy, hrest⟩ := List.forall_mem_cons.mp hcopies
      rw [Traced.fold_cons] at h
      obtain ⟨between, hstep, hloop⟩ := Traced.bind_eq_ok_iff.mp h
      have hgrown := (grown_growMember hscope hcopy hstep).trans (ih hrest hloop)
      rwa [Nat.add_comm, ← List.length_cons] at hgrown

/-! ## The count -/

/-- When the properties of a struct are counted, there is one for each member and an entry for each
property, so that there are not too many. -/
theorem counts_of_fold (howner : owner.Counted)
    (h : (Traced.fold (growMember ⟨scope, named⟩ owner trail room) ⟨start, [], []⟩
      owner.members).result = .ok after) :
    after.nodes.length = owner.members.length ∧ after.nodes.length ≤ after.sizes.length ∧
      after.nodes.length ≤ maxCount := by
  have hgrown := grown_fold hscope (fun m hm => howner.copies_pos hm) h
  have hle : owner.members.length ≤ maxCount := hgrown.count_le
  have hnodes : after.nodes.length = 0 + owner.members.length := hgrown.nodes
  have hsizes : 0 + owner.members.length ≤ after.sizes.length := hgrown.sizes
  exact ⟨by omega, by omega, by omega⟩

/-- Without the count, events and outcome would be the same. -/
theorem expand_eq_without_count (howner : owner.Counted) :
    expand ⟨scope, named⟩ room trail start owner = (do
      Traced.report (.expanding (owner.name :: trail))
      let progress ← Traced.fold (growMember ⟨scope, named⟩ owner trail room) ⟨start, [], []⟩
        owner.members
      pure progress.layout) := by
  rw [expand_eq_growMember]
  refine Traced.bind_congr_of_ok fun _ _ => Traced.bind_congr_of_ok fun progress hloop => ?_
  have hcount : checkChildCount owner progress.nodes.length = .ok () :=
    checkChildCount_eq_ok_iff.mpr (counts_of_fold hscope howner hloop).2.2
  rw [hcount]
  rfl

/-- A struct that has been laid out has an entry for each of its properties. -/
theorem length_properties_le_of_expand (howner : owner.Counted) {layout : Layout}
    (h : (expand ⟨scope, named⟩ room trail start owner).result = .ok layout) :
    layout.properties.length ≤ layout.sizes.length := by
  rw [expand_eq_without_count hscope howner, Traced.bind_eq_ok_iff] at h
  obtain ⟨_, -, h⟩ := h
  obtain ⟨progress, hloop, hlayout⟩ := Traced.bind_eq_ok_iff.mp h
  cases hlayout
  rw [Progress.layout, Forest.length_ofReversed, List.length_reverse]
  exact (counts_of_fold hscope howner hloop).2.1

/-- With too many members, one of them is refused. -/
theorem exists_error_of_length_lt (howner : owner.Counted)
    (hmany : maxCount < owner.members.length) :
    ∃ e, (Traced.fold (growMember ⟨scope, named⟩ owner trail room) ⟨start, [], []⟩
      owner.members).result = .error e := by
  cases hloop : (Traced.fold (growMember ⟨scope, named⟩ owner trail room) ⟨start, [], []⟩
      owner.members).result with
  | error e => exact ⟨e, rfl⟩
  | ok progress =>
      obtain ⟨hnodes, -, hle⟩ := counts_of_fold hscope howner hloop
      omega

end

end Compile

/-- No struct is ever refused for the number of its own members.

Wherever a struct of a compilation is laid out, each of its members appends an entry at least; so
when all of them have been laid out they are not too many, and the count at the end could as well be
left out.  A struct with too many members is refused before, for one of them.  A mapping therefore
has no more properties side by side than sizes. -/
theorem compileStruct_member_count {scope : Scope} (hscope : scope.Counted) {target : Struct}
    (htarget : target.Counted) (named : Bool) :
    (∀ owner, owner = target ∨ owner ∈ scope.structs → ∀ room trail start,
      (∀ member ∈ owner.members, ∀ before after,
        (Compile.growMember ⟨scope, named⟩ owner trail room before member).result = .ok after →
          before.sizes.length + 1 ≤ after.sizes.length) ∧
      (∀ progress, (Traced.fold (Compile.growMember ⟨scope, named⟩ owner trail room)
        ⟨start, [], []⟩ owner.members).result = .ok progress →
          progress.nodes.length ≤ 65535 ∧
            Compile.checkChildCount owner progress.nodes.length = .ok ()) ∧
      Compile.expand ⟨scope, named⟩ room trail start owner = (do
        Traced.report (.expanding (owner.name :: trail))
        let progress ← Traced.fold (Compile.growMember ⟨scope, named⟩ owner trail room)
          ⟨start, [], []⟩ owner.members
        pure progress.layout) ∧
      (65535 < owner.members.length →
        ∃ e, (Traced.fold (Compile.growMember ⟨scope, named⟩ owner trail room)
          ⟨start, [], []⟩ owner.members).result = .error e)) ∧
    ∀ m, (compileStruct scope target named).result = .ok m →
      m.properties.length ≤ m.sizes.length := by
  constructor
  · intro owner howner room trail start
    have hcounted : owner.Counted := by
      rcases howner with rfl | hmem
      · exact htarget
      · exact hscope owner hmem
    refine ⟨?_, ?_, Compile.expand_eq_without_count hscope hcounted, ?_⟩
    · intro member hmember before after hstep
      exact (Compile.grown_growMember hscope (hcounted.copies_pos hmember) hstep).sizes
    · intro progress hloop
      have hle := (Compile.counts_of_fold hscope hcounted hloop).2.2
      exact ⟨hle, Compile.checkChildCount_eq_ok_iff.mpr hle⟩
    · exact Compile.exists_error_of_length_lt hscope hcounted
  · intro m hm
    rw [compileStruct, Traced.bind_eq_ok_iff] at hm
    obtain ⟨layout, hlayout, hm⟩ := hm
    cases hm
    exact Compile.length_properties_le_of_expand hscope htarget hlayout

/-- A struct with one member too many. -/
def crowdStruct : Struct :=
  ⟨"Crowd", 1, List.replicate 65536 ⟨"one", "u8", none, 2⟩⟩

/-- The crowd is refused for one of its members, wherever it is laid out, and the route has a size
for each of its properties. -/
theorem crowd_refused_early :
    Struct.Counted crowdStruct ∧ 65535 < crowdStruct.members.length ∧
      (∃ e, (Traced.fold (Compile.growMember ⟨routeScope, true⟩ crowdStruct [] maxDepth)
        ⟨0, [], []⟩ crowdStruct.members).result = .error e) ∧
      (compileStruct routeScope routeStruct true).result = .ok routeMapping ∧
      routeMapping.properties.length ≤ routeMapping.sizes.length := by
  have hcrowd : crowdStruct.Counted := by
    rw [Struct.counted_iff]
    intro member hmember
    rw [List.eq_of_mem_replicate hmember]
    exact Nat.one_pos
  have hmany : 65535 < crowdStruct.members.length := by
    rw [crowdStruct, List.length_replicate]
    omega
  have hroute : (compileStruct routeScope routeStruct true).result = .ok routeMapping := rfl
  have hscope : routeScope.Counted := by decide
  obtain ⟨hlaid, -⟩ := compileStruct_member_count hscope hcrowd true
  obtain ⟨-, -, -, hrefused⟩ := hlaid crowdStruct (.inl rfl) maxDepth [] 0
  exact ⟨hcrowd, hmany, hrefused hmany, hroute,
    (compileStruct_member_count hscope (by decide) true).2 _ hroute⟩

end FieldMap
