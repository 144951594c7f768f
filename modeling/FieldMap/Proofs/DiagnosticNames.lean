import FieldMap.Artifact.Encode
import FieldMap.Proofs.ForestNodes
import FieldMap.Proofs.LayoutSteps
import FieldMap.Proofs.UnfoldingLayout

/-!
# Names are diagnostic

Whether properties get names decides about nothing but the names.  A compilation with names and
one without take the same steps: they fail with the same error, or they come to the same table and
to forests that differ in names only.

* `Forest.Labels` relates a forest to the same forest without names, where every property has one
  or none has;
* `Agree` lifts a relation between results to outcomes, errors being the same;
* `expand_agree` is the statement for a struct at any level, by induction on the room.

A file without names holds of a property with children neither its name nor its index.
`Forest.SameLeaves` relates forests that differ in these alone, and `encode_unnamed_congr` says
that they make the same file.
-/

namespace FieldMap

namespace Forest

/-- The forest without its names. -/
def unnamed : Forest → Forest
  | nil => nil
  | cons index _ children siblings => cons index none (unnamed children) (unnamed siblings)

/-- The first forest is the second one, which has no names, with a name for every property or
for none. -/
inductive Labels (named : Bool) : Forest → Forest → Prop
  | nil : Labels named .nil .nil
  | cons (index : UInt16) {name : Option String} {children bare siblings rest : Forest}
      (hname : name.isSome = named) (hchildren : Labels named children bare)
      (hsiblings : Labels named siblings rest) :
      Labels named (.cons index name children siblings) (.cons index none bare rest)

section
variable {named : Bool} {f g : Forest}

theorem Labels.length_eq (h : Labels named f g) : f.length = g.length := by
  induction h with
  | nil => rfl
  | cons index _ _ _ _ ih => simp [ih]

theorem Labels.unnamed_eq (h : Labels named f g) : f.unnamed = g.unnamed := by
  induction h with
  | nil => rfl
  | cons index _ _ _ ihchildren ihsiblings => simp [unnamed, ihchildren, ihsiblings]

theorem Labels.isSome_name (h : Labels named f g) : ∀ node ∈ f, node.name.isSome = named := by
  induction h with
  | nil => simp
  | cons index hname _ _ ihchildren ihsiblings =>
      exact forall_mem_cons.mpr ⟨hname, ihchildren, ihsiblings⟩

theorem Labels.name_eq_none (h : Labels named f g) : ∀ node ∈ g, node.name = none := by
  induction h with
  | nil => simp
  | cons index _ _ _ ihchildren ihsiblings =>
      exact forall_mem_cons.mpr ⟨rfl, ihchildren, ihsiblings⟩

end

end Forest

namespace Compile

/-! ## Outcomes that agree -/

/-- Results that are related, or the same error. -/
inductive Agree {α β : Type} (related : α → β → Prop) :
    (outcome : Except CompileError α) → (other : Except CompileError β) → Prop
  | ok {a : α} {b : β} (h : related a b) : Agree related (.ok a) (.ok b)
  | error (e : CompileError) : Agree related (.error e) (.error e)

section
variable {α β γ δ : Type} {related : α → β → Prop} {after : γ → δ → Prop}
  {outcome : Except CompileError α} {other : Except CompileError β}

theorem Agree.bind {f : α → Except CompileError γ} {g : β → Except CompileError δ}
    (h : Agree related outcome other) (hnext : ∀ a b, related a b → Agree after (f a) (g b)) :
    Agree after (outcome >>= f) (other >>= g) := by
  cases h with
  | ok h => exact hnext _ _ h
  | error e => exact .error e

theorem Agree.map {f : α → γ} {g : β → δ} (h : Agree related outcome other)
    (hnext : ∀ a b, related a b → after (f a) (g b)) :
    Agree after (outcome.map f) (other.map g) := by
  cases h with
  | ok h => exact .ok (hnext _ _ h)
  | error e => exact .error e

/-- A step that both computations take alike may come first. -/
theorem agree_bind_same {f : α → Except CompileError γ} {g : α → Except CompileError δ}
    (first : Except CompileError α) (hnext : ∀ a, Agree after (f a) (g a)) :
    Agree after (first >>= f) (first >>= g) := by
  cases first with
  | ok a => exact hnext a
  | error e => exact .error e

end

/-- The same entries, and properties that differ in names only. -/
structure PlacedAlike (named : Bool) (placed bare : List UInt8 × Node) : Prop where
  sizes : placed.1 = bare.1
  index : placed.2.index = bare.2.index
  labelled : placed.2.name.isSome = named
  nameless : bare.2.name = none
  children : Forest.Labels named placed.2.children bare.2.children

/-- The same table, and forests that differ in names only. -/
structure LaidOutAlike (named : Bool) (layout bare : Layout) : Prop where
  sizes : layout.sizes = bare.sizes
  properties : Forest.Labels named layout.properties bare.properties

theorem PlacedAlike.push {named : Bool} {placed bare : List UInt8 × Node} {layout rest : Layout}
    (h : PlacedAlike named placed bare) (hlayout : LaidOutAlike named layout rest) :
    LaidOutAlike named ⟨placed.1 ++ layout.sizes, layout.properties.push placed.2⟩
      ⟨bare.1 ++ rest.sizes, rest.properties.push bare.2⟩ := by
  constructor
  · simp [h.sizes, hlayout.sizes]
  · simp only [Forest.push, h.index, h.nameless]
    exact .cons _ h.labelled h.children hlayout.properties

/-- Items that are placed alike one by one are placed alike in sequence. -/
theorem inSequence_agree {α : Type} {named : Bool}
    {piece piece' : Nat → α → Except CompileError (List UInt8 × Node)}
    (h : ∀ start item, Agree (PlacedAlike named) (piece start item) (piece' start item))
    (start : Nat) (items : List α) :
    Agree (LaidOutAlike named) (inSequence piece start items) (inSequence piece' start items) := by
  induction items generalizing start with
  | nil => exact .ok ⟨rfl, .nil⟩
  | cons item rest ih =>
      refine (h start item).bind fun placed bare hplaced => ?_
      have hnext : start + placed.1.length = start + bare.1.length := by rw [hplaced.sizes]
      rw [hnext]
      exact (ih _).map fun layout rest hlayout => hplaced.push hlayout

/-! ## A run with names and one without -/

theorem Context.isSome_name (scope : Scope) (named : Bool) (name : String) :
    (Context.name ⟨scope, named⟩ name).isSome = named := by
  cases named <;> rfl

section
variable {scope : Scope} {named : Bool} {owner nested : Struct} {trail : List String}
  {member : Member} {room : Nat}

theorem leaf_agree (start : Nat) (type : Primitive) :
    Agree (PlacedAlike named) (leaf ⟨scope, named⟩ owner start member type).result
      (leaf ⟨scope, false⟩ owner start member type).result := by
  unfold leaf
  by_cases hbytes : 255 < type.bytes member.copies
  · simp only [hbytes, if_true, Traced.result_fail]
    exact .error _
  · simp only [hbytes, if_false, Traced.result_bind, Traced.result_ofExcept,
      Traced.result_report, Traced.result_pure]
    exact agree_bind_same _ fun index =>
      .ok ⟨rfl, rfl, Context.isSome_name scope named member.name, rfl, .nil⟩

section
-- The struct below is laid out alike wherever there is less room.
variable (hbelow : ∀ level < room, ∀ start, Agree (LaidOutAlike named)
  (expand ⟨scope, named⟩ level trail start nested).result
  (expand ⟨scope, false⟩ level trail start nested).result)
include hbelow

theorem interior_agree (owner : Struct) (member : Member) (start : Nat) {name : Option String}
    (hname : name.isSome = named) :
    Agree (PlacedAlike named)
      (interior owner trail (below ⟨scope, named⟩ room) start member nested name).result
      (interior owner trail (below ⟨scope, false⟩ room) start member nested none).result := by
  cases room with
  | zero => exact .error _
  | succ room =>
      rw [result_interior, result_interior]
      refine agree_bind_same _ fun index => ?_
      refine (hbelow room (Nat.lt_succ_self room) start).map fun layout bare hlayout => ?_
      exact ⟨hlayout.sizes, rfl, hname, rfl, hlayout.properties⟩

theorem array_agree (start : Nat) :
    Agree (PlacedAlike named)
      (array ⟨scope, named⟩ owner trail (below ⟨scope, named⟩ room)
        (below ⟨scope, named⟩ (room - 1)) start member nested).result
      (array ⟨scope, false⟩ owner trail (below ⟨scope, false⟩ room)
        (below ⟨scope, false⟩ (room - 1)) start member nested).result := by
  cases room with
  | zero =>
      simp only [array, below, Option.isNone_none, if_true, Traced.result_bind,
        Traced.result_fail, Traced.result_ofExcept]
      exact agree_bind_same _ fun _ => .error _
  | succ room =>
      rw [Nat.add_sub_cancel, result_array, result_array]
      refine agree_bind_same _ fun _ => agree_bind_same _ fun index => ?_
      -- The elements have names of their own, whose texts do not matter either.
      have helements := inSequence_agree (fun start position =>
        interior_agree (fun level hlevel => hbelow level (Nat.lt_succ_of_lt hlevel)) owner member
          start (Context.isSome_name scope named (elementName member position)))
        start (List.range member.copies)
      refine helements.map fun layout bare hlayout => ?_
      exact ⟨hlayout.sizes, rfl, Context.isSome_name scope named member.name, rfl,
        hlayout.properties⟩

theorem structMember_agree (start : Nat) :
    Agree (PlacedAlike named)
      (structMember ⟨scope, named⟩ owner trail (below ⟨scope, named⟩ room)
        (below ⟨scope, named⟩ (room - 1)) start member nested).result
      (structMember ⟨scope, false⟩ owner trail (below ⟨scope, false⟩ room)
        (below ⟨scope, false⟩ (room - 1)) start member nested).result := by
  unfold structMember
  by_cases hcycle : trail.contains nested.name = true
  · simp only [hcycle, if_true]
    exact .error _
  by_cases hnone : nested.members.isEmpty = true
  · simp only [hcycle, hnone, if_true]
    exact .error _
  by_cases hone : member.copies = 1
  · simp only [hcycle, hnone, hone, if_true]
    exact interior_agree hbelow owner member start (Context.isSome_name scope named member.name)
  · simp only [hcycle, hnone, hone, if_false]
    exact array_agree hbelow start

end

theorem place_agree (scope : Scope) (trail : List String) (owner : Struct)
    (hbelow : ∀ nested : Struct, ∀ level < room, ∀ start, Agree (LaidOutAlike named)
      (expand ⟨scope, named⟩ level trail start nested).result
      (expand ⟨scope, false⟩ level trail start nested).result)
    (start : Nat) (member : Member) :
    Agree (PlacedAlike named)
      (place ⟨scope, named⟩ owner trail (below ⟨scope, named⟩ room)
        (below ⟨scope, named⟩ (room - 1)) start member).result
      (place ⟨scope, false⟩ owner trail (below ⟨scope, false⟩ room)
        (below ⟨scope, false⟩ (room - 1)) start member).result := by
  unfold place
  cases hresolve : scope.resolve member.typeName with
  | primitive type => exact leaf_agree start type
  | struct nested => exact structMember_agree (hbelow nested) start
  | unresolved => exact .error _

end

/-- A struct is laid out with names as it is without them, or fails with the same error.  The
induction is on the room. -/
theorem expand_agree (scope : Scope) (named : Bool) (room : Nat) (trail : List String)
    (start : Nat) (owner : Struct) :
    Agree (LaidOutAlike named) (expand ⟨scope, named⟩ room trail start owner).result
      (expand ⟨scope, false⟩ room trail start owner).result := by
  induction room using Nat.strongRecOn generalizing trail start owner with
  | ind room ih =>
      have hmembers := inSequence_agree (fun start member =>
        place_agree scope (owner.name :: trail) owner
          (fun nested level hlevel start => ih level hlevel _ start nested) start member)
        start owner.members
      rw [result_expand, result_expand]
      refine hmembers.bind fun layout bare hlayout => ?_
      rw [hlayout.properties.length_eq]
      cases checkChildCount owner bare.properties.length with
      | ok u => exact .ok hlayout
      | error e => exact .error e

end Compile

/-! ## Files without names -/

/-- Forests of one shape with the same indices at their leaves. -/
inductive Forest.SameLeaves : Forest → Forest → Prop
  | nil : SameLeaves .nil .nil
  | leaf (index : UInt16) (name name' : Option String) {siblings siblings' : Forest}
      (hsiblings : SameLeaves siblings siblings') :
      SameLeaves (.cons index name .nil siblings) (.cons index name' .nil siblings')
  | interior (index index' : UInt16) (name name' : Option String)
      {children children' siblings siblings' : Forest} (hne : children ≠ .nil)
      (hchildren : SameLeaves children children') (hsiblings : SameLeaves siblings siblings') :
      SameLeaves (.cons index name children siblings) (.cons index' name' children' siblings')

section
variable {f g : Forest}

theorem Forest.SameLeaves.length_eq (h : f.SameLeaves g) : f.length = g.length := by
  induction h with
  | nil => rfl
  | leaf index name name' _ ih => simp [ih]
  | interior index index' name name' _ _ _ _ ih => simp [ih]

theorem Forest.SameLeaves.ne_nil (h : f.SameLeaves g) (hf : f ≠ .nil) : g ≠ .nil := by
  rw [← length_pos_iff] at hf ⊢
  rwa [← h.length_eq]

theorem Forest.SameLeaves.forestBytes_eq (h : f.SameLeaves g) :
    Artifact.forestBytes false f = Artifact.forestBytes false g := by
  induction h with
  | nil => rfl
  | leaf index name name' _ ih =>
      simp only [Artifact.forestBytes_cons, Artifact.nodeBytes, ih]
      rfl
  | interior index index' name name' hne hchildren _ ihchildren ihsiblings =>
      have hempty := Forest.isEmpty_eq_false_iff.mpr hne
      have hempty' := Forest.isEmpty_eq_false_iff.mpr (hchildren.ne_nil hne)
      simp only [Artifact.forestBytes_cons, Artifact.nodeBytes, hempty, hempty',
        hchildren.length_eq, ihchildren, ihsiblings]
      rfl

theorem Forest.SameLeaves.forestExcess?_eq (h : f.SameLeaves g) :
    Artifact.forestExcess? false f = Artifact.forestExcess? false g := by
  induction h with
  | nil => rfl
  | leaf index name name' _ ih =>
      simp only [Artifact.forestExcess?, Artifact.ownExcess?, ih]
      rfl
  | interior index index' name name' _ hchildren _ ihchildren ihsiblings =>
      simp only [Artifact.forestExcess?, Artifact.ownExcess?, hchildren.length_eq, ihchildren,
        ihsiblings]
      rfl

end

theorem Artifact.encode_unnamed_congr {m m' : Mapping} (hsizes : m.sizes = m'.sizes)
    (h : m.properties.SameLeaves m'.properties) :
    Artifact.encode m false = Artifact.encode m' false := by
  have hexcess : Artifact.excess? m false = Artifact.excess? m' false := by
    simp only [Artifact.excess?, hsizes, h.length_eq, h.forestExcess?_eq]
  have hbytes : Artifact.bytes m false = Artifact.bytes m' false := by
    simp only [Artifact.bytes_eq, hsizes, h.length_eq, h.forestBytes_eq]
  rw [Artifact.encode, Artifact.encode, hexcess, hbytes]

/-- The mapping without its names. -/
def Mapping.unnamed (m : Mapping) : Mapping :=
  ⟨m.sizes, m.properties.unnamed⟩

/-- Whether properties get names makes no other difference: the same error, or mappings that are
the same without their names, where every property has a name in the one and none has in the
other.  And a file without names does not depend on names, nor on the indices of properties with
children. -/
theorem compileStruct_names_diagnostic (scope : Scope) (target : Struct) :
    ((∃ e, (compileStruct scope target true).result = .error e ∧
        (compileStruct scope target false).result = .error e) ∨
      ∃ m bare, (compileStruct scope target true).result = .ok m ∧
        (compileStruct scope target false).result = .ok bare ∧ m.unnamed = bare.unnamed ∧
        (∀ node ∈ m.properties, node.name.isSome = true) ∧
        ∀ node ∈ bare.properties, node.name = none) ∧
    ∀ m m' : Mapping, m.sizes = m'.sizes → m.properties.SameLeaves m'.properties →
      Artifact.encode m false = Artifact.encode m' false := by
  refine ⟨?_, fun m m' hsizes h => Artifact.encode_unnamed_congr hsizes h⟩
  have hlayout := Compile.expand_agree scope true maxDepth [] 0 target
  simp only [compileStruct, Traced.result_bind, Traced.result_report, Traced.result_pure]
  generalize (Compile.expand ⟨scope, true⟩ maxDepth [] 0 target).result = outcome at hlayout ⊢
  generalize (Compile.expand ⟨scope, false⟩ maxDepth [] 0 target).result = other at hlayout ⊢
  cases hlayout with
  | error e => exact .inl ⟨e, rfl, rfl⟩
  | @ok layout bare h =>
      refine .inr ⟨_, _, rfl, rfl, ?_, h.properties.isSome_name, h.properties.name_eq_none⟩
      simp only [Mapping.unnamed, h.sizes, h.properties.unnamed_eq]

/-- Two entries under one property, all with names. -/
def namedPair : Mapping :=
  ⟨[1, 2], .cons 0 (some "pair") (.cons 0 (some "x") .nil (.cons 1 (some "y") .nil .nil)) .nil⟩

/-- The same with hardly a name, and with an index that leads nowhere. -/
def strayPair : Mapping :=
  ⟨[1, 2], .cons 7 none (.cons 0 none .nil (.cons 1 (some "") .nil .nil)) .nil⟩

/-- The route compiles with names and without, and both pairs make the same file. -/
theorem route_names_diagnostic :
    (∃ m bare, (compileStruct routeScope routeStruct true).result = .ok m ∧
      (compileStruct routeScope routeStruct false).result = .ok bare ∧ m.unnamed = bare.unnamed) ∧
    namedPair.sizes = strayPair.sizes ∧ namedPair.properties.SameLeaves strayPair.properties ∧
      Artifact.encode namedPair false = Artifact.encode strayPair false := by
  obtain ⟨hroute, hpair⟩ := compileStruct_names_diagnostic routeScope routeStruct
  have hsame : namedPair.properties.SameLeaves strayPair.properties :=
    .interior 0 7 _ _ (by simp) (.leaf 0 _ _ (.leaf 1 _ _ .nil)) .nil
  refine ⟨?_, rfl, hsame, hpair namedPair strayPair rfl hsame⟩
  rcases hroute with ⟨e, herror, -⟩ | ⟨m, bare, hm, hbare, hunnamed, -⟩
  · cases herror
  · exact ⟨m, bare, hm, hbare, hunnamed⟩

end FieldMap
