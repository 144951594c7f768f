import FieldMap.Proofs.UnfoldingLayout
import Mathlib.Data.List.Nodup

/-!
# Chains of references

A compilation meets its checks in the order of a depth-first walk: sizes, cycles, empty
structs, levels and the size table all take turns.  Whether it succeeds does not depend
on that order.  Everything but the number of leaves is a condition on the *chains of
references* that start at the target:

* `Chain` is a chain, every link of it a member and the struct that its type names;
* `chainNames` are the structs that it meets and `chainLevels` the levels that it opens;
* `Compilable` lists the conditions, none of which mentions a state of the compilation.

`Scope.leavesWithin` counts leaves as far as chains of a given length reach, so that the
condition on their number makes sense of cyclic structs as well.

A compilation succeeds exactly on compilable targets.  One half of the proof follows the
chain into the unfolding, the other builds the unfolding by induction on the levels that
are left.
-/

namespace FieldMap

/-- A member, and the struct that its type names. -/
structure Reference where
  member : Member
  target : Struct

/-- A chain of references from one struct to another. -/
inductive Chain (scope : Scope) : (first : Struct) → List Reference → (last : Struct) → Prop
  | nil (s : Struct) : Chain scope s [] s
  | cons {first next last : Struct} {member : Member} {references : List Reference}
      (hmember : member ∈ first.members)
      (hresolve : scope.resolve member.typeName = .struct next)
      (hrest : Chain scope next references last) :
      Chain scope first (⟨member, next⟩ :: references) last

theorem Chain.snoc {scope : Scope} {first last next : Struct} {references : List Reference}
    {member : Member} (hchain : Chain scope first references last)
    (hmember : member ∈ last.members) (hresolve : scope.resolve member.typeName = .struct next) :
    Chain scope first (references ++ [⟨member, next⟩]) next := by
  induction hchain with
  | nil s => exact .cons hmember hresolve (.nil next)
  | cons hfirst hnext _ ih => exact .cons hfirst hnext (ih hmember)

/-- The names of the structs on a chain. -/
def chainNames (first : Struct) (references : List Reference) : List String :=
  first.name :: references.map (·.target.name)

/-- The levels of properties that the references of a chain open. -/
def chainLevels (references : List Reference) : Nat :=
  (references.map (·.member.levels)).sum

/-- The leaves that a member stands for, given those of every struct. -/
def Scope.memberLeaves (scope : Scope) (leaves : Struct → Nat) (member : Member) : Nat :=
  match scope.resolve member.typeName with
  | .primitive _ => 1
  | .struct s => member.copies * leaves s
  | .unresolved => 0

/-- The leaves of a struct, as far as they lie on chains of less than so many references. -/
def Scope.leavesWithin (scope : Scope) : (depth : Nat) → Struct → Nat
  | 0, _ => 0
  | depth + 1, s => (s.members.map (scope.memberLeaves (scope.leavesWithin depth))).sum

/-- What a struct has to fulfil to have a mapping. -/
structure Compilable (scope : Scope) (target : Struct) : Prop where
  /-- Every type within reach is a primitive or a struct of the scope. -/
  resolved : ∀ references last, Chain scope target references last →
    ∀ member ∈ last.members, scope.resolve member.typeName ≠ .unresolved
  /-- No chain meets a name twice. -/
  acyclic : ∀ references last, Chain scope target references last →
    (chainNames target references).Nodup
  /-- No struct that is referred to is empty. -/
  inhabited : ∀ references last, Chain scope target references last →
    references ≠ [] → last.members ≠ []
  /-- The bytes of every member of primitive type fit in an entry of the size table. -/
  sized : ∀ references last, Chain scope target references last →
    ∀ member ∈ last.members, ∀ type, scope.resolve member.typeName = .primitive type →
      type.size * member.copies ≤ 255
  /-- The leaves fit in the size table. -/
  leaves : ∀ depth, scope.leavesWithin depth target ≤ 65535
  /-- No chain opens too many levels. -/
  levels : ∀ references last, Chain scope target references last → chainLevels references ≤ 256

/-! ## Members that can be placed -/

/-- A member can be placed below the trail, within so many levels. -/
def Scope.Places (scope : Scope) (trail : List String) (room : Nat) (member : Member) : Prop :=
  match scope.resolve member.typeName with
  | .primitive type => type.size * member.copies ≤ 255
  | .struct s => s.name ∉ trail ∧ s.members ≠ [] ∧ member.levels ≤ room ∧
      ∃ inner, Unfolds scope s.members inner ∧
        inner.Admits (s.name :: trail) (room - member.levels)
  | .unresolved => False

/-- Members have an admitted unfolding when each of them can be placed. -/
theorem exists_admits_iff {scope : Scope} {trail : List String} {room : Nat}
    {members : List Member} :
    (∃ tree, Unfolds scope members tree ∧ tree.Admits trail room) ↔
      ∀ member ∈ members, scope.Places trail room member := by
  induction members with
  | nil =>
      constructor
      · intro _ member hmember
        cases hmember
      · intro _
        exact ⟨.nil, .nil, trivial⟩
  | cons member members ih =>
      rw [List.forall_mem_cons, ← ih]
      unfold Scope.Places
      cases hresolve : scope.resolve member.typeName with
      | unresolved =>
          constructor
          · rintro ⟨tree, htree, _⟩
            exact absurd htree (Unfolds.not_cons_of_unresolved hresolve)
          · rintro ⟨hfalse, _⟩
            exact hfalse.elim
      | primitive type =>
          constructor
          · rintro ⟨tree, htree, hadmits⟩
            obtain ⟨rest, hrest, rfl⟩ := (Unfolds.cons_iff_of_primitive hresolve).mp htree
            exact ⟨hadmits.1, rest, hrest, hadmits.2⟩
          · rintro ⟨hsize, rest, hrest, hadmits⟩
            exact ⟨_, .primitive hresolve hrest, hsize, hadmits⟩
      | struct s =>
          constructor
          · rintro ⟨tree, htree, hadmits⟩
            obtain ⟨inner, rest, hinner, hrest, rfl⟩ :=
              (Unfolds.cons_iff_of_struct hresolve).mp htree
            obtain ⟨hcycle, hne, hlevels, hadinner, hadmits⟩ := hadmits
            exact ⟨⟨hcycle, hne, hlevels, inner, hinner, hadinner⟩, rest, hrest, hadmits⟩
          · rintro ⟨⟨hcycle, hne, hlevels, inner, hinner, hadinner⟩, rest, hrest, hadmits⟩
            exact ⟨_, .nested hresolve hinner hrest, hcycle, hne, hlevels, hadinner, hadmits⟩

/-! ## Chains below a trail -/

/-- The conditions on one chain from a struct that stands below a trail. -/
structure ChainFits (scope : Scope) (trail : List String) (room : Nat) (first : Struct)
    (references : List Reference) (last : Struct) : Prop where
  resolved : ∀ member ∈ last.members, scope.resolve member.typeName ≠ .unresolved
  acyclic : ((references.map (·.target.name)).reverse ++ first.name :: trail).Nodup
  inhabited : references ≠ [] → last.members ≠ []
  sized : ∀ member ∈ last.members, ∀ type, scope.resolve member.typeName = .primitive type →
    type.size * member.copies ≤ 255
  levels : chainLevels references ≤ room

theorem Member.levels_pos (member : Member) : 0 < member.levels := by
  unfold Member.levels
  split <;> omega

/-- A chain fits below a trail when its rest fits below the trail with its first struct. -/
theorem chainFits_cons {scope : Scope} {trail : List String} {room : Nat}
    {first next last : Struct} {member : Member} {references : List Reference}
    (hlevels : member.levels ≤ room) (hne : next.members ≠ [])
    (hchain : Chain scope next references last)
    (h : ChainFits scope (first.name :: trail) (room - member.levels) next references last) :
    ChainFits scope trail room first (⟨member, next⟩ :: references) last where
  resolved := h.resolved
  acyclic := by simpa using h.acyclic
  inhabited := by
    intro _
    cases hchain with
    | nil => exact hne
    | cons _ _ _ => exact h.inhabited (List.cons_ne_nil _ _)
  sized := h.sized
  levels := by
    have hrest := h.levels
    simp only [chainLevels, List.map_cons, List.sum_cons] at hrest ⊢
    omega

/-- Every chain into an admitted unfolding fits. -/
theorem Chain.fits {scope : Scope} {first last : Struct} {references : List Reference}
    (hchain : Chain scope first references last) {trail : List String} {room : Nat}
    (htrail : (first.name :: trail).Nodup)
    (hplaces : ∀ member ∈ first.members, scope.Places (first.name :: trail) room member) :
    ChainFits scope trail room first references last := by
  induction hchain generalizing trail room with
  | nil s =>
      refine ⟨?_, by simpa using htrail, fun h => absurd rfl h, ?_, Nat.zero_le _⟩
      · intro member hmember hresolve
        have hplace := hplaces member hmember
        rw [Scope.Places, hresolve] at hplace
        exact hplace
      · intro member hmember type hresolve
        have hplace := hplaces member hmember
        rw [Scope.Places, hresolve] at hplace
        exact hplace
  | @cons first next last member references hmember hresolve hrest ih =>
      have hplace := hplaces member hmember
      rw [Scope.Places, hresolve] at hplace
      obtain ⟨hcycle, hne, hlevels, inner, hinner, hadmits⟩ := hplace
      exact chainFits_cons hlevels hne hrest
        (ih (List.nodup_cons.mpr ⟨hcycle, htrail⟩) (exists_admits_iff.mp ⟨inner, hinner, hadmits⟩))

/-- Where all chains fit, the members can be placed.  The induction is on the room: every
reference takes a level of it. -/
theorem places_of_chainFits {scope : Scope} (room : Nat) {first : Struct} {trail : List String}
    (hfits : ∀ references last, Chain scope first references last →
      ChainFits scope trail room first references last) :
    ∀ member ∈ first.members, scope.Places (first.name :: trail) room member := by
  induction room using Nat.strongRecOn generalizing first trail with
  | ind room ih =>
      intro member hmember
      have hhere := hfits [] first (.nil first)
      unfold Scope.Places
      cases hresolve : scope.resolve member.typeName with
      | unresolved => exact hhere.resolved member hmember hresolve
      | primitive type => exact hhere.sized member hmember type hresolve
      | struct next =>
          -- The chain of this one reference shows that its struct can be entered.
          have hstep := hfits [⟨member, next⟩] next (.cons hmember hresolve (.nil next))
          have hlevels : member.levels ≤ room := by simpa [chainLevels] using hstep.levels
          have hpos := member.levels_pos
          refine ⟨?_, hstep.inhabited (List.cons_ne_nil _ _), hlevels, ?_⟩
          · have hnodup : (next.name :: first.name :: trail).Nodup := by simpa using hstep.acyclic
            exact (List.nodup_cons.mp hnodup).1
          · refine exists_admits_iff.mpr (ih (room - member.levels) (by omega) ?_)
            intro references last hchain
            -- A chain from there is the rest of a chain from here.
            have hlong := hfits _ last (.cons hmember hresolve hchain)
            refine ⟨hlong.resolved, by simpa using hlong.acyclic, ?_, hlong.sized, ?_⟩
            · intro _
              exact hlong.inhabited (List.cons_ne_nil _ _)
            · have hall := hlong.levels
              simp only [chainLevels, List.map_cons, List.sum_cons] at hall ⊢
              omega

/-! ## Leaves -/

/-- No depth shows more leaves than the unfolding has. -/
theorem Unfolds.sum_memberLeaves_le {scope : Scope} {members : List Member} {tree : Unfolding}
    (h : Unfolds scope members tree) (depth : Nat) :
    (members.map (scope.memberLeaves (scope.leavesWithin depth))).sum ≤ tree.leafCount := by
  induction h generalizing depth with
  | nil => simp
  | primitive hresolve _ ih =>
      have hrest := ih depth
      simp only [List.map_cons, List.sum_cons, Unfolding.leafCount, Scope.memberLeaves, hresolve]
      exact Nat.add_le_add_left hrest 1
  | @nested member type members inner rest hresolve _ _ ihinner ihrest =>
      have hinner : scope.leavesWithin depth type ≤ inner.leafCount := by
        cases depth with
        | zero => exact Nat.zero_le _
        | succ depth => exact ihinner depth
      simp only [List.map_cons, List.sum_cons, Unfolding.leafCount, Scope.memberLeaves, hresolve]
      exact Nat.add_le_add (Nat.mul_le_mul_left _ hinner) (ihrest depth)

/-- From some depth on, all leaves are seen. -/
theorem Unfolds.exists_sum_memberLeaves_eq {scope : Scope} {members : List Member}
    {tree : Unfolding} (h : Unfolds scope members tree) :
    ∃ bound, ∀ depth, bound ≤ depth →
      (members.map (scope.memberLeaves (scope.leavesWithin depth))).sum = tree.leafCount := by
  induction h with
  | nil => exact ⟨0, fun _ _ => rfl⟩
  | primitive hresolve _ ih =>
      obtain ⟨bound, hbound⟩ := ih
      refine ⟨bound, fun depth hdepth => ?_⟩
      simp only [List.map_cons, List.sum_cons, Unfolding.leafCount, Scope.memberLeaves, hresolve]
      rw [← hbound depth hdepth]
  | @nested member type members inner rest hresolve _ _ ihinner ihrest =>
      obtain ⟨boundInner, hinner⟩ := ihinner
      obtain ⟨boundRest, hrest⟩ := ihrest
      -- The struct of the member is seen one reference later than the member itself.
      refine ⟨max (boundInner + 1) boundRest, fun depth hdepth => ?_⟩
      obtain ⟨depth, rfl⟩ : ∃ below, depth = below + 1 := ⟨depth - 1, by omega⟩
      have hhere : scope.leavesWithin (depth + 1) type = inner.leafCount :=
        hinner depth (by omega)
      simp only [List.map_cons, List.sum_cons, Unfolding.leafCount]
      rw [hrest (depth + 1) (by omega), Scope.memberLeaves, hresolve]
      simp only [hhere]

/-- The leaves of an unfolding are bounded when those within every depth are. -/
theorem leafCount_le_iff {scope : Scope} {s : Struct} {tree : Unfolding}
    (h : Unfolds scope s.members tree) {bound : Nat} :
    tree.leafCount ≤ bound ↔ ∀ depth, scope.leavesWithin depth s ≤ bound := by
  constructor
  · intro hle depth
    cases depth with
    | zero => exact Nat.zero_le _
    | succ depth => exact Nat.le_trans (h.sum_memberLeaves_le depth) hle
  · intro hle
    obtain ⟨depth, hdepth⟩ := h.exists_sum_memberLeaves_eq
    rw [← hdepth depth (Nat.le_refl _)]
    exact hle (depth + 1)

/-! ## Success -/

/-- A compilation of positive counts succeeds exactly on the compilable targets, with names
or without. -/
theorem exists_compileStruct_eq_ok_iff {scope : Scope} (hscope : scope.Counted) {target : Struct}
    (htarget : target.Counted) (named : Bool) :
    (∃ m, (compileStruct scope target named).result = .ok m) ↔ Compilable scope target := by
  constructor
  · rintro ⟨m, hm⟩
    obtain ⟨tree, htree, hadmits, hleaves, -⟩ := (compileStruct_eq_ok_iff hscope htarget).mp hm
    have hplaces := exists_admits_iff.mp ⟨tree, htree, hadmits⟩
    have hfits (references : List Reference) (last : Struct)
        (hchain : Chain scope target references last) :
        ChainFits scope [] maxDepth target references last :=
      hchain.fits (List.nodup_singleton _) hplaces
    refine ⟨fun references last hchain => (hfits references last hchain).resolved, ?_,
      fun references last hchain => (hfits references last hchain).inhabited,
      fun references last hchain => (hfits references last hchain).sized,
      (leafCount_le_iff htree).mp hleaves,
      fun references last hchain => (hfits references last hchain).levels⟩
    intro references last hchain
    have hnodup := List.nodup_reverse.mpr (hfits references last hchain).acyclic
    simpa [chainNames] using hnodup
  · intro h
    have hfits (references : List Reference) (last : Struct)
        (hchain : Chain scope target references last) :
        ChainFits scope [] maxDepth target references last := by
      refine ⟨h.resolved references last hchain, ?_, h.inhabited references last hchain,
        h.sized references last hchain, h.levels references last hchain⟩
      have hnodup := List.nodup_reverse.mpr (h.acyclic references last hchain)
      simpa [chainNames] using hnodup
    obtain ⟨tree, htree, hadmits⟩ := exists_admits_iff.mpr (places_of_chainFits maxDepth hfits)
    have hleaves : tree.leafCount ≤ maxCount := (leafCount_le_iff htree).mpr h.leaves
    exact ⟨tree.mapping named,
      (compileStruct_eq_ok_iff hscope htarget).mpr ⟨tree, htree, hadmits, hleaves, rfl⟩⟩

/-- The route compiles and so is compilable; a struct that holds itself is not. -/
theorem route_compilable : routeScope.Counted ∧ routeStruct.Counted ∧
    Compilable routeScope routeStruct ∧
    ¬ Compilable ⟨.builtin, [⟨"Loop", 1, [⟨"again", "Loop", none, 2⟩]⟩]⟩
      ⟨"Loop", 1, [⟨"again", "Loop", none, 2⟩]⟩ := by
  refine ⟨by decide, by decide, ?_, ?_⟩
  · exact (exists_compileStruct_eq_ok_iff (by decide) (by decide) true).mp ⟨_, rfl⟩
  · intro h
    obtain ⟨m, hm⟩ := (exists_compileStruct_eq_ok_iff (by decide) (by decide) true).mpr h
    cases hm

end FieldMap
