import FieldMap.Proofs.LayoutSteps
import FieldMap.Proofs.ReferenceChain
import FieldMap.Proofs.RegistryGrammar

/-!
# What is within reach

A compilation looks names up in a scope, but only those that it meets: the type names of the
target and of the structs that chains of references lead to.  Two scopes in which these names
mean the same are the same to it, down to the wording of an error and the events on the way.

* `Resolution.Alike` says when two meanings of a name are the same to a compilation, and
  `Scope.AlikeFrom` that this is so of every name within reach of a struct.
* `expand_eq_of_alike` is the statement for a struct at any level, by induction on the room: the
  structs a level further down are within reach as well.
* Structs of different names are found by their names in whatever order they stand, which gives
  the scopes that differ by an order, by structs out of reach or by primitives that nothing within
  reach names.
-/

namespace FieldMap

/-- The meanings are the same to a compilation: primitives of one size, one and the same struct,
or nothing. -/
inductive Resolution.Alike : Resolution → Resolution → Prop
  | primitive {first second : Primitive} (hsize : first.size = second.size) :
      Alike (.primitive first) (.primitive second)
  | struct (s : Struct) : Alike (.struct s) (.struct s)
  | unresolved : Alike .unresolved .unresolved

theorem Resolution.alike_refl (resolution : Resolution) : resolution.Alike resolution := by
  cases resolution with
  | primitive type => exact .primitive rfl
  | struct type => exact .struct type
  | unresolved => exact .unresolved

/-- All type names within reach of the struct have meanings that are the same to a
compilation. -/
def Scope.AlikeFrom (scope other : Scope) (s : Struct) : Prop :=
  ∀ references last, Chain scope s references last → ∀ member ∈ last.members,
    (scope.resolve member.typeName).Alike (other.resolve member.typeName)

/-- What is within reach of a struct that a member names is within reach of its owner. -/
theorem Scope.AlikeFrom.of_member {scope other : Scope} {s next : Struct}
    (h : scope.AlikeFrom other s) {member : Member} (hmember : member ∈ s.members)
    (hresolve : scope.resolve member.typeName = .struct next) : scope.AlikeFrom other next :=
  fun _ last hchain => h _ last (.cons hmember hresolve hchain)

/-- A fold does not change when its steps stay the same on the elements of the list. -/
theorem Traced.fold_congr {ε α σ : Type} {f g : σ → α → Traced ε σ} {items : List α}
    (h : ∀ s, ∀ a ∈ items, f s a = g s a) (s : σ) : fold f s items = fold g s items := by
  induction items generalizing s with
  | nil => rfl
  | cons a rest ih =>
      have hfirst := h s a List.mem_cons_self
      have hrest (next : σ) : fold f next rest = fold g next rest :=
        ih (fun s b hb => h s b (List.mem_cons_of_mem a hb)) next
      rw [fold_cons, fold_cons, hfirst]
      simp only [hrest]

namespace Compile

section

variable {scope other : Scope} {named : Bool} {owner nested : Struct} {trail : List String}

/-- A property over a struct is the same in both scopes if the struct is, one level below. -/
theorem interior_eq_of_expand_eq {room : Nat}
    (h : ∀ below < room, ∀ trail start, expand ⟨scope, named⟩ below trail start nested =
      expand ⟨other, named⟩ below trail start nested)
    (start : Nat) (member : Member) (name : Option String) :
    interior owner trail (below ⟨scope, named⟩ room) start member nested name =
      interior owner trail (below ⟨other, named⟩ room) start member nested name := by
  cases room with
  | zero => rfl
  | succ room => simp only [interior, below, h room (Nat.lt_succ_self room)]

/-- An array is the same in both scopes if its struct is, two levels below. -/
theorem array_eq_of_expand_eq {room : Nat}
    (h : ∀ below < room, ∀ trail start, expand ⟨scope, named⟩ below trail start nested =
      expand ⟨other, named⟩ below trail start nested)
    (start : Nat) (member : Member) :
    array ⟨scope, named⟩ owner trail (below ⟨scope, named⟩ room) (below ⟨scope, named⟩ (room - 1))
        start member nested =
      array ⟨other, named⟩ owner trail (below ⟨other, named⟩ room)
        (below ⟨other, named⟩ (room - 1)) start member nested := by
  cases room with
  | zero => rfl
  | succ room =>
      have helement (start : Nat) (name : Option String) :
          interior owner trail (below ⟨scope, named⟩ room) start member nested name =
            interior owner trail (below ⟨other, named⟩ room) start member nested name :=
        interior_eq_of_expand_eq (fun below hbelow => h below (Nat.lt_succ_of_lt hbelow)) start
          member name
      simp only [array, Nat.add_sub_cancel, helement]
      rfl

/-- A member is the same in both scopes if its type is, and the struct of that type below. -/
theorem place_eq_of_alike {room : Nat} {member : Member}
    (halike : (scope.resolve member.typeName).Alike (other.resolve member.typeName))
    (h : ∀ nested, scope.resolve member.typeName = .struct nested → ∀ below < room,
      ∀ trail start, expand ⟨scope, named⟩ below trail start nested =
        expand ⟨other, named⟩ below trail start nested)
    (start : Nat) :
    place ⟨scope, named⟩ owner trail (below ⟨scope, named⟩ room) (below ⟨scope, named⟩ (room - 1))
        start member =
      place ⟨other, named⟩ owner trail (below ⟨other, named⟩ room)
        (below ⟨other, named⟩ (room - 1)) start member := by
  unfold place
  generalize hhere : scope.resolve member.typeName = here at halike h
  generalize hthere : other.resolve member.typeName = there at halike
  cases halike with
  | primitive hsize =>
      simp only [leaf, Primitive.bytes, hsize]
      rfl
  | struct nested =>
      have hbelow := h nested rfl
      simp only [structMember, array_eq_of_expand_eq hbelow, interior_eq_of_expand_eq hbelow]
      rfl
  | unresolved => rfl

end

/-- Where all names within reach are alike, a struct is laid out in the same way, or fails in
the same way. -/
theorem expand_eq_of_alike {scope other : Scope} (named : Bool) (room : Nat) {owner : Struct}
    (halike : scope.AlikeFrom other owner) (trail : List String) (start : Nat) :
    expand ⟨scope, named⟩ room trail start owner =
      expand ⟨other, named⟩ room trail start owner := by
  induction room using Nat.strongRecOn generalizing owner trail start with
  | ind room ih =>
      have hstep (progress : Progress) (member : Member) (hmember : member ∈ owner.members) :
          (progress.grow fun start => place ⟨scope, named⟩ owner (owner.name :: trail)
              (below ⟨scope, named⟩ room) (below ⟨scope, named⟩ (room - 1)) start member) =
            progress.grow fun start => place ⟨other, named⟩ owner (owner.name :: trail)
              (below ⟨other, named⟩ room) (below ⟨other, named⟩ (room - 1)) start member := by
        apply congrArg progress.grow
        funext start
        apply place_eq_of_alike (halike [] owner (.nil owner) member hmember)
        intro nested hresolve below hbelow trail start
        exact ih below hbelow (halike.of_member hmember hresolve) trail start
      rw [expand_eq_expandWith, expand_eq_expandWith]
      simp only [expandWith, Traced.fold_congr hstep]

end Compile

/-- Where all names within reach of the target are alike, its compilation is the same, with its
error and its events. -/
theorem compileStruct_eq_of_alike {scope other : Scope} {target : Struct}
    (halike : scope.AlikeFrom other target) (named : Bool) :
    compileStruct scope target named = compileStruct other target named := by
  simp only [compileStruct, Compile.expand_eq_of_alike named maxDepth halike]

/-! ## Scopes that differ out of reach -/

/-- What a name means is decided by what it finds among the primitives and the structs. -/
theorem Scope.resolve_congr {scope other : Scope} {name : String}
    (hregistry : scope.registry.get? name = other.registry.get? name)
    (hstructs : scope.structs.find? (·.name == name) = other.structs.find? (·.name == name)) :
    scope.resolve name = other.resolve name := by
  unfold Scope.resolve
  rw [hregistry, hstructs]

/-- The order of structs with different names does not matter. -/
theorem Scope.resolve_perm (registry : Registry) {structs shuffled : List Struct}
    (hnodup : (structs.map Struct.name).Nodup) (hperm : structs.Perm shuffled) (name : String) :
    Scope.resolve ⟨registry, shuffled⟩ name = Scope.resolve ⟨registry, structs⟩ name := by
  exact Scope.resolve_congr rfl (find?_name_perm hnodup hperm name)

/-- Structs out of reach can be left out. -/
theorem Scope.alikeFrom_of_perm_append {registry : Registry} {structs extra larger : List Struct}
    (hnodup : (larger.map Struct.name).Nodup) (hperm : larger.Perm (extra ++ structs))
    {target : Struct}
    (hextra : ∀ references last, Chain ⟨registry, larger⟩ target references last →
      references ≠ [] → last ∉ extra) :
    Scope.AlikeFrom ⟨registry, larger⟩ ⟨registry, structs⟩ target := by
  have hall : ((extra ++ structs).map Struct.name).Nodup := (hperm.map _).nodup_iff.mp hnodup
  have hkept : (structs.map Struct.name).Nodup := by
    rw [List.map_append] at hall
    exact hall.of_append_right
  intro references last hchain member hmember
  have hsame : Scope.resolve ⟨registry, larger⟩ member.typeName =
      Scope.resolve ⟨registry, structs⟩ member.typeName := by
    cases hprimitive : registry.get? member.typeName with
    | some type => simp only [Scope.resolve, hprimitive]
    | none =>
        refine Scope.resolve_congr rfl ?_
        ext next
        show larger.find? _ = some next ↔ structs.find? _ = some next
        rw [find?_name_eq_some_iff hnodup, find?_name_eq_some_iff hkept, hperm.mem_iff,
          List.mem_append]
        constructor
        · rintro ⟨hnext | hnext, hname⟩
          · -- The reference of this member would lead to a struct that is left out.
            have hfound := (find?_name_eq_some_iff hnodup).mpr
              ⟨hperm.mem_iff.mpr (List.mem_append_left structs hnext), hname⟩
            have hresolve : Scope.resolve ⟨registry, larger⟩ member.typeName = .struct next := by
              simp only [Scope.resolve, hprimitive, hfound]
            have hreached := hchain.snoc hmember hresolve
            exact absurd hnext (hextra _ _ hreached (List.append_ne_nil_of_right_ne_nil _
              (List.cons_ne_nil _ _)))
          · exact ⟨hnext, hname⟩
        · rintro ⟨hnext, hname⟩
          exact ⟨.inr hnext, hname⟩
  rw [hsame]
  exact Resolution.alike_refl _

theorem Registry.get?_extend_of_not_mem {registry : Registry} {declared : List Primitive}
    {name : String} (h : name ∉ declared.map Primitive.name) :
    (registry.extend declared).get? name = registry.get? name := by
  induction declared generalizing registry with
  | nil => rfl
  | cons primitive declared ih =>
      rw [List.map_cons, List.mem_cons, not_or] at h
      show ((registry.add primitive).extend declared).get? name = _
      have hother : (primitive.name == name) = false := beq_eq_false_iff_ne.mpr (Ne.symm h.1)
      rw [ih h.2, Registry.get?_add, hother, if_neg Bool.false_ne_true]

/-- Primitives that nothing within reach names can be added. -/
theorem Scope.alikeFrom_extend {registry : Registry} {structs : List Struct} {target : Struct}
    {declared : List Primitive}
    (hunused : ∀ references last, Chain ⟨registry, structs⟩ target references last →
      ∀ member ∈ last.members, member.typeName ∉ declared.map Primitive.name) :
    Scope.AlikeFrom ⟨registry, structs⟩ ⟨registry.extend declared, structs⟩ target := by
  intro references last hchain member hmember
  have hget : (registry.extend declared).get? member.typeName = registry.get? member.typeName :=
    Registry.get?_extend_of_not_mem (hunused references last hchain member hmember)
  have hsame : Scope.resolve ⟨registry, structs⟩ member.typeName =
      Scope.resolve ⟨registry.extend declared, structs⟩ member.typeName :=
    Scope.resolve_congr hget.symm rfl
  rw [hsame]
  exact Resolution.alike_refl _

/-- A compilation depends on nothing but what the type names within reach of its target mean.

So it does not depend on the order of structs with different names, nor on structs that the
target does not reach, be they added or left out, nor on primitives that nothing within reach
names.  It comes to the same mapping then, or to the same error in the same words. -/
theorem compileStruct_depends_on_reach (target : Struct) (named : Bool) :
    (∀ scope other : Scope, scope.AlikeFrom other target →
      compileStruct scope target named = compileStruct other target named) ∧
    (∀ (registry : Registry) (structs shuffled : List Struct),
      (structs.map Struct.name).Nodup → structs.Perm shuffled →
        compileStruct ⟨registry, shuffled⟩ target named =
          compileStruct ⟨registry, structs⟩ target named) ∧
    (∀ (registry : Registry) (structs extra larger : List Struct),
      (larger.map Struct.name).Nodup → larger.Perm (extra ++ structs) →
      (∀ references last, Chain ⟨registry, larger⟩ target references last →
        references ≠ [] → last ∉ extra) →
        compileStruct ⟨registry, larger⟩ target named =
          compileStruct ⟨registry, structs⟩ target named) ∧
    ∀ (registry : Registry) (structs : List Struct) (declared : List Primitive),
      (∀ references last, Chain ⟨registry, structs⟩ target references last →
        ∀ member ∈ last.members, member.typeName ∉ declared.map Primitive.name) →
        compileStruct ⟨registry.extend declared, structs⟩ target named =
          compileStruct ⟨registry, structs⟩ target named := by
  refine ⟨?_, ?_, ?_, ?_⟩
  · intro scope other halike
    exact compileStruct_eq_of_alike halike named
  · intro registry structs shuffled hnodup hperm
    apply compileStruct_eq_of_alike
    intro references last _ member _
    rw [Scope.resolve_perm registry hnodup hperm]
    exact Resolution.alike_refl _
  · intro registry structs extra larger hnodup hperm hextra
    exact compileStruct_eq_of_alike (Scope.alikeFrom_of_perm_append hnodup hperm hextra) named
  · intro registry structs declared hunused
    exact (compileStruct_eq_of_alike (Scope.alikeFrom_extend hunused) named).symm

/-- The struct that a name stands for, if it stands for one. -/
def Resolution.struct? : Resolution → Option Struct
  | .struct s => some s
  | _ => none

/-- The structs refer to each other only. -/
def Scope.Closes (scope : Scope) (within : List Struct) : Prop :=
  ∀ s ∈ within, ∀ member ∈ s.members, ∀ next ∈ (scope.resolve member.typeName).struct?,
    next ∈ within

instance (scope : Scope) (within : List Struct) : Decidable (scope.Closes within) :=
  inferInstanceAs (Decidable (∀ s ∈ within, ∀ member ∈ s.members,
    ∀ next ∈ (scope.resolve member.typeName).struct?, next ∈ within))

/-- Chains do not lead out of structs that refer to each other only. -/
theorem Chain.mem_of_closes {scope : Scope} {within : List Struct} (hcloses : scope.Closes within)
    {first last : Struct} {references : List Reference}
    (hchain : Chain scope first references last) (hfirst : first ∈ within) : last ∈ within := by
  induction hchain with
  | nil s => exact hfirst
  | cons hmember hresolve _ ih =>
      apply ih
      apply hcloses _ hfirst _ hmember
      rw [hresolve]
      rfl

/-- The schema of the route in another order, with a struct that the route does not reach. -/
def spareStructs : List Struct :=
  [⟨"Spare", 9, [⟨"routes", "Route", some 2, 10⟩]⟩, routeStruct] ++ routeScope.structs.take 1

/-- A registry with the three primitives of the route, and no other. -/
def routeRegistry : Registry :=
  ⟨[⟨"u16", 2⟩, ⟨"f32", 4⟩, ⟨"u8", 1⟩]⟩

/-- The route compiles to the same mapping with fewer primitives or more, and with more structs
in another order. -/
theorem route_compiles_elsewhere :
    (routeScope.AlikeFrom ⟨routeRegistry, routeScope.structs⟩ routeStruct ∧
      compileStruct routeScope routeStruct true =
        compileStruct ⟨routeRegistry, routeScope.structs⟩ routeStruct true) ∧
    ((routeScope.structs.map Struct.name).Nodup ∧
      compileStruct ⟨.builtin, routeScope.structs.reverse⟩ routeStruct true =
        compileStruct routeScope routeStruct true) ∧
    ((∀ references last, Chain ⟨.builtin, spareStructs⟩ routeStruct references last →
        references ≠ [] → last ∉ spareStructs.take 1) ∧
      compileStruct ⟨.builtin, spareStructs⟩ routeStruct true =
        compileStruct routeScope routeStruct true) ∧
    ((∀ references last, Chain routeScope routeStruct references last →
        ∀ member ∈ last.members, member.typeName ∉ ["vec2h"]) ∧
      compileStruct ⟨Registry.builtin.extend [⟨"vec2h", 4⟩], routeScope.structs⟩ routeStruct true =
        compileStruct routeScope routeStruct true) := by
  obtain ⟨hsame, hordered, hlarger, hextended⟩ := compileStruct_depends_on_reach routeStruct true
  have hcloses : routeScope.Closes routeScope.structs := by decide +kernel
  have hspare : Scope.Closes ⟨.builtin, spareStructs⟩ routeScope.structs := by decide +kernel
  have hroute : routeStruct ∈ routeScope.structs := by decide +kernel
  have halike : routeScope.AlikeFrom ⟨routeRegistry, routeScope.structs⟩ routeStruct := by
    intro references last hchain member hmember
    have hresolve : ∀ s ∈ routeScope.structs, ∀ member ∈ s.members,
        routeScope.resolve member.typeName =
          Scope.resolve ⟨routeRegistry, routeScope.structs⟩ member.typeName := by decide +kernel
    rw [hresolve last (hchain.mem_of_closes hcloses hroute) member hmember]
    exact Resolution.alike_refl _
  have hnodup : (routeScope.structs.map Struct.name).Nodup := by decide +kernel
  have hextra : ∀ references last, Chain ⟨.builtin, spareStructs⟩ routeStruct references last →
      references ≠ [] → last ∉ spareStructs.take 1 := by
    intro references last hchain _
    have hother : ∀ s ∈ routeScope.structs, s ∉ spareStructs.take 1 := by decide +kernel
    exact hother last (hchain.mem_of_closes hspare hroute)
  have hunused : ∀ references last, Chain routeScope routeStruct references last →
      ∀ member ∈ last.members, member.typeName ∉ ["vec2h"] := by
    intro references last hchain
    have hnames : ∀ s ∈ routeScope.structs, ∀ member ∈ s.members,
        member.typeName ∉ ["vec2h"] := by decide +kernel
    exact hnames last (hchain.mem_of_closes hcloses hroute)
  have hperm : spareStructs.Perm (spareStructs.take 1 ++ routeScope.structs) := by decide +kernel
  exact ⟨⟨halike, hsame _ _ halike⟩,
    ⟨hnodup, hordered _ _ _ hnodup (List.reverse_perm _).symm⟩,
    ⟨hextra, hlarger _ _ _ _ (by decide +kernel) hperm hextra⟩,
    ⟨hunused, hextended _ _ _ hunused⟩⟩

end FieldMap
