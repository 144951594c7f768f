import FieldMap.Artifact.Encode
import FieldMap.Proofs.UnfoldingLayout
import Mathlib.Data.List.Forall2

/-!
# Names carry no layout

A compilation without debug names compares names and does nothing else with them.  Two
schemas that differ in names only, so that different names stay different and a name is
a primitive in both or in neither, have the same mapping, or fail for the same rule on
the same line.

* `Struct.Renamed` relates a struct to what a renaming makes of it: its own name and
  the names of its types follow the renaming, where primitives keep their names, and the
  names of its members may be any;
* `Renaming` is a renaming of a whole schema;
* `SameUpToNames` relates outcomes that differ in the names of an error at most.

Both runs are in the same step all the time, with the same start and the same room, and
the trail of one is the trail of the other with its names replaced.
-/

namespace FieldMap

/-- The name of a type after a renaming.  Primitives keep their names. -/
def Registry.rename (registry : Registry) (f : String → String) (typeName : String) : String :=
  if registry.contains typeName then typeName else f typeName

/-- A member under any name, with its type renamed. -/
structure Member.Renamed (registry : Registry) (f : String → String)
    (member renamed : Member) : Prop where
  typeName : renamed.typeName = registry.rename f member.typeName
  count : renamed.count = member.count
  line : renamed.line = member.line

/-- A struct with its name and its members renamed. -/
structure Struct.Renamed (registry : Registry) (f : String → String)
    (s renamed : Struct) : Prop where
  name : renamed.name = f s.name
  line : renamed.line = s.line
  members : List.Forall₂ (Member.Renamed registry f) s.members renamed.members

/-- The names in a struct that a renaming replaces: that of the struct itself, and those of
types that are no primitives. -/
def Struct.replacedNames (registry : Registry) (s : Struct) : List String :=
  s.name :: (s.members.map Member.typeName).filter fun name => !registry.contains name

/-- A renaming keeps the names that it replaces apart from each other, and from primitives. -/
structure Renaming (registry : Registry) (f : String → String)
    (structs renamed : List Struct) : Prop where
  consistent : List.Forall₂ (Struct.Renamed registry f) structs renamed
  injective : ∀ a ∈ structs.flatMap (Struct.replacedNames registry),
    ∀ b ∈ structs.flatMap (Struct.replacedNames registry), f a = f b → a = b
  fresh : ∀ a ∈ structs.flatMap (Struct.replacedNames registry), registry.get? (f a) = none

theorem Member.Renamed.copies {registry : Registry} {f : String → String}
    {member renamed : Member} (h : member.Renamed registry f renamed) :
    renamed.copies = member.copies := by
  rw [Member.copies, Member.copies, h.count]

theorem Struct.Renamed.isEmpty_members {registry : Registry} {f : String → String}
    {s renamed : Struct} (h : s.Renamed registry f renamed) :
    renamed.members.isEmpty = s.members.isEmpty := by
  have hlength := h.members.length_eq
  rw [Bool.eq_iff_iff, List.isEmpty_iff_length_eq_zero, List.isEmpty_iff_length_eq_zero, hlength]

theorem Registry.rename_of_get?_eq_some {registry : Registry} {name : String} {type : Primitive}
    (h : registry.get? name = some type) (f : String → String) :
    registry.rename f name = name := by
  have hcontains : registry.contains name = true := by rw [← isSome_get?, h]; rfl
  rw [rename, if_pos hcontains]

theorem Registry.contains_of_get?_eq_none {registry : Registry} {name : String}
    (h : registry.get? name = none) : registry.contains name = false := by
  rw [← isSome_get?, h]
  rfl

theorem Registry.rename_of_get?_eq_none {registry : Registry} {name : String}
    (h : registry.get? name = none) (f : String → String) : registry.rename f name = f name := by
  rw [rename, contains_of_get?_eq_none h, if_neg Bool.false_ne_true]

/-! ## What renamed names mean -/

section

variable {registry : Registry} {f : String → String} {structs renamed : List Struct}

theorem Renaming.name_mem {s : Struct} (hs : s ∈ structs) :
    s.name ∈ structs.flatMap (Struct.replacedNames registry) :=
  List.mem_flatMap.mpr ⟨s, hs, List.mem_cons_self⟩

theorem Renaming.typeName_mem {s : Struct} (hs : s ∈ structs) {member : Member}
    (hmember : member ∈ s.members) (h : registry.get? member.typeName = none) :
    member.typeName ∈ structs.flatMap (Struct.replacedNames registry) := by
  refine List.mem_flatMap.mpr ⟨s, hs, List.mem_cons_of_mem _ (List.mem_filter.mpr ⟨?_, ?_⟩)⟩
  · exact List.mem_map_of_mem hmember
  · rw [Registry.contains_of_get?_eq_none h]
    rfl

/-- The first struct of a name becomes the first struct of the new name. -/
theorem find?_renamed (h : List.Forall₂ (Struct.Renamed registry f) structs renamed)
    {name : String} (hname : ∀ s ∈ structs, f s.name = f name → s.name = name) :
    Option.Rel (Struct.Renamed registry f) (structs.find? (·.name == name))
      (renamed.find? (·.name == f name)) := by
  induction h with
  | nil => exact .none
  | @cons s s' structs renamed hs _ ih =>
      have hrest := ih fun s hs => hname s (List.mem_cons_of_mem _ hs)
      have hsame : (s'.name == f name) = (s.name == name) := by
        rw [hs.name, Bool.eq_iff_iff, beq_iff_eq, beq_iff_eq]
        exact ⟨hname s List.mem_cons_self, congrArg f⟩
      rw [List.find?_cons, List.find?_cons, hsame]
      cases s.name == name with
      | true => exact .some hs
      | false => exact hrest

/-- What a name means before and after a renaming. -/
inductive Resolution.Renamed (registry : Registry) (f : String → String)
    (structs : List Struct) : Resolution → Resolution → Prop
  | primitive (type : Primitive) : Renamed registry f structs (.primitive type) (.primitive type)
  | struct {s s' : Struct} (hmem : s ∈ structs) (hs : s.Renamed registry f s') :
      Renamed registry f structs (.struct s) (.struct s')
  | unresolved : Renamed registry f structs .unresolved .unresolved

/-- The type of a member means after a renaming what it has meant before. -/
theorem Renaming.resolve {target target' : Struct}
    (h : Renaming registry f (target :: structs) (target' :: renamed)) {owner : Struct}
    (howner : owner ∈ target :: structs) {member member' : Member}
    (hmember : member ∈ owner.members) (hrenamed : member.Renamed registry f member') :
    Resolution.Renamed registry f structs (Scope.resolve ⟨registry, structs⟩ member.typeName)
      (Scope.resolve ⟨registry, renamed⟩ member'.typeName) := by
  obtain ⟨-, hstructs⟩ := List.forall₂_cons.mp h.consistent
  unfold Scope.resolve
  cases hget : registry.get? member.typeName with
  | some type =>
      rw [hrenamed.typeName, Registry.rename_of_get?_eq_some hget, hget]
      exact .primitive type
  | none =>
      have hmem := Renaming.typeName_mem howner hmember hget
      have hfound := find?_renamed hstructs fun s hs =>
        h.injective _ (Renaming.name_mem (List.mem_cons_of_mem target hs)) _ hmem
      rw [hrenamed.typeName, Registry.rename_of_get?_eq_none hget, h.fresh _ hmem]
      dsimp only
      generalize hhere : structs.find? (·.name == member.typeName) = here at hfound
      generalize renamed.find? (·.name == f member.typeName) = there at hfound
      cases hfound with
      | none => exact .unresolved
      | some hs => exact .struct (List.mem_of_find?_eq_some hhere) hs

end

namespace Compile

/-! ## Outcomes up to names -/

/-- The same result, or errors for the same rule on the same line. -/
inductive SameUpToNames {α : Type} : (outcome other : Except CompileError α) → Prop
  | ok (a : α) : SameUpToNames (.ok a) (.ok a)
  | error {e e' : ValidationError} (hcode : e'.violation.code = e.violation.code)
      (hline : e'.line = e.line) : SameUpToNames (.error (.invalid e)) (.error (.invalid e'))

namespace SameUpToNames

variable {α β : Type}

theorem bind {outcome other : Except CompileError α} {next next' : α → Except CompileError β}
    (h : SameUpToNames outcome other) (hnext : ∀ a, SameUpToNames (next a) (next' a)) :
    SameUpToNames (outcome >>= next) (other >>= next') := by
  cases h with
  | ok a => exact hnext a
  | error hcode hline => exact .error hcode hline

theorem map {outcome other : Except CompileError α} (h : SameUpToNames outcome other)
    (g : α → β) : SameUpToNames (outcome.map g) (other.map g) := by
  cases h with
  | ok a => exact .ok (g a)
  | error hcode hline => exact .error hcode hline

/-- Items that are placed alike one by one are placed alike in sequence. -/
theorem inSequence {piece : Nat → α → Except CompileError (List UInt8 × Node)}
    {piece' : Nat → β → Except CompileError (List UInt8 × Node)} {items : List α}
    {items' : List β}
    (h : List.Forall₂ (fun item item' => ∀ start,
      SameUpToNames (piece start item) (piece' start item')) items items') (start : Nat) :
    SameUpToNames (Compile.inSequence piece start items)
      (Compile.inSequence piece' start items') := by
  induction h generalizing start with
  | nil => exact .ok _
  | cons hitem _ ih => exact (hitem start).bind fun placed => (ih _).map _

end SameUpToNames

/-! ## Two runs in step -/

section

variable {registry : Registry} {f : String → String} {owner owner' : Struct}
  {member member' : Member}

theorem violation_renamed {α : Type} (h : member.Renamed registry f member')
    {rule rule' : Violation} (hcode : rule'.code = rule.code) :
    SameUpToNames (α := α) (.error (violation owner member rule))
      (.error (violation owner' member' rule')) :=
  .error hcode h.line

theorem nextIndex_renamed (h : member.Renamed registry f member') (start : Nat) :
    SameUpToNames (nextIndex owner member start) (nextIndex owner' member' start) := by
  unfold nextIndex
  by_cases hstart : start < maxCount
  · rw [if_pos hstart, if_pos hstart]
    exact .ok _
  · rw [if_neg hstart, if_neg hstart]
    exact violation_renamed h rfl

theorem checkChildCount_renamed (h : owner.Renamed registry f owner') (count : Nat) :
    SameUpToNames (checkChildCount owner count) (checkChildCount owner' count) := by
  unfold checkChildCount
  by_cases hcount : count ≤ maxCount
  · rw [if_pos hcount, if_pos hcount]
    exact .ok ()
  · rw [if_neg hcount, if_neg hcount]
    exact .error rfl h.line

theorem leaf_renamed {scope other : Scope} (h : member.Renamed registry f member')
    (start : Nat) (type : Primitive) :
    SameUpToNames (leaf ⟨scope, false⟩ owner start member type).result
      (leaf ⟨other, false⟩ owner' start member' type).result := by
  unfold leaf Primitive.bytes
  rw [h.copies]
  by_cases hbytes : 255 < type.size * member.copies
  · simp only [hbytes, if_true, Traced.result_fail]
    exact violation_renamed h rfl
  · simp only [hbytes, if_false, Traced.result_bind, Traced.result_ofExcept,
      Traced.result_report, Traced.result_pure]
    exact (nextIndex_renamed h start).bind fun index => .ok _

/-- A renaming keeps track of a trail. -/
theorem contains_map_renamed {names trail : List String}
    (hinj : ∀ a ∈ names, ∀ b ∈ names, f a = f b → a = b) (htrail : ∀ a ∈ trail, a ∈ names)
    {name : String} (hname : name ∈ names) :
    (trail.map f).contains (f name) = trail.contains name := by
  rw [Bool.eq_iff_iff, List.contains_iff_mem, List.contains_iff_mem]
  constructor
  · intro h
    obtain ⟨a, ha, heq⟩ := List.mem_map.mp h
    rw [← hinj a (htrail a ha) name hname heq]
    exact ha
  · exact List.mem_map_of_mem

variable {scope other : Scope} {nested nested' : Struct} {trail trail' : List String} {room : Nat}

theorem interior_renamed (h : member.Renamed registry f member')
    (hbelow : ∀ level < room, ∀ start,
      SameUpToNames (expand ⟨scope, false⟩ level trail start nested).result
        (expand ⟨other, false⟩ level trail' start nested').result)
    (start : Nat) (name : Option String) :
    SameUpToNames
      (interior owner trail (below ⟨scope, false⟩ room) start member nested name).result
      (interior owner' trail' (below ⟨other, false⟩ room) start member' nested' name).result := by
  cases room with
  | zero => exact violation_renamed h rfl
  | succ room =>
      rw [result_interior, result_interior]
      exact (nextIndex_renamed h start).bind fun index =>
        (hbelow room (Nat.lt_succ_self room) start).map _

theorem array_renamed (howner : owner.Renamed registry f owner')
    (h : member.Renamed registry f member')
    (hbelow : ∀ level < room, ∀ start,
      SameUpToNames (expand ⟨scope, false⟩ level trail start nested).result
        (expand ⟨other, false⟩ level trail' start nested').result)
    (start : Nat) :
    SameUpToNames
      (array ⟨scope, false⟩ owner trail (below ⟨scope, false⟩ room)
        (below ⟨scope, false⟩ (room - 1)) start member nested).result
      (array ⟨other, false⟩ owner' trail' (below ⟨other, false⟩ room)
        (below ⟨other, false⟩ (room - 1)) start member' nested').result := by
  cases room with
  | zero =>
      simp only [array, below, Option.isNone_none, if_true, Traced.result_bind,
        Traced.result_fail, Traced.result_ofExcept, h.copies]
      exact (checkChildCount_renamed howner _).bind fun _ => violation_renamed h rfl
  | succ room =>
      rw [Nat.add_sub_cancel, result_array, result_array, h.copies]
      have helements : List.Forall₂ (fun position position' => ∀ start, SameUpToNames
          (interior owner trail (below ⟨scope, false⟩ room) start member nested
            (Context.name ⟨scope, false⟩ (elementName member position))).result
          (interior owner' trail' (below ⟨other, false⟩ room) start member' nested'
            (Context.name ⟨other, false⟩ (elementName member' position'))).result)
          (List.range member.copies) (List.range member.copies) := by
        refine List.forall₂_same.mpr fun position _ start => ?_
        exact interior_renamed h (fun level hlevel => hbelow level (Nat.lt_succ_of_lt hlevel))
          start none
      exact (checkChildCount_renamed howner _).bind fun _ =>
        (nextIndex_renamed h start).bind fun index =>
          (SameUpToNames.inSequence helements start).map _

theorem structMember_renamed (howner : owner.Renamed registry f owner')
    (h : member.Renamed registry f member') (hnested : nested.Renamed registry f nested')
    (hcontains : trail'.contains nested'.name = trail.contains nested.name)
    (hbelow : ∀ level < room, ∀ start,
      SameUpToNames (expand ⟨scope, false⟩ level trail start nested).result
        (expand ⟨other, false⟩ level trail' start nested').result)
    (start : Nat) :
    SameUpToNames
      (structMember ⟨scope, false⟩ owner trail (below ⟨scope, false⟩ room)
        (below ⟨scope, false⟩ (room - 1)) start member nested).result
      (structMember ⟨other, false⟩ owner' trail' (below ⟨other, false⟩ room)
        (below ⟨other, false⟩ (room - 1)) start member' nested').result := by
  unfold structMember
  rw [hcontains, hnested.isEmpty_members, h.copies]
  by_cases hcycle : trail.contains nested.name = true
  · simp only [hcycle, if_true]
    exact violation_renamed h rfl
  by_cases hnone : nested.members.isEmpty = true
  · simp only [hcycle, hnone, if_true]
    exact violation_renamed h rfl
  by_cases hone : member.copies = 1
  · simp only [hcycle, hnone, hone, if_true]
    exact interior_renamed h hbelow start none
  · simp only [hcycle, hnone, hone, if_false]
    exact array_renamed howner h hbelow start

/-- A member is laid out as before if the struct that its type names is. -/
theorem place_renamed {structs : List Struct} (howner : owner.Renamed registry f owner')
    (h : member.Renamed registry f member')
    (hresolve : Resolution.Renamed registry f structs (scope.resolve member.typeName)
      (other.resolve member'.typeName))
    (hcontains : ∀ s ∈ structs, trail'.contains (f s.name) = trail.contains s.name)
    (hbelow : ∀ s s', s ∈ structs → s.Renamed registry f s' → ∀ level < room, ∀ start,
      SameUpToNames (expand ⟨scope, false⟩ level trail start s).result
        (expand ⟨other, false⟩ level trail' start s').result)
    (start : Nat) :
    SameUpToNames
      (place ⟨scope, false⟩ owner trail (below ⟨scope, false⟩ room)
        (below ⟨scope, false⟩ (room - 1)) start member).result
      (place ⟨other, false⟩ owner' trail' (below ⟨other, false⟩ room)
        (below ⟨other, false⟩ (room - 1)) start member').result := by
  unfold place
  generalize scope.resolve member.typeName = here at hresolve
  generalize other.resolve member'.typeName = there at hresolve
  cases hresolve with
  | primitive type => exact leaf_renamed h start type
  | unresolved => exact violation_renamed h rfl
  | @struct nested nested' hmem hnested =>
      have htrail : trail'.contains nested'.name = trail.contains nested.name := by
        rw [hnested.name]
        exact hcontains nested hmem
      exact structMember_renamed howner h hnested htrail (hbelow nested nested' hmem hnested) start

end

/-- A renamed struct is laid out as it was before, or fails where it failed before.  The
induction is on the room. -/
theorem expand_renamed {registry : Registry} {f : String → String} {structs renamed : List Struct}
    {target target' : Struct} (h : Renaming registry f (target :: structs) (target' :: renamed))
    (room : Nat) {owner owner' : Struct} (howner : owner ∈ target :: structs)
    (hrenamed : owner.Renamed registry f owner') {trail : List String}
    (htrail : ∀ a ∈ trail, a ∈ (target :: structs).flatMap (Struct.replacedNames registry))
    (start : Nat) :
    SameUpToNames (expand ⟨⟨registry, structs⟩, false⟩ room trail start owner).result
      (expand ⟨⟨registry, renamed⟩, false⟩ room (trail.map f) start owner').result := by
  induction room using Nat.strongRecOn generalizing owner owner' trail start with
  | ind room ih =>
      have hhere : ∀ a ∈ owner.name :: trail,
          a ∈ (target :: structs).flatMap (Struct.replacedNames registry) :=
        List.forall_mem_cons.mpr ⟨Renaming.name_mem howner, htrail⟩
      have hcontains (s : Struct) (hs : s ∈ structs) :
          ((owner.name :: trail).map f).contains (f s.name) =
            (owner.name :: trail).contains s.name :=
        contains_map_renamed h.injective hhere (Renaming.name_mem (List.mem_cons_of_mem target hs))
      have hpairs := (List.forall₂_and_left _ _).mpr
        ⟨fun member hmember => hmember, hrenamed.members⟩
      rw [result_expand, result_expand, hrenamed.name, ← List.map_cons]
      refine (SameUpToNames.inSequence (hpairs.imp ?_) start).bind fun layout =>
        (checkChildCount_renamed hrenamed _).map _
      rintro member member' ⟨hmember, hmem⟩ start
      apply place_renamed hrenamed hmem (h.resolve howner hmember hmem) hcontains
      intro s s' hs hs' level hlevel start
      exact ih level hlevel (List.mem_cons_of_mem target hs) hs' hhere start

end Compile

/-- The compilation of a renamed schema without debug names. -/
theorem Renaming.sameUpToNames {registry : Registry} {f : String → String}
    {structs renamed : List Struct} {target target' : Struct}
    (h : Renaming registry f (target :: structs) (target' :: renamed)) :
    Compile.SameUpToNames (compileStruct ⟨registry, structs⟩ target false).result
      (compileStruct ⟨registry, renamed⟩ target' false).result := by
  obtain ⟨htarget, -⟩ := List.forall₂_cons.mp h.consistent
  have hlayout := Compile.expand_renamed h maxDepth List.mem_cons_self htarget
    (fun a ha => absurd ha List.not_mem_nil) 0
  simp only [compileStruct, Traced.result_bind, Traced.result_report, Traced.result_pure]
  exact hlayout.bind fun layout => .ok _

/-- Names carry no layout: a schema whose structs and members are renamed compiles without
debug names to the mapping that it compiled to before, hence to the same file.  If it has not
compiled, it fails as before, with the same code on the same line. -/
theorem compileStruct_renamed {registry : Registry} {f : String → String}
    {structs renamed : List Struct} {target target' : Struct}
    (h : Renaming registry f (target :: structs) (target' :: renamed)) :
    (∀ m, (compileStruct ⟨registry, structs⟩ target false).result = .ok m ↔
      (compileStruct ⟨registry, renamed⟩ target' false).result = .ok m) ∧
    (∀ named, (compileStruct ⟨registry, structs⟩ target false).result.toOption.map
        (Artifact.encode · named) =
      (compileStruct ⟨registry, renamed⟩ target' false).result.toOption.map
        (Artifact.encode · named)) ∧
    ∀ error, (compileStruct ⟨registry, structs⟩ target false).result = .error error →
      ∃ e e', error = .invalid e ∧
        (compileStruct ⟨registry, renamed⟩ target' false).result = .error (.invalid e') ∧
        e'.violation.code = e.violation.code ∧ e'.line = e.line := by
  have hsame := h.sameUpToNames
  generalize (compileStruct ⟨registry, structs⟩ target false).result = outcome at hsame ⊢
  generalize (compileStruct ⟨registry, renamed⟩ target' false).result = other at hsame ⊢
  cases hsame with
  | ok m =>
      refine ⟨fun _ => Iff.rfl, fun _ => rfl, ?_⟩
      intro error herror
      cases herror
  | @error e e' hcode hline =>
      refine ⟨fun m => ⟨?_, ?_⟩, fun _ => rfl, ?_⟩
      · intro hok
        cases hok
      · intro hok
        cases hok
      · intro error herror
        cases herror
        exact ⟨e, e', rfl, rfl, hcode, hline⟩

/-- The two structs of the route change their names. -/
def swapRoute (name : String) : String :=
  if name = "Point" then "Route" else if name = "Route" then "Point" else name

/-- The point under the name of the route. -/
def swappedPoint : Struct :=
  ⟨"Route", 1, [⟨"", "f32", none, 2⟩, ⟨"x", "u8", some 3, 3⟩]⟩

/-- The route under the name of the point. -/
def swappedRoute : Struct :=
  ⟨"Point", 5, [⟨"x", "u16", none, 6⟩, ⟨"x", "Route", some 2, 7⟩, ⟨"y", "Route", none, 8⟩]⟩

/-- A point that holds itself. -/
def loopStruct : Struct :=
  ⟨"Point", 1, [⟨"again", "Point", none, 2⟩]⟩

/-- The same under the name of the route. -/
def swappedLoop : Struct :=
  ⟨"Route", 1, [⟨"", "Route", none, 2⟩]⟩

/-- The route compiles to the same mapping when its structs swap their names, and a struct
that holds itself fails on the same line. -/
theorem route_renamed :
    (Renaming .builtin swapRoute (routeStruct :: routeScope.structs)
        [swappedRoute, swappedPoint, swappedRoute] ∧
      ∃ m, (compileStruct routeScope routeStruct false).result = .ok m ∧
        (compileStruct ⟨.builtin, [swappedPoint, swappedRoute]⟩ swappedRoute false).result =
          .ok m) ∧
    (Renaming .builtin swapRoute [loopStruct, loopStruct] [swappedLoop, swappedLoop] ∧
      ∃ e, (compileStruct ⟨.builtin, [swappedLoop]⟩ swappedLoop false).result =
        .error (.invalid e) ∧ e.violation.code = "E_CYCLE" ∧ e.line = 2) := by
  have hpoint : (⟨"Point", 1, [⟨"x", "f32", none, 2⟩, ⟨"label", "u8", some 3, 3⟩]⟩ :
      Struct).Renamed .builtin swapRoute swappedPoint :=
    ⟨rfl, rfl, .cons ⟨rfl, rfl, rfl⟩ (.cons ⟨rfl, rfl, rfl⟩ .nil)⟩
  have hroute : routeStruct.Renamed .builtin swapRoute swappedRoute :=
    ⟨rfl, rfl, .cons ⟨rfl, rfl, rfl⟩ (.cons ⟨rfl, rfl, rfl⟩ (.cons ⟨rfl, rfl, rfl⟩ .nil))⟩
  have hrenaming : Renaming .builtin swapRoute (routeStruct :: routeScope.structs)
      [swappedRoute, swappedPoint, swappedRoute] :=
    ⟨.cons hroute (.cons hpoint (.cons hroute .nil)), by decide +kernel, by decide +kernel⟩
  have hloop : loopStruct.Renamed .builtin swapRoute swappedLoop :=
    ⟨rfl, rfl, .cons ⟨rfl, rfl, rfl⟩ .nil⟩
  have hagain : Renaming .builtin swapRoute [loopStruct, loopStruct] [swappedLoop, swappedLoop] :=
    ⟨.cons hloop (.cons hloop .nil), by decide +kernel, by decide +kernel⟩
  obtain ⟨m, hm⟩ : ∃ m, (compileStruct routeScope routeStruct false).result = .ok m := ⟨_, rfl⟩
  obtain ⟨e, e', he, he', hcode, hline⟩ := (compileStruct_renamed hagain).2.2 _ rfl
  cases he
  exact ⟨⟨hrenaming, m, hm, ((compileStruct_renamed hrenaming).1 m).mp hm⟩,
    ⟨hagain, e', he', hcode, hline⟩⟩

end FieldMap
