import FieldMap.Compile
import FieldMap.Proofs.StatefulSteps

/-!
# Laying out in place

A layout is a function of the trail, of the room that is left and of the start.  A compiler keeps
all of these in one place and changes them as it goes: it puts the name of a struct on the trail
when it enters the struct and takes it off again behind the last member, and it counts one level
more while it is below a property with children.  This module lays a struct out in that way.

* `Workspace` is what is changed: the table, the trail, the depth, and the events so far, each with
  the depth at which it was reported.
* `expand` is the compilation of a struct in place.  It calls itself, and every call takes a frame;
  without a frame it stops with `Halt.outOfFrames`.
* `Restores` says that a success leaves trail and depth as they were.  `restores_between` is the
  reason for it, and `restores_expand` the statement for a struct, whatever the workspace was.

That the compilation in place does the same as `Compile.expand`, and that the frames do not run out,
is shown elsewhere.
-/

namespace FieldMap
namespace InPlace

/-- An event, and the properties with children that were open when it was reported. -/
structure Report where
  depth : Nat
  event : Event

/-- What a compilation in place works on. -/
structure Workspace where
  /-- The entries of the size table, in order. -/
  sizes : List UInt8 := []
  /-- The names of the structs being expanded, innermost first. -/
  trail : List String := []
  /-- The properties with children above the one being built. -/
  depth : Nat := 0
  /-- What has been reported, in order. -/
  reports : List Report := []

/-- Why a compilation in place stops. -/
inductive Halt
  | broken (e : CompileError)
  /-- There is no frame for one more struct inside those being expanded. -/
  | outOfFrames

/-- A step of a compilation in place. -/
abbrev Step (α : Type) := ExceptT Halt (StateM Workspace) α

/-- A change of the workspace. -/
def change (f : Workspace → Workspace) : Step Unit :=
  ExceptT.mk fun w => (.ok (), f w)

/-- A look at the workspace, which may break a rule. -/
def check {α : Type} (test : Workspace → Except CompileError α) : Step α :=
  ExceptT.mk fun w => ((test w).mapError .broken, w)

/-- The workspace with one more report. -/
def Workspace.reported (w : Workspace) (event : Event) : Workspace :=
  { w with reports := w.reports ++ [⟨w.depth, event⟩] }

/-- Reports an event. -/
def report (event : Workspace → Event) : Step Unit :=
  change fun w => w.reported (event w)

/-- Changes the workspace for a step, and changes it back when the step has succeeded. -/
def between {α : Type} (enter leave : Workspace → Workspace) (step : Step α) : Step α := do
  change enter
  let a ← step
  change leave
  pure a

/-- The nodes of some items in turn, newest first. -/
def gather {ι : Type} (step : ι → Step Node) (items : List ι) : Step (List Node) :=
  items.foldlM
    (fun nodes item => do
      let node ← step item
      pure (node :: nodes))
    []

/-- The index of the next entry, while there is room in the table. -/
def nextIndex (owner : Struct) (member : Member) : Step UInt16 :=
  check fun w => Compile.nextIndex owner member w.sizes.length

/-- There is room for one more property with children. -/
def checkDepth (owner : Struct) (member : Member) : Step Unit :=
  check fun w =>
    if w.depth < maxDepth then .ok () else .error (Compile.violation owner member .tooDeep)

/-- A member of a primitive type. -/
def leaf (context : Compile.Context) (owner : Struct) (member : Member) (type : Primitive) :
    Step Node := do
  let bytes := type.bytes member.copies
  check fun _ =>
    if 255 < bytes then
      .error (Compile.violation owner member (.sizeOverflow member.copies type.size))
    else .ok ()
  let index ← nextIndex owner member
  change fun w => { w with sizes := w.sizes ++ [UInt8.ofNat bytes] }
  report fun _ => .leafPlaced owner.name member.name index.toNat bytes
  pure ⟨index, context.name member.name, .nil⟩

/-- A property with children, which lie one level deeper. -/
def nest (owner : Struct) (member : Member) (name : Option String) (children : Step Forest) :
    Step Node := do
  checkDepth owner member
  let index ← nextIndex owner member
  let properties ← between (fun w => { w with depth := w.depth + 1 })
    (fun w => { w with depth := w.depth - 1 }) children
  pure ⟨index, name, properties⟩

section
variable (context : Compile.Context) (expand : Struct → Step Forest)

/-- A property over the members of a struct. -/
def interior (owner : Struct) (member : Member) (nested : Struct) (name : Option String) :
    Step Node :=
  nest owner member name (expand nested)

/-- A property over the elements of an array of structs. -/
def array (owner : Struct) (member : Member) (nested : Struct) : Step Node := do
  check fun _ => Compile.checkChildCount owner member.copies
  nest owner member (context.name member.name) do
    let nodes ← gather (fun position => interior expand owner member nested
      (context.name (Compile.elementName member position))) (List.range member.copies)
    pure (Forest.ofReversed nodes)

/-- A member of struct type. -/
def structMember (owner : Struct) (member : Member) (nested : Struct) : Step Node := do
  check fun w =>
    if w.trail.contains nested.name then
      .error (Compile.violation owner member (.cycle w.trail nested.name))
    else if nested.members.isEmpty then
      .error (Compile.violation owner member (.emptyStruct nested.name))
    else .ok ()
  if member.copies = 1 then interior expand owner member nested (context.name member.name)
  else array context expand owner member nested

/-- A member of any type. -/
def place (owner : Struct) (member : Member) : Step Node :=
  match context.scope.resolve member.typeName with
  | .primitive type => leaf context owner member type
  | .struct nested => structMember context expand owner member nested
  | .unresolved => check fun _ => .error (Compile.violation owner member .unresolvedType)

/-- The members of a struct, given how to expand a struct inside it. -/
def expandWith (owner : Struct) : Step Forest :=
  between (fun w => { w with trail := owner.name :: w.trail })
    (fun w => { w with trail := w.trail.tail }) do
      report fun w => .expanding w.trail
      let nodes ← gather (place context expand owner) owner.members
      check fun _ => Compile.checkChildCount owner nodes.length
      pure (Forest.ofReversed nodes)

end

/-- The members of a struct, with so many frames. -/
def expand (context : Compile.Context) : (frames : Nat) → Struct → Step Forest
  | 0, _ => throw .outOfFrames
  | frames + 1, owner => expandWith context (expand context frames) owner

/-- The mapping of a struct, with so many frames. -/
def compileStruct (frames : Nat) (scope : Scope) (target : Struct) (named : Bool) :
    Step Mapping := do
  let properties ← expand ⟨scope, named⟩ frames target
  report fun w => .structCompiled target.name w.sizes.length properties.length
  check fun w => .ok ⟨w.sizes, properties⟩

/-! ## What a success leaves as it was -/

/-- A success leaves the trail and the depth as they were. -/
def Restores {α : Type} (step : Step α) : Prop :=
  ∀ w a next, step.run w = (.ok a, next) → next.trail = w.trail ∧ next.depth = w.depth

section
variable {α β : Type}

theorem restores_pure (a : α) : Restores (pure a : Step α) := by
  intro w _ next h
  cases h
  exact ⟨rfl, rfl⟩

theorem restores_bind {step : Step α} {rest : α → Step β} (hstep : Restores step)
    (hrest : ∀ a, Restores (rest a)) : Restores (step >>= rest) := by
  intro w b last h
  obtain ⟨a, next, hfirst, hlast⟩ := run_bind_eq_ok_iff.mp h
  obtain ⟨htrail, hdepth⟩ := hstep w a next hfirst
  obtain ⟨htrail', hdepth'⟩ := hrest a next b last hlast
  exact ⟨htrail'.trans htrail, hdepth'.trans hdepth⟩

theorem restores_change {f : Workspace → Workspace}
    (hf : ∀ w, (f w).trail = w.trail ∧ (f w).depth = w.depth) : Restores (change f) := by
  intro w _ next h
  cases h
  exact hf w

theorem restores_report (event : Workspace → Event) : Restores (report event) :=
  restores_change fun _ => ⟨rfl, rfl⟩

theorem restores_check (test : Workspace → Except CompileError α) : Restores (check test) := by
  intro w a next h
  have hsame : w = next := (Prod.mk.inj h).2
  subst hsame
  exact ⟨rfl, rfl⟩

/-- What changes the workspace back for a step that has restored it, restores it as well. -/
theorem restores_between {enter leave : Workspace → Workspace} {step : Step α}
    (hstep : Restores step)
    (hback : ∀ w inner, inner.trail = (enter w).trail → inner.depth = (enter w).depth →
      (leave inner).trail = w.trail ∧ (leave inner).depth = w.depth) :
    Restores (between enter leave step) := by
  intro w b last h
  obtain ⟨_, _, henter, h⟩ := run_bind_eq_ok_iff.mp h
  cases henter
  obtain ⟨a, inner, hinner, h⟩ := run_bind_eq_ok_iff.mp h
  obtain ⟨_, _, hleave, h⟩ := run_bind_eq_ok_iff.mp h
  cases hleave
  cases h
  obtain ⟨htrail, hdepth⟩ := hstep _ _ _ hinner
  exact hback w inner htrail hdepth

theorem restores_gather {ι : Type} {step : ι → Step Node} (hstep : ∀ item, Restores (step item))
    (items : List ι) : Restores (gather step items) := by
  unfold gather
  generalize ([] : List Node) = nodes
  induction items generalizing nodes with
  | nil => exact restores_pure nodes
  | cons item items ih =>
      rw [List.foldlM_cons]
      exact restores_bind (restores_bind (hstep item) fun node => restores_pure _) ih

end

theorem restores_leaf (context : Compile.Context) (owner : Struct) (member : Member)
    (type : Primitive) : Restores (leaf context owner member type) := by
  refine restores_bind (restores_check _) fun _ => restores_bind (restores_check _) fun index => ?_
  refine restores_bind (restores_change fun _ => ⟨rfl, rfl⟩) fun _ => ?_
  exact restores_bind (restores_report _) fun _ => restores_pure _

theorem restores_nest {owner : Struct} {member : Member} {name : Option String}
    {children : Step Forest} (hchildren : Restores children) :
    Restores (nest owner member name children) := by
  refine restores_bind (restores_check _) fun _ => restores_bind (restores_check _) fun index => ?_
  refine restores_bind (restores_between hchildren ?_) fun _ => restores_pure _
  intro w inner htrail hdepth
  have hdown : inner.depth - 1 = w.depth := by
    rw [hdepth]
    exact Nat.add_sub_cancel _ _
  exact ⟨htrail, hdown⟩

section
variable {context : Compile.Context} {recur : Struct → Step Forest}
variable (hrecur : ∀ s, Restores (recur s))
include hrecur

theorem restores_interior (owner : Struct) (member : Member) (nested : Struct)
    (name : Option String) : Restores (interior recur owner member nested name) :=
  restores_nest (hrecur nested)

theorem restores_structMember (owner : Struct) (member : Member) (nested : Struct) :
    Restores (structMember context recur owner member nested) := by
  refine restores_bind (restores_check _) fun _ => ?_
  split
  · exact restores_interior hrecur owner member nested _
  · have helements := restores_gather (fun position => restores_interior hrecur owner member nested
      (context.name (Compile.elementName member position))) (List.range member.copies)
    refine restores_bind (restores_check _) fun _ => restores_nest ?_
    exact restores_bind helements fun _ => restores_pure _

theorem restores_place (owner : Struct) (member : Member) :
    Restores (place context recur owner member) := by
  unfold place
  split
  · exact restores_leaf context owner member _
  · exact restores_structMember hrecur owner member _
  · exact restores_check _

theorem restores_expandWith (owner : Struct) : Restores (expandWith context recur owner) := by
  refine restores_between (restores_bind (restores_report _) fun _ => ?_) ?_
  · refine restores_bind (restores_gather (restores_place hrecur owner) _) fun _ => ?_
    exact restores_bind (restores_check _) fun _ => restores_pure _
  · intro w inner htrail hdepth
    have hpop : inner.trail.tail = w.trail := by
      rw [htrail]
      rfl
    exact ⟨hpop, hdepth⟩

end

/-- A struct that has been expanded leaves the trail and the depth as they were. -/
theorem restores_expand (context : Compile.Context) (frames : Nat) (owner : Struct) :
    Restores (expand context frames owner) := by
  induction frames generalizing owner with
  | zero =>
      intro w a next h
      cases h
  | succ frames ih => exact restores_expandWith ih owner

end InPlace
end FieldMap
