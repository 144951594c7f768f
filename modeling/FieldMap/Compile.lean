import FieldMap.Lookup
import FieldMap.Mapping
import FieldMap.Scope

/-!
# Compiling a struct

Compiling flattens a struct into a size table and a forest of properties.  The
members are laid out in order.  A member of a primitive type takes one entry of
the table, with the bytes of all its copies; a member of struct type becomes a
property over the members of that struct, or, when it is an array, a property over
one such property for every element.  A property with children carries the index
that the next entry has when the property is begun, which is that of its first
leaf.

Everything is laid out from a *start*, the number of entries before it, so that
the layout of a struct depends on where it stands only through its start.  The
recursion is on the *room*, the number of levels of properties that may still be
opened; an array opens two.  What lies below a member is therefore handed to the
layout of the member as two expanders, one for the level below it and one for the
level below that, each of them absent where there is no room for it.
-/

namespace FieldMap
namespace Compile

/-- What a compilation looks names up in, and whether properties get names. -/
structure Context where
  scope : Scope
  named : Bool

/-- A piece of a layout: the entries it appends to the table, and its properties. -/
structure Layout where
  sizes : List UInt8 := []
  properties : Forest := .nil

/-- A layout under construction. -/
structure Progress where
  /-- The index of the next entry. -/
  next : Nat
  /-- The entries so far, newest first. -/
  sizes : List UInt8 := []
  /-- The properties so far, newest first. -/
  nodes : List Node := []

/-- One property is complete, and its entries with it. -/
def Progress.push (progress : Progress) (sizes : List UInt8) (node : Node) : Progress :=
  ⟨progress.next + sizes.length, sizes.reverseAux progress.sizes, node :: progress.nodes⟩

/-- Lays out one more property, starting at the next entry. -/
def Progress.grow (progress : Progress)
    (piece : (start : Nat) → Traced CompileError (List UInt8 × Node)) :
    Traced CompileError Progress := do
  let (sizes, node) ← piece progress.next
  pure (progress.push sizes node)

/-- The finished layout. -/
def Progress.layout (progress : Progress) : Layout :=
  ⟨progress.sizes.reverse, Forest.ofReversed progress.nodes⟩

/-- Lays out the members of a struct.  The trail holds the names of the structs
being expanded, innermost first, without the one at hand. -/
abbrev Expander := (trail : List String) → (start : Nat) → Struct → Traced CompileError Layout

/-- A rule broken by a member. -/
def violation (owner : Struct) (member : Member) (rule : Violation) : CompileError :=
  .invalid ⟨owner.name, member.name, member.typeName, member.line, rule⟩

/-- A node has so many children as its struct or its array says. -/
def checkChildCount (owner : Struct) (count : Nat) : Except CompileError Unit :=
  if count ≤ maxCount then .ok ()
  else .error (.invalid ⟨owner.name, "", owner.name, owner.line, .tooManyChildren count⟩)

/-- The index of the next entry, while there is room in the table. -/
def nextIndex (owner : Struct) (member : Member) (start : Nat) : Except CompileError UInt16 :=
  if start < maxCount then .ok (UInt16.ofNat start)
  else .error (violation owner member .indexOverflow)

/-- The name of a property, if properties get names. -/
def Context.name (context : Context) (name : String) : Option String :=
  if context.named then some name else none

/-- A member of a primitive type. -/
def leaf (context : Context) (owner : Struct) (start : Nat) (member : Member)
    (type : Primitive) : Traced CompileError (List UInt8 × Node) := do
  let bytes := type.bytes member.copies
  if 255 < bytes then
    Traced.fail (violation owner member (.sizeOverflow member.copies type.size))
  else
    let index ← Traced.ofExcept (nextIndex owner member start)
    Traced.report (.leafPlaced owner.name member.name start bytes)
    pure ([UInt8.ofNat bytes], ⟨index, context.name member.name, .nil⟩)

/-- A property over the members of a struct. -/
def interior (owner : Struct) (trail : List String) (below : Option Expander)
    (start : Nat) (member : Member) (nested : Struct) (name : Option String) :
    Traced CompileError (List UInt8 × Node) := do
  match below with
  | none => Traced.fail (violation owner member .tooDeep)
  | some expand =>
    let index ← Traced.ofExcept (nextIndex owner member start)
    let layout ← expand trail start nested
    pure (layout.sizes, ⟨index, name, layout.properties⟩)

/-- The name of an element of an array. -/
def elementName (member : Member) (position : Nat) : String :=
  s!"{member.name}[{position}]"

/-- A property over the elements of an array of structs. -/
def array (context : Context) (owner : Struct) (trail : List String)
    (below twoBelow : Option Expander) (start : Nat) (member : Member) (nested : Struct) :
    Traced CompileError (List UInt8 × Node) := do
  Traced.ofExcept (checkChildCount owner member.copies)
  if below.isNone then
    Traced.fail (violation owner member .tooDeep)
  else
    let index ← Traced.ofExcept (nextIndex owner member start)
    let element (progress : Progress) (position : Nat) :=
      progress.grow fun start =>
        interior owner trail twoBelow start member nested
          (context.name (elementName member position))
    let elements ← Traced.fold element ⟨start, [], []⟩ (List.range member.copies)
    let layout := elements.layout
    pure (layout.sizes, ⟨index, context.name member.name, layout.properties⟩)

/-- A member of struct type. -/
def structMember (context : Context) (owner : Struct) (trail : List String)
    (below twoBelow : Option Expander) (start : Nat) (member : Member) (nested : Struct) :
    Traced CompileError (List UInt8 × Node) :=
  if trail.contains nested.name then
    Traced.fail (violation owner member (.cycle trail nested.name))
  else if nested.members.isEmpty then
    Traced.fail (violation owner member (.emptyStruct nested.name))
  else if member.copies = 1 then
    interior owner trail below start member nested (context.name member.name)
  else
    array context owner trail below twoBelow start member nested

/-- A member of any type. -/
def place (context : Context) (owner : Struct) (trail : List String)
    (below twoBelow : Option Expander) (start : Nat) (member : Member) :
    Traced CompileError (List UInt8 × Node) :=
  match context.scope.resolve member.typeName with
  | .primitive type => leaf context owner start member type
  | .struct nested => structMember context owner trail below twoBelow start member nested
  | .unresolved => Traced.fail (violation owner member .unresolvedType)

/-- The members of a struct, given the expanders for the levels below. -/
def expandWith (context : Context) (below twoBelow : Option Expander) : Expander :=
  fun trail start owner => do
    let trail := owner.name :: trail
    Traced.report (.expanding trail)
    let step (progress : Progress) (member : Member) :=
      progress.grow fun start => place context owner trail below twoBelow start member
    let progress ← Traced.fold step ⟨start, [], []⟩ owner.members
    Traced.ofExcept (checkChildCount owner progress.nodes.length)
    pure progress.layout

/-- The members of a struct, with room for so many levels of properties. -/
def expand (context : Context) : (room : Nat) → Expander
  | 0 => expandWith context none none
  | 1 => expandWith context (some (expand context 0)) none
  | room + 2 =>
    expandWith context (some (expand context (room + 1))) (some (expand context room))

end Compile

/-- The mapping of a struct, which need not be one of the scope. -/
def compileStruct (scope : Scope) (target : Struct) (named : Bool) :
    Traced CompileError Mapping := do
  let layout ← Compile.expand ⟨scope, named⟩ maxDepth [] 0 target
  Traced.report
    (.structCompiled target.name layout.sizes.length layout.properties.length)
  pure ⟨layout.sizes, layout.properties⟩

/-- The mapping of the struct of that name. -/
def compile (scope : Scope) (target : String) (named : Bool) : Traced CompileError Mapping := do
  let s ← findStruct scope.structs target
  compileStruct scope s named

end FieldMap
