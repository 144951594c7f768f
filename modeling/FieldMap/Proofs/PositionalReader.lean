import FieldMap.Artifact.Decode
import FieldMap.Proofs.StatefulSteps

/-!
# Reading at a position

A reader takes bytes from the front and leaves the rest.  A program keeps all bytes and a position
in them instead, moves the position forward, and looks the bytes up that it has moved over.  Such
reading can go wrong in ways that a reader of a rest cannot: a look-up beyond what was taken, or a
position beyond the end when the bytes behind it are counted.  This module reads a mapping file in
that way, and `Stop.trapped` is where it would go wrong.

* `Cursor` is the position, with the number of nodes begun so far and a mark for every move and for
  every node that was begun.
* `readNode` counts the properties above a node upwards, and refuses children where there are too
  many.
* `Advances` says how far a step moves at least when it succeeds, from any position; the gains of
  steps add up, and a node gains three bytes for itself and three for every node below it:
  `advances_readNode`.
-/

namespace FieldMap

/-- The properties of a forest, however deep they lie. -/
def Forest.count : Forest → Nat
  | nil => 0
  | cons _ _ children siblings => children.count + siblings.count + 1

/-- A property and those below it. -/
def Node.count (node : Node) : Nat :=
  node.children.count + 1

namespace Forest

theorem count_push (node : Node) (f : Forest) : (push node f).count = node.count + f.count := by
  show node.children.count + f.count + 1 = node.children.count + 1 + f.count
  omega

theorem count_foldl_push (f : Forest) (nodes : List Node) :
    (nodes.foldl (fun f node => push node f) f).count = f.count + (ofReversed nodes).count := by
  induction nodes generalizing f with
  | nil => rfl
  | cons node nodes ih =>
      have honto := ih (push node f)
      have hown : (ofReversed (node :: nodes)).count = _ := ih (push node nil)
      have hnil : nil.count = 0 := rfl
      rw [List.foldl_cons, honto, hown, count_push, count_push]
      omega

/-- One more node in front of nodes that are given in reverse order. -/
theorem count_ofReversed_cons (node : Node) (nodes : List Node) :
    (ofReversed (node :: nodes)).count = node.count + (ofReversed nodes).count := by
  have hown : (ofReversed (node :: nodes)).count = _ := count_foldl_push (push node nil) nodes
  rw [hown, count_push]
  rfl

end Forest

namespace Artifact
namespace Positional

/-- What happened at a position. -/
inductive Mark
  /-- The position was moved to here. -/
  | moved (position : Nat)
  /-- A node was begun here, below so many properties and after so many nodes. -/
  | entered (depth position nodes : Nat)

/-- A position in the bytes of a file. -/
structure Cursor where
  position : Nat := 0
  /-- The nodes that have been begun. -/
  nodes : Nat := 0
  /-- What has happened so far, in order. -/
  marks : List Mark := []

/-- Why reading stops. -/
inductive Stop
  | refused (e : FormatError)
  /-- A look-up or a subtraction is out of range. -/
  | trapped

/-- A step that reads at a position. -/
abbrev Step (α : Type) := ExceptT Stop (StateM Cursor) α

/-- The bytes are no mapping file. -/
def refuse {α : Type} (e : FormatError) : Step α :=
  throw (.refused e)

/-- A node is begun, below so many properties. -/
def enter (depth : Nat) : Step Unit :=
  ExceptT.mk fun c =>
    (.ok (), { c with nodes := c.nodes + 1, marks := c.marks ++ [.entered depth c.position c.nodes] })

/-- The byte at a place of those that were taken. -/
def byteAt (taken : List UInt8) (place : Nat) : Step UInt8 :=
  match taken[place]? with
  | some b => pure b
  | none => throw .trapped

section
variable (bytes : List UInt8)

/-- So many bytes from the position on, and the position behind them. -/
def take (count : Nat) : Step (List UInt8) :=
  ExceptT.mk fun c =>
    let stop := c.position + count
    if stop ≤ bytes.length then
      (.ok ((bytes.drop c.position).take count),
        { c with position := stop, marks := c.marks ++ [.moved stop] })
    else (.error (.refused .endOfFile), c)

/-- One byte. -/
def readByte : Step UInt8 := do
  let taken ← take bytes 1
  byteAt taken 0

/-- A number of two bytes. -/
def readWord : Step Nat := do
  let taken ← take bytes 2
  let low ← byteAt taken 0
  let high ← byteAt taken 1
  pure (word low high)

/-- A name with its length, if names are present. -/
def readName (named : Bool) : Step (Option String) := do
  if named then
    let length ← readWord bytes
    let text ← take bytes length
    match Text.Utf8.decode text with
    | .ok name => pure (some name)
    | .error fault => refuse (.invalidName fault)
  else pure none

/-- A leaf after its tag. -/
def readLeaf (named : Bool) (sizeCount : Nat) : Step Node := do
  let index ← readWord bytes
  if sizeCount ≤ index then refuse (.indexOutOfRange (UInt16.ofNat index) sizeCount)
  else
    let name ← readName bytes named
    pure ⟨UInt16.ofNat index, name, .nil⟩

/-- So many more properties side by side, onto properties in reverse order. -/
def readNodesOnto (read : Step Node) (nodes : List Node) : (count : Nat) → Step Forest
  | 0 => pure (.ofReversed nodes)
  | count + 1 => do
    let node ← read
    readNodesOnto read (node :: nodes) count

/-- One property, below so many others. -/
def readNode (named : Bool) (sizeCount depth : Nat) : Step Node := do
  enter depth
  let tag ← readByte bytes
  if tag = leafTag then readLeaf bytes named sizeCount
  else if tag = interiorTag then
    let count ← readWord bytes
    if count = 0 then refuse .emptyInterior
    else if _h : maxDepth ≤ depth then refuse .tooDeep
    else
      let name ← readName bytes named
      let children ← readNodesOnto (readNode named sizeCount (depth + 1)) [] count
      pure ⟨children.firstIndex?.getD 0, name, children⟩
  else refuse (.unrecognizedTag tag)
termination_by maxDepth - depth

/-- The bytes behind the position. -/
def remaining : Step Nat :=
  ExceptT.mk fun c =>
    if c.position ≤ bytes.length then (.ok (bytes.length - c.position), c) else (.error .trapped, c)

/-- The mapping of a whole file. -/
def decode : Step Mapping := do
  let head ← take bytes magic.length
  if head ≠ magic then refuse .badMagic
  else
    let found ← readByte bytes
    if found ≠ version then refuse (.unsupportedVersion found)
    else
      let flags ← readByte bytes
      let named := flags &&& namesFlag ≠ 0
      let sizeCount ← readWord bytes
      let sizes ← take bytes sizeCount
      let propertyCount ← readWord bytes
      let properties ← readNodesOnto (readNode bytes named sizes.length 0) [] propertyCount
      let count ← remaining bytes
      if count = 0 then pure ⟨sizes, properties⟩ else refuse (.trailingBytes count)

/-! ## How far a step moves -/

/-- A success moves the position by so much at least, and not beyond the end if it was not there
before. -/
def Advances {α : Type} (gain : α → Nat) (step : Step α) : Prop :=
  ∀ c a next, step.run c = (.ok a, next) →
    c.position + gain a ≤ next.position ∧
      (c.position ≤ bytes.length → next.position ≤ bytes.length)

end

section
variable {bytes : List UInt8} {α β : Type}

theorem advances_refuse (gain : α → Nat) (e : FormatError) : Advances bytes gain (refuse e) := by
  intro c a next h
  cases h

theorem advances_pure {gain : α → Nat} {a : α} (h : gain a = 0) :
    Advances bytes gain (pure a) := by
  intro c _ next hrun
  cases hrun
  exact ⟨by omega, id⟩

/-- What the first step has gained, what follows it need not gain. -/
theorem advances_bind {first : α → Nat} {gain : β → Nat} {step : Step α} {rest : α → Step β}
    (hstep : Advances bytes first step)
    (hrest : ∀ a, Advances bytes (fun b => gain b - first a) (rest a)) :
    Advances bytes gain (step >>= rest) := by
  intro c b last h
  obtain ⟨a, next, hfirst, hlast⟩ := run_bind_eq_ok_iff.mp h
  obtain ⟨hgain, hbound⟩ := hstep c a next hfirst
  obtain ⟨hrestgain, hbound'⟩ := hrest a next b last hlast
  have hmore : next.position + (gain b - first a) ≤ last.position := hrestgain
  exact ⟨by omega, fun hc => hbound' (hbound hc)⟩

theorem Advances.mono {gain less : α → Nat} {step : Step α} (h : Advances bytes gain step)
    (hless : ∀ a, less a ≤ gain a) : Advances bytes less step := by
  intro c a next hrun
  obtain ⟨hgain, hbound⟩ := h c a next hrun
  have hle := hless a
  exact ⟨by omega, hbound⟩

theorem advances_enter (depth : Nat) : Advances bytes (fun _ => 0) (enter depth) := by
  intro c _ next h
  cases h
  exact ⟨Nat.le_refl _, id⟩

theorem advances_byteAt (taken : List UInt8) (place : Nat) :
    Advances bytes (fun _ => 0) (byteAt taken place) := by
  unfold byteAt
  split
  · exact advances_pure rfl
  · intro c a next h
    cases h

theorem advances_take (bytes : List UInt8) (count : Nat) :
    Advances bytes (fun _ => count) (take bytes count) := by
  intro c taken next h
  by_cases hstop : c.position + count ≤ bytes.length
  · have hrun : (take bytes count).run c = (.ok ((bytes.drop c.position).take count),
        { c with position := c.position + count,
                 marks := c.marks ++ [.moved (c.position + count)] }) := if_pos hstop
    rw [hrun] at h
    cases h
    exact ⟨Nat.le_refl _, fun _ => hstop⟩
  · have hrun : (take bytes count).run c = (.error (.refused .endOfFile), c) := if_neg hstop
    rw [hrun] at h
    cases h

end

section
variable (bytes : List UInt8)

theorem advances_readByte : Advances bytes (fun _ => 1) (readByte bytes) :=
  advances_bind (advances_take bytes 1) fun taken => advances_byteAt taken 0

theorem advances_readWord : Advances bytes (fun _ => 2) (readWord bytes) := by
  refine advances_bind (advances_take bytes 2) fun taken => ?_
  refine advances_bind (advances_byteAt taken 0) fun low => ?_
  exact advances_bind (advances_byteAt taken 1) fun high => advances_pure rfl

theorem advances_readName (named : Bool) : Advances bytes (fun _ => 0) (readName bytes named) := by
  unfold readName
  split
  · refine advances_bind (advances_readWord bytes) fun length => ?_
    refine advances_bind (advances_take bytes length) fun text => ?_
    split
    · exact advances_pure (by simp)
    · exact advances_refuse _ _
  · exact advances_pure rfl

theorem advances_remaining : Advances bytes (fun _ => 0) (remaining bytes) := by
  intro c count next h
  by_cases hposition : c.position ≤ bytes.length
  · have hrun : (remaining bytes).run c = (.ok (bytes.length - c.position), c) := if_pos hposition
    rw [hrun] at h
    cases h
    exact ⟨Nat.le_refl _, id⟩
  · have hrun : (remaining bytes).run c = (.error .trapped, c) := if_neg hposition
    rw [hrun] at h
    cases h

end

section
variable {bytes : List UInt8}

theorem advances_readLeaf (named : Bool) (sizeCount : Nat) :
    Advances bytes (fun node => 3 * node.count - 1) (readLeaf bytes named sizeCount) := by
  refine advances_bind (advances_readWord bytes) fun index => ?_
  split
  · exact advances_refuse _ _
  · refine advances_bind (advances_readName bytes named) fun name => ?_
    exact advances_pure rfl

/-- Properties read one after another gain what is gained by each of them. -/
theorem advances_readNodesOnto {read : Step Node}
    (hread : Advances bytes (fun node => 3 * node.count) read) (nodes : List Node) (count : Nat) :
    Advances bytes (fun f => 3 * (f.count - (Forest.ofReversed nodes).count))
      (readNodesOnto read nodes count) := by
  induction count generalizing nodes with
  | zero => exact advances_pure (by rw [Nat.sub_self])
  | succ count ih =>
      refine advances_bind hread fun node => (ih (node :: nodes)).mono fun f => ?_
      rw [Forest.count_ofReversed_cons]
      omega

/-- A node gains three bytes for each property: its tag, and an index or a number of children. -/
theorem advances_readNode (named : Bool) (sizeCount depth : Nat) :
    Advances bytes (fun node => 3 * node.count) (readNode bytes named sizeCount depth) := by
  rw [readNode]
  refine advances_bind (advances_enter depth) fun _ => ?_
  refine advances_bind (advances_readByte bytes) fun tag => ?_
  split
  · exact (advances_readLeaf named sizeCount).mono fun node => Nat.le_refl _
  split
  · refine advances_bind (advances_readWord bytes) fun count => ?_
    split
    · exact advances_refuse _ _
    split
    · exact advances_refuse _ _
    · refine advances_bind (advances_readName bytes named) fun name => ?_
      have hbelow := advances_readNode named sizeCount (depth + 1)
      refine advances_bind (advances_readNodesOnto hbelow [] count) fun children => ?_
      refine advances_pure ?_
      show 3 * (children.count + 1) - 0 - 1 - 2 - 0 - 3 * (children.count - 0) = 0
      omega
  · exact advances_refuse _ _
termination_by maxDepth - depth

/-- The sizes and the properties of a mapping are all behind its first bytes. -/
theorem advances_decode : Advances bytes (fun m => 3 * m.properties.count) (decode bytes) := by
  refine advances_bind (advances_take bytes magic.length) fun head => ?_
  split
  · exact advances_refuse _ _
  refine advances_bind (advances_readByte bytes) fun found => ?_
  split
  · exact advances_refuse _ _
  refine advances_bind (advances_readByte bytes) fun flags => ?_
  refine advances_bind (advances_readWord bytes) fun sizeCount => ?_
  refine advances_bind (advances_take bytes sizeCount) fun sizes => ?_
  refine advances_bind (advances_readWord bytes) fun propertyCount => ?_
  refine advances_bind (advances_readNodesOnto (advances_readNode _ sizes.length 0) []
    propertyCount) fun properties => ?_
  refine advances_bind (advances_remaining bytes) fun count => ?_
  split
  · refine advances_pure ?_
    show 3 * properties.count - 4 - 1 - 1 - 2 - sizeCount - 2 - 3 * (properties.count - 0) - 0 = 0
    omega
  · exact advances_refuse _ _

end

end Positional
end Artifact
end FieldMap
