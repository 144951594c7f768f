import FieldMap.Artifact.Decode
import FieldMap.Proofs.ArtifactExcess
import FieldMap.Proofs.Outcome

/-!
# Reading what was written

A reader that stands before the bytes of something gives it back and stops behind them.
For numbers and names this is all there is to say.  For properties there is more:

* the index of a property with children is not in the file, and a name that is absent is
  written as the empty one, so what comes back is the `Forest.normal` form;
* a leaf may point outside the table, and the properties may be too deep, so nothing may
  come back at all; `Forest.fault?` is the first reason in preorder.

`readForest_forestBytes` puts the two together, by induction on the properties, and
`decode_bytes` is the statement for a whole file.
-/

namespace FieldMap

/-- The name that comes back from a file. -/
def storedName (named : Bool) (name : Option String) : Option String :=
  if named then some (name.getD "") else none

namespace Forest

/-- The properties as they come back from a file: a property with children has the index of
the first leaf below it, and all have names or none has. -/
def normal (named : Bool) : Forest → Forest
  | nil => nil
  | cons index name children siblings =>
      cons (if children.isEmpty then index else children.leaves.headD 0)
        (storedName named name) (children.normal named) (siblings.normal named)

/-- Why no reader accepts the properties, with a table of so many sizes and room for so many
levels of children: the reason that is the first in preorder. -/
def fault? (sizeCount room : Nat) : Forest → Option Artifact.FormatError
  | nil => none
  | cons index _ children siblings =>
      (if children.isEmpty then
        if sizeCount ≤ index.toNat then some (.indexOutOfRange index sizeCount) else none
      else if room = 0 then some .tooDeep
      else fault? sizeCount (room - 1) children).or (fault? sizeCount room siblings)

theorem leaves_ne_nil {f : Forest} (h : f ≠ nil) : f.leaves ≠ [] := by
  induction f with
  | nil => exact absurd rfl h
  | cons index name children siblings ih _ =>
      rw [leaves_cons]
      cases children with
      | nil => simp [isEmpty]
      | cons => simpa [isEmpty] using fun hleaves => absurd hleaves (ih (by simp))

/-- The first index of a normal form is that of the first leaf. -/
theorem firstIndex?_normal (named : Bool) (f : Forest) :
    (f.normal named).firstIndex? = f.leaves.head? := by
  cases f with
  | nil => rfl
  | cons index name children siblings =>
      rw [normal, firstIndex?, leaves_cons]
      split
      · rfl
      · next hchildren =>
          have hne : children.leaves ≠ [] := by
            apply leaves_ne_nil
            rintro rfl
            exact hchildren rfl
          obtain ⟨first, rest, hleaves⟩ := List.exists_cons_of_ne_nil hne
          rw [hleaves]
          rfl

/-- Properties are in normal form when each has a name that can come back, and the index of the
first leaf below it unless it is a leaf. -/
theorem normal_eq_self_iff {named : Bool} {f : Forest} :
    f.normal named = f ↔ ∀ node ∈ f, storedName named node.name = node.name ∧
      (node.children ≠ nil → node.children.leaves.head? = some node.index) := by
  induction f with
  | nil => simp [normal]
  | cons index name children siblings ihchildren ihsiblings =>
      rw [forall_mem_cons, ← ihchildren, ← ihsiblings, normal, cons.injEq]
      cases hempty : children.isEmpty with
      | true =>
          obtain rfl := isEmpty_eq_true_iff.mp hempty
          simp [normal]
      | false =>
          have hne := isEmpty_eq_false_iff.mp hempty
          obtain ⟨first, rest, hleaves⟩ := List.exists_cons_of_ne_nil (leaves_ne_nil hne)
          rw [hleaves]
          simp [hne, and_assoc, and_left_comm]

/-- The properties are accepted exactly when every leaf points into the table and no way down
is longer than the room. -/
theorem fault?_eq_none_iff {sizeCount room : Nat} {f : Forest} :
    f.fault? sizeCount room = none ↔
      (∀ index ∈ f.leaves, index.toNat < sizeCount) ∧ f.depth ≤ room := by
  induction f generalizing room with
  | nil => simp [fault?, depth]
  | cons index name children siblings ihchildren ihsiblings =>
      rw [fault?, Option.or_eq_none_iff, ihsiblings, leaves_cons, depth]
      cases hempty : children.isEmpty with
      | true =>
          simp only [if_true, ite_eq_right_iff, reduceCtorEq, imp_false, Nat.not_le,
            List.singleton_append, List.forall_mem_cons, Nat.zero_max, and_assoc]
      | false =>
          simp only [Bool.false_eq_true, if_false, List.forall_mem_append, Nat.max_le]
          cases room with
          | zero => simp
          | succ room =>
              rw [if_neg (Nat.succ_ne_zero room), Nat.succ_sub_one, ihchildren,
                Nat.succ_le_succ_iff]
              exact and_and_and_comm

end Forest

namespace Artifact

/-! ## Numbers and names -/

theorem readWord_wordBytes {n : Nat} (h : n ≤ maxWord) (rest : List UInt8) :
    readWord (wordBytes n ++ rest) = .ok (n, rest) := by
  show Except.ok (word (lowByte n) (highByte n), rest) = _
  rw [word_bytes h]

theorem take_append (taken rest : List UInt8) :
    take taken.length (taken ++ rest) = .ok (taken, rest) :=
  take_eq_ok_iff.mpr ⟨rfl, rfl⟩

/-- The bytes of a name with its length, if names are written. -/
def nameField (named : Bool) (name : Option String) : List UInt8 :=
  if named then wordBytes (nameBytes name).length ++ nameBytes name else []

theorem readName_nameField {named : Bool} {name : Option String}
    (h : named = true → (name.getD "").utf8ByteSize ≤ maxWord) (rest : List UInt8) :
    readName named (nameField named name ++ rest) = .ok (storedName named name, rest) := by
  cases named with
  | false => rfl
  | true =>
      have hlength : (nameBytes name).length ≤ maxWord := by
        rw [nameBytes, Text.Utf8.length_encode]
        exact h rfl
      have htext : Text.Utf8.decode (nameBytes name) = .ok (name.getD "") :=
        Text.Utf8.decode_encode _
      simp only [readName, nameField, if_true, List.append_assoc, readWord_wordBytes hlength,
        ok_bind, take_append, htext]
      rfl

/-! ## Properties -/

/-- The reader for the properties below, if there is room for any. -/
def readBelow (named : Bool) (sizeCount : Nat) : (room : Nat) → Option (Nat → Reader Forest)
  | 0 => none
  | room + 1 => some (readForest named sizeCount room)

theorem readForest_eq (named : Bool) (sizeCount room : Nat) :
    readForest named sizeCount room =
      readNodesOnto (readNode named sizeCount (readBelow named sizeCount room)) [] := by
  cases room <;> rfl

/-- The properties read so far stand in front of what is read from then on. -/
theorem readNodesOnto_eq (read : Reader Node) (nodes : List Node) (count : Nat)
    (bytes : List UInt8) :
    readNodesOnto read nodes count bytes =
      (readNodesOnto read [] count bytes).map fun placed =>
        (nodes.foldl (fun f node => f.push node) placed.1, placed.2) := by
  -- The nodes in front take no part in reading.
  induction count generalizing nodes bytes with
  | zero => rfl
  | succ count ih =>
      unfold readNodesOnto
      cases read bytes with
      | error e => rfl
      | ok placed =>
          obtain ⟨node, rest⟩ := placed
          simp only
          rw [ih (node :: nodes), ih [node]]
          cases readNodesOnto read [] count rest <;> rfl

theorem readForest_zero (named : Bool) (sizeCount room : Nat) (bytes : List UInt8) :
    readForest named sizeCount room 0 bytes = .ok (.nil, bytes) := by
  rw [readForest_eq]
  rfl

/-- Properties are read one after the other. -/
theorem readForest_succ (named : Bool) (sizeCount room count : Nat) (bytes : List UInt8) :
    readForest named sizeCount room (count + 1) bytes = (do
      let (node, rest) ← readNode named sizeCount (readBelow named sizeCount room) bytes
      let (siblings, rest) ← readForest named sizeCount room count rest
      .ok (siblings.push node, rest)) := by
  rw [readForest_eq]
  generalize readNode named sizeCount (readBelow named sizeCount room) = read
  rw [readNodesOnto]
  cases read bytes with
  | error e => rfl
  | ok placed =>
      obtain ⟨node, rest⟩ := placed
      simp only [ok_bind]
      rw [readNodesOnto_eq]
      cases readNodesOnto read [] count rest <;> rfl

theorem nodeBytes_leaf (named : Bool) (index : UInt16) (name : Option String) :
    nodeBytes named index name .nil =
      leafTag :: (wordBytes index.toNat ++ nameField named name) :=
  rfl

theorem nodeBytes_interior (named : Bool) (index : UInt16) (name : Option String)
    {children : Forest} (hne : children ≠ .nil) :
    nodeBytes named index name children =
      interiorTag :: (wordBytes children.length ++ nameField named name) := by
  unfold nodeBytes
  rw [Forest.isEmpty_eq_false_iff.mpr hne]
  rfl

/-- A leaf comes back if it points into the table. -/
theorem readNode_leaf {named : Bool} {index : UInt16} {name : Option String}
    (hname : named = true → (name.getD "").utf8ByteSize ≤ maxWord) (sizeCount : Nat)
    (below : Option (Nat → Reader Forest)) (rest : List UInt8) :
    readNode named sizeCount below (nodeBytes named index name .nil ++ rest) =
      if sizeCount ≤ index.toNat then .error (.indexOutOfRange index sizeCount)
      else .ok (⟨index, storedName named name, .nil⟩, rest) := by
  have hindex : index.toNat ≤ maxWord := Nat.le_of_lt_succ index.toNat_lt
  have hback : UInt16.ofNat index.toNat = index := UInt16.ofNat_toNat
  rw [nodeBytes_leaf, List.cons_append, List.append_assoc]
  show readLeaf named sizeCount (wordBytes index.toNat ++ (nameField named name ++ rest)) = _
  simp only [readLeaf, readWord_wordBytes hindex, ok_bind, readName_nameField hname, hback]

/-- A property with children comes back with what the reader below makes of these. -/
theorem readNode_interior {named : Bool} {index : UInt16} {name : Option String}
    {children : Forest} (hne : children ≠ .nil)
    (hwritable : Node.Writable named ⟨index, name, children⟩) (sizeCount : Nat)
    (below : Option (Nat → Reader Forest)) (rest : List UInt8) :
    readNode named sizeCount below (nodeBytes named index name children ++ rest) =
      match below with
      | none => .error .tooDeep
      | some readChildren => (do
          let (found, rest) ← readChildren children.length rest
          .ok (⟨found.firstIndex?.getD 0, storedName named name, found⟩, rest)) := by
  have hcount : children.length ≠ 0 := Nat.ne_of_gt (Forest.length_pos_iff.mpr hne)
  rw [nodeBytes_interior named index name hne, List.cons_append, List.append_assoc]
  show readInterior named below (wordBytes children.length ++ (nameField named name ++ rest)) = _
  simp only [readInterior, readWord_wordBytes hwritable.1, ok_bind, if_neg hcount]
  cases below with
  | none => rfl
  | some readChildren => simp only [readName_nameField hwritable.2, ok_bind]

/-- Written properties come back in normal form, unless one of them is refused: then the
first refusal is the outcome. -/
theorem readForest_forestBytes {named : Bool} (sizeCount room : Nat) {f : Forest}
    (hwritable : ∀ node ∈ f, node.Writable named) (rest : List UInt8) :
    readForest named sizeCount room f.length (forestBytes named f ++ rest) =
      (f.fault? sizeCount room).elim (.ok (f.normal named, rest)) .error := by
  induction f generalizing room rest with
  | nil => exact readForest_zero named sizeCount room rest
  | cons index name children siblings ihchildren ihsiblings =>
      obtain ⟨hown, hwbelow, hwbeside⟩ := Forest.forall_mem_cons.mp hwritable
      have hbelow (room : Nat) := ihchildren room hwbelow
      have hbeside := ihsiblings room hwbeside
      rw [forestBytes_cons, Forest.length_cons, readForest_succ, List.append_assoc,
        List.append_assoc, Forest.fault?, Forest.normal]
      cases hempty : children.isEmpty with
      | true =>
          -- A leaf is refused for its index, or the siblings decide.
          obtain rfl := Forest.isEmpty_eq_true_iff.mp hempty
          rw [readNode_leaf hown.2]
          by_cases hindex : sizeCount ≤ index.toNat
          · rw [if_pos hindex, if_pos hindex]
            rfl
          · rw [if_neg hindex, if_neg hindex]
            simp only [ok_bind, forestBytes_nil, List.nil_append, hbeside]
            cases siblings.fault? sizeCount room <;> rfl
      | false =>
          have hne := Forest.isEmpty_eq_false_iff.mp hempty
          rw [readNode_interior hne hown]
          cases room with
          -- Without room the reader stops before it has seen a child.
          | zero => rfl
          | succ room =>
              simp only [readBelow, hbelow room]
              rw [if_neg Bool.false_ne_true, if_neg Bool.false_ne_true,
                if_neg (Nat.succ_ne_zero room), Nat.add_sub_cancel]
              cases hfault : children.fault? sizeCount room with
              | some fault => rfl
              | none =>
                  -- The children are back in normal form, and their first index is put in.
                  simp only [Option.elim_none, ok_bind, hbeside]
                  rw [Option.none_or, Forest.firstIndex?_normal, ← List.headD_eq_head?_getD]
                  cases siblings.fault? sizeCount (room + 1) <;> rfl

/-! ## Whole files -/

theorem decide_flags_ne_zero (named : Bool) : decide (¬flags named &&& namesFlag = 0) = named := by
  cases named <;> rfl

/-- A written file comes back in normal form, unless one of its properties is refused. -/
theorem decode_bytes {m : Mapping} {named : Bool} (h : excess? m named = none) :
    decode (bytes m named) =
      (m.properties.fault? m.sizes.length maxDepth).elim
        (.ok ⟨m.sizes, m.properties.normal named⟩) .error := by
  obtain ⟨hsizes, hproperties, hwritable⟩ := excess?_eq_none_iff.mp h
  have hforest := readForest_forestBytes m.sizes.length maxDepth hwritable []
  rw [List.append_nil] at hforest
  simp only [bytes_eq, List.append_assoc, decode, take_append, ok_bind, ne_eq, not_true_eq_false,
    if_false, List.cons_append, readByte, List.nil_append, readWord_wordBytes hsizes,
    readWord_wordBytes hproperties]
  rw [decide_flags_ne_zero, hforest]
  cases m.properties.fault? m.sizes.length maxDepth <;> rfl

end Artifact
end FieldMap
