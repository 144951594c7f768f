import FieldMap.Proofs.ArtifactRefusal

/-!
# Reading and writing again

Whatever a reader accepts is the bytes of what it gives: there is one spelling of a number, of
a name, and of a property with everything below it.  Only the byte of flags has several, since
seven of its bits are ignored.

* For each reader an `eq_ok_iff` says that it succeeds exactly on the bytes of its result,
  followed by the rest, where the result is of the form that comes back from a file:
  `Node.Stored` for one property, `Forest.Stored` for properties side by side.
* `readForest_eq_ok_iff` is the statement for properties, by induction on the room and on the
  number of properties; its converse half is `readForest_forestBytes`.
* `decode_eq_ok_iff` is the statement for files, and `encode_of_decode_eq_ok` says what it
  means for a file that is read and written again.
-/

namespace FieldMap

/-- The properties are of the form that comes back from a file, with a table of so many sizes
and room for so many levels of children. -/
structure Forest.Stored (named : Bool) (sizeCount room : Nat) (f : Forest) : Prop where
  writable : ∀ node ∈ f, node.Writable named
  normal : f.normal named = f
  accepted : f.fault? sizeCount room = none

/-- What is below a property that comes back from a file: nothing, and then it points into the
table, or properties one level down, and then it has the index of the first of them. -/
inductive Node.Rooted (named : Bool) (sizeCount : Nat) : (room : Nat) → Node → Prop
  | leaf {room : Nat} {index : UInt16} {name : Option String} (inside : index.toNat < sizeCount) :
      Rooted named sizeCount room ⟨index, name, .nil⟩
  | interior {room : Nat} {index : UInt16} {name : Option String} {children : Forest}
      (stored : children.Stored named sizeCount room) (first : children.firstIndex? = some index) :
      Rooted named sizeCount (room + 1) ⟨index, name, children⟩

/-- The property is of the form that comes back from a file. -/
structure Node.Stored (named : Bool) (sizeCount room : Nat) (node : Node) : Prop where
  writable : node.Writable named
  name : storedName named node.name = node.name
  rooted : node.Rooted named sizeCount room

section
variable {named : Bool} {sizeCount room : Nat}

theorem Forest.stored_nil : Forest.nil.Stored named sizeCount room :=
  ⟨fun node h => absurd h (Forest.not_mem_nil node), rfl, rfl⟩

/-- A stored property in front of stored ones. -/
theorem Forest.Stored.push {siblings : Forest} (hsiblings : siblings.Stored named sizeCount room)
    {node : Node} (hnode : node.Stored named sizeCount room) :
    (siblings.push node).Stored named sizeCount room := by
  obtain ⟨hwritable, hname, hrooted⟩ := hnode
  cases hrooted with
  | leaf hinside =>
      have hindex := Nat.not_le.mpr hinside
      refine ⟨?_, ?_, ?_⟩
      · refine Forest.forall_mem_cons.mpr ⟨hwritable, ?_, hsiblings.writable⟩
        exact fun node h => absurd h (Forest.not_mem_nil node)
      · rw [Forest.push, Forest.normal, hname, hsiblings.normal]
        rfl
      · simp [Forest.push, Forest.fault?, Forest.isEmpty, hindex, hsiblings.accepted]
  | @interior room index name children hstored hfirst =>
      have hne : children ≠ .nil := by
        rintro rfl
        cases hfirst
      have hhead : children.leaves.head? = some index := by
        rw [← Forest.firstIndex?_normal named, hstored.normal, hfirst]
      have hempty := Forest.isEmpty_eq_false_iff.mpr hne
      refine ⟨?_, ?_, ?_⟩
      · exact Forest.forall_mem_cons.mpr ⟨hwritable, hstored.writable, hsiblings.writable⟩
      · rw [Forest.push, Forest.normal, hname, hstored.normal, hsiblings.normal, hempty,
          if_neg Bool.false_ne_true, List.headD_eq_head?_getD, hhead]
        rfl
      · simp [Forest.push, Forest.fault?, hempty, hstored.accepted, hsiblings.accepted]

end

namespace Artifact

/-! ## Numbers and names -/

theorem readWord_eq_ok_iff {bytes rest : List UInt8} {n : Nat} :
    readWord bytes = .ok (n, rest) ↔ n ≤ maxWord ∧ bytes = wordBytes n ++ rest := by
  constructor
  · intro h
    match bytes, h with
    | low :: high :: rest, rfl =>
        refine ⟨word_le low high, ?_⟩
        rw [wordBytes, lowByte_word, highByte_word]
        rfl
  · rintro ⟨hn, rfl⟩
    exact readWord_wordBytes hn rest

theorem readName_eq_ok_iff {named : Bool} {bytes rest : List UInt8} {name : Option String} :
    readName named bytes = .ok (name, rest) ↔
      storedName named name = name ∧
        (named = true → (name.getD "").utf8ByteSize ≤ maxWord) ∧
        bytes = nameField named name ++ rest := by
  constructor
  · intro h
    cases named with
    | false =>
        cases h
        exact ⟨rfl, nofun, rfl⟩
    | true =>
        simp only [readName, if_true, bind_eq_ok_iff, Prod.exists] at h
        obtain ⟨length, found, hlength, text, left, htext, h⟩ := h
        obtain ⟨hle, rfl⟩ := readWord_eq_ok_iff.mp hlength
        obtain ⟨rfl, rfl⟩ := take_eq_ok_iff.mp htext
        cases hdecode : Text.Utf8.decode text with
        | error fault =>
            rw [hdecode] at h
            cases h
        | ok s =>
            rw [hdecode] at h
            cases h
            obtain rfl := Text.Utf8.encode_of_decode hdecode
            refine ⟨rfl, fun _ => ?_, ?_⟩
            · rw [Text.Utf8.length_encode] at hle
              exact hle
            · rw [nameField, if_pos rfl, List.append_assoc]
              rfl
  · rintro ⟨hname, hlength, rfl⟩
    rw [readName_nameField hlength, hname]

/-! ## Properties -/

section
variable {named : Bool} {sizeCount room : Nat} {bytes rest : List UInt8} {node : Node}

theorem stored_of_readLeaf (h : readLeaf named sizeCount bytes = .ok (node, rest)) :
    node.Stored named sizeCount room ∧
      leafTag :: bytes =
        nodeBytes named node.index node.name node.children ++
          forestBytes named node.children ++ rest := by
  unfold readLeaf at h
  obtain ⟨⟨index, left⟩, hindex, hread⟩ := bind_eq_ok_iff.mp h
  obtain ⟨hle, rfl⟩ := readWord_eq_ok_iff.mp hindex
  simp only at hread
  split at hread
  · cases hread
  · next hinside =>
      obtain ⟨⟨name, left⟩, hname, hnamed⟩ := bind_eq_ok_iff.mp hread
      obtain ⟨hstored, hlength, rfl⟩ := readName_eq_ok_iff.mp hname
      cases hnamed
      have hback : (UInt16.ofNat index).toNat = index := by
        rw [UInt16.toNat_ofNat']
        exact Nat.mod_eq_of_lt (Nat.lt_succ_of_le hle)
      refine ⟨⟨⟨Nat.zero_le _, hlength⟩, hstored, .leaf ?_⟩, ?_⟩
      · rw [hback]
        exact Nat.not_le.mp hinside
      · rw [nodeBytes_leaf, hback]
        simp

/-- What the reader of properties accepts, with so much room. -/
def AcceptsStored (named : Bool) (sizeCount room : Nat) : Prop :=
  ∀ {count : Nat} {bytes rest : List UInt8} {f : Forest},
    readForest named sizeCount room count bytes = .ok (f, rest) →
      f.length = count ∧ f.Stored named sizeCount room ∧ bytes = forestBytes named f ++ rest

theorem stored_of_readInterior (hbelow : AcceptsStored named sizeCount room)
    (h : readInterior named (some (readForest named sizeCount room)) bytes = .ok (node, rest)) :
    node.Stored named sizeCount (room + 1) ∧
      interiorTag :: bytes =
        nodeBytes named node.index node.name node.children ++
          forestBytes named node.children ++ rest := by
  unfold readInterior at h
  obtain ⟨⟨count, left⟩, hcount, hread⟩ := bind_eq_ok_iff.mp h
  obtain ⟨hle, rfl⟩ := readWord_eq_ok_iff.mp hcount
  simp only at hread
  split at hread
  · cases hread
  · next hpos =>
      obtain ⟨⟨name, left⟩, hname, hnamed⟩ := bind_eq_ok_iff.mp hread
      obtain ⟨hstored, hlength, rfl⟩ := readName_eq_ok_iff.mp hname
      obtain ⟨⟨children, left⟩, hchildren, hplaced⟩ := bind_eq_ok_iff.mp hnamed
      obtain ⟨rfl, hforest, rfl⟩ := hbelow hchildren
      cases hplaced
      have hne : children ≠ .nil := Forest.length_pos_iff.mp (Nat.pos_of_ne_zero hpos)
      refine ⟨⟨⟨hle, hlength⟩, hstored, .interior hforest ?_⟩, ?_⟩
      · cases children with
        | nil => exact absurd rfl hne
        | cons index name children siblings => rfl
      · rw [nodeBytes_interior _ _ _ hne]
        simp

theorem stored_of_readNode
    (hbelow : ∀ below, room = below + 1 → AcceptsStored named sizeCount below)
    (h : readNode named sizeCount (readBelow named sizeCount room) bytes = .ok (node, rest)) :
    node.Stored named sizeCount room ∧
      bytes = nodeBytes named node.index node.name node.children ++
        forestBytes named node.children ++ rest := by
  cases bytes with
  | nil => cases h
  | cons tag bytes =>
      unfold readNode readByte at h
      simp only [ok_bind] at h
      split at h
      · next hleaf =>
          subst hleaf
          exact stored_of_readLeaf h
      · split at h
        · next hinterior =>
            subst hinterior
            cases room with
            | zero =>
                -- Without room the reader gives up once it has seen a number of children.
                unfold readInterior at h
                obtain ⟨⟨count, left⟩, -, h⟩ := bind_eq_ok_iff.mp h
                simp only [readBelow] at h
                split at h <;> cases h
            | succ room => exact stored_of_readInterior (hbelow room rfl) h
        · cases h

end

theorem acceptsStored (named : Bool) (sizeCount room : Nat) :
    AcceptsStored named sizeCount room := by
  -- The outer induction is on the levels, the inner one along the properties of a level.
  induction room using Nat.strongRecOn with
  | _ room ihroom =>
      intro count
      induction count with
      | zero =>
          intro bytes rest f h
          rw [readForest_zero] at h
          cases h
          exact ⟨rfl, Forest.stored_nil, rfl⟩
      | succ count ihcount =>
          intro bytes rest f h
          rw [readForest_succ] at h
          obtain ⟨⟨node, left⟩, hnode, h⟩ := bind_eq_ok_iff.mp h
          obtain ⟨⟨siblings, left⟩, hsiblings, h⟩ := bind_eq_ok_iff.mp h
          cases h
          have hbelow : ∀ below, room = below + 1 → AcceptsStored named sizeCount below := by
            rintro below rfl
            exact ihroom below (Nat.lt_succ_self below)
          obtain ⟨hstored, rfl⟩ := stored_of_readNode hbelow hnode
          obtain ⟨rfl, hrest, rfl⟩ := ihcount hsiblings
          refine ⟨Forest.length_cons _ _ _ _, hrest.push hstored, ?_⟩
          rw [Forest.push, forestBytes_cons, List.append_assoc _ _ rest]

/-- Properties are read from their bytes and from nothing else. -/
theorem readForest_eq_ok_iff {named : Bool} {sizeCount room count : Nat}
    {bytes rest : List UInt8} {f : Forest} :
    readForest named sizeCount room count bytes = .ok (f, rest) ↔
      f.length = count ∧ f.Stored named sizeCount room ∧ bytes = forestBytes named f ++ rest := by
  constructor
  · exact fun h => acceptsStored named sizeCount room h
  · rintro ⟨rfl, hstored, rfl⟩
    rw [readForest_forestBytes sizeCount room hstored.writable, hstored.accepted, hstored.normal]
    rfl

/-! ## Whole files -/

/-- The byte of flags says that names are present. -/
def saysNamed (flagByte : UInt8) : Bool :=
  flagByte &&& namesFlag ≠ 0

/-- The lowest bit of a byte of flags is the byte that the writer puts in its place. -/
theorem flags_saysNamed (flagByte : UInt8) : flags (saysNamed flagByte) = flagByte &&& namesFlag := by
  have hbit : (flagByte &&& namesFlag).toNat = flagByte.toNat % 2 := by
    rw [UInt8.toNat_and]
    exact Nat.and_one_is_mod _
  unfold saysNamed flags
  rcases Nat.mod_two_eq_zero_or_one flagByte.toNat with hzero | hone
  · have hclear : flagByte &&& namesFlag = 0 := UInt8.toNat_inj.mp (hbit.trans hzero)
    rw [hclear]
    rfl
  · have hset : flagByte &&& namesFlag = namesFlag := UInt8.toNat_inj.mp (hbit.trans hone)
    rw [hset]
    rfl

/-- What stands behind the byte of flags. -/
def countedBytes (m : Mapping) (named : Bool) : List UInt8 :=
  wordBytes m.sizes.length ++ (m.sizes ++
    (wordBytes m.properties.length ++ forestBytes named m.properties))

/-- Reads what stands behind the byte of flags. -/
def readCounted (named : Bool) (counted : List UInt8) : Except FormatError Mapping := do
  let (sizeCount, rest) ← readWord counted
  let (sizes, rest) ← take sizeCount rest
  let (propertyCount, rest) ← readWord rest
  let (properties, rest) ← readForest named sizes.length maxDepth propertyCount rest
  if rest.isEmpty then .ok ⟨sizes, properties⟩
  else .error (.trailingBytes rest.length)

theorem readCounted_eq_ok_iff {named : Bool} {counted : List UInt8} {m : Mapping} :
    readCounted named counted = .ok m ↔
      excess? m named = none ∧ m.properties.Stored named m.sizes.length maxDepth ∧
        counted = countedBytes m named := by
  constructor
  · intro h
    unfold readCounted at h
    obtain ⟨⟨sizeCount, left⟩, hsizeCount, hsized⟩ := bind_eq_ok_iff.mp h
    obtain ⟨hsizes, rfl⟩ := readWord_eq_ok_iff.mp hsizeCount
    obtain ⟨⟨sizes, left⟩, htaken, htable⟩ := bind_eq_ok_iff.mp hsized
    obtain ⟨rfl, rfl⟩ := take_eq_ok_iff.mp htaken
    obtain ⟨⟨propertyCount, left⟩, hpropertyCount, hcounted⟩ := bind_eq_ok_iff.mp htable
    obtain ⟨hproperties, rfl⟩ := readWord_eq_ok_iff.mp hpropertyCount
    obtain ⟨⟨properties, left⟩, hforest, hend⟩ := bind_eq_ok_iff.mp hcounted
    obtain ⟨rfl, hstored, rfl⟩ := readForest_eq_ok_iff.mp hforest
    simp only at hend
    split at hend
    · next hempty =>
        obtain rfl := List.isEmpty_iff.mp hempty
        cases hend
        refine ⟨excess?_eq_none_iff.mpr ⟨hsizes, hproperties, hstored.writable⟩, hstored, ?_⟩
        rw [List.append_nil, countedBytes]
    · cases hend
  · rintro ⟨hexcess, hstored, rfl⟩
    obtain ⟨hsizes, hproperties, -⟩ := excess?_eq_none_iff.mp hexcess
    have hforest := readForest_eq_ok_iff.mpr
      ⟨rfl, hstored, (List.append_nil (forestBytes named m.properties)).symm⟩
    simp only [readCounted, countedBytes, readWord_wordBytes hsizes, ok_bind, take_append,
      readWord_wordBytes hproperties, hforest]
    rfl

/-- A file is read once its first six bytes are right. -/
theorem decode_eq_ok_iff_readCounted {written : List UInt8} {m : Mapping} :
    decode written = .ok m ↔ ∃ flagByte counted,
      written = magic ++ version :: flagByte :: counted ∧
        readCounted (saysNamed flagByte) counted = .ok m := by
  constructor
  · intro h
    unfold decode at h
    obtain ⟨⟨head, afterMagic⟩, hhead, hread⟩ := bind_eq_ok_iff.mp h
    obtain ⟨rfl, -⟩ := take_eq_ok_iff.mp hhead
    simp only at hread
    split at hread
    · cases hread
    · next hmagic =>
        obtain rfl := Decidable.not_not.mp hmagic
        cases afterMagic with
        | nil => cases hread
        | cons found afterVersion =>
            simp only [readByte, ok_bind] at hread
            split at hread
            · cases hread
            · next hversion =>
                obtain rfl := Decidable.not_not.mp hversion
                cases afterVersion with
                | nil => cases hread
                | cons flagByte counted => exact ⟨flagByte, counted, rfl, hread⟩
  · rintro ⟨flagByte, counted, rfl, hread⟩
    exact hread

/-- A written file with another byte of flags. -/
theorem set_bytes (m : Mapping) (named : Bool) (flagByte : UInt8) :
    (bytes m named).set 5 flagByte = magic ++ version :: flagByte :: countedBytes m named := by
  simp [bytes_eq, magic, countedBytes]

theorem set_flags_bytes (m : Mapping) (named : Bool) :
    (bytes m named).set 5 (flags named) = bytes m named := by
  rw [set_bytes]
  simp [bytes_eq, countedBytes]

/-- A file is accepted exactly if it is that of a mapping in the form that comes back, up to the
bits of the flags that are ignored. -/
theorem decode_eq_ok_iff {written : List UInt8} {m : Mapping} :
    decode written = .ok m ↔ ∃ flagByte,
      excess? m (saysNamed flagByte) = none ∧
        m.properties.Stored (saysNamed flagByte) m.sizes.length maxDepth ∧
        written = (bytes m (saysNamed flagByte)).set 5 flagByte := by
  rw [decode_eq_ok_iff_readCounted]
  constructor
  · rintro ⟨flagByte, counted, rfl, hread⟩
    obtain ⟨hexcess, hstored, rfl⟩ := readCounted_eq_ok_iff.mp hread
    exact ⟨flagByte, hexcess, hstored, (set_bytes m _ flagByte).symm⟩
  · rintro ⟨flagByte, hexcess, hstored, rfl⟩
    exact ⟨flagByte, _, set_bytes m _ flagByte,
      readCounted_eq_ok_iff.mpr ⟨hexcess, hstored, rfl⟩⟩

end Artifact

/-- A mapping as every reader gives it, with names or without. -/
structure Mapping.Canonical (named : Bool) (m : Mapping) : Prop extends m.Readable where
  interior : ∀ node ∈ m.properties, node.children ≠ .nil →
    node.children.leaves.head? = some node.index
  names : ∀ node ∈ m.properties, node.name.isSome = named

theorem Mapping.canonical_of_stored {named : Bool} {m : Mapping}
    (h : m.properties.Stored named m.sizes.length maxDepth) : m.Canonical named := by
  have hnormal := Forest.normal_eq_self_iff.mp h.normal
  refine ⟨Mapping.readable_iff.mpr h.accepted, ?_, ?_⟩
  · exact fun node hnode => (hnormal node hnode).2
  · intro node hnode
    have hname := (hnormal node hnode).1
    cases named with
    | true =>
        rw [← hname]
        rfl
    | false =>
        rw [← hname]
        rfl

namespace Artifact

/-- A mapping that was read is written again, with names if the lowest bit of the sixth byte
says so, as the file it was read from, but for the ignored bits of that byte.  So two files of
one mapping that agree in that bit differ in the ignored bits at most; and no reader gives a
mapping that is not canonical. -/
theorem encode_of_decode_eq_ok {written : List UInt8} {m : Mapping}
    (hread : decode written = .ok m) :
    ∃ flagByte, written[5]? = some flagByte ∧
      encode m (flagByte &&& 1 ≠ 0) = .ok (written.set 5 (flagByte &&& 1)) ∧
      (∀ other otherByte, decode other = .ok m → other[5]? = some otherByte →
        otherByte &&& 1 = flagByte &&& 1 → other = written.set 5 otherByte) ∧
      m.Canonical (flagByte &&& 1 ≠ 0) := by
  obtain ⟨flagByte, hexcess, hstored, rfl⟩ := decode_eq_ok_iff.mp hread
  have hsixth (named : Bool) (byte : UInt8) : ((bytes m named).set 5 byte)[5]? = some byte := by
    rw [set_bytes]
    rfl
  refine ⟨flagByte, hsixth _ _, ?_, ?_, Mapping.canonical_of_stored hstored⟩
  · have hflags : flags (saysNamed flagByte) = flagByte &&& 1 := flags_saysNamed flagByte
    show encode m (saysNamed flagByte) = _
    rw [List.set_set, ← hflags, set_flags_bytes]
    exact encode_eq_ok_iff.mpr ⟨hexcess, rfl⟩
  · intro other otherByte hother hbyte hbit
    obtain ⟨byte, -, -, rfl⟩ := decode_eq_ok_iff.mp hother
    rw [hsixth] at hbyte
    cases hbyte
    have hnamed : saysNamed otherByte = saysNamed flagByte := by
      unfold saysNamed namesFlag
      rw [hbit]
    rw [hnamed, List.set_set]

/-- A file with all bits of its flags set. -/
def flaggedFile : List UInt8 :=
  magic ++ [version, 255, 1, 0, 4, 1, 0, interiorTag, 1, 0, 1, 0, 97, leafTag, 0, 0, 1, 0, 98]

/-- What it is read as. -/
def flaggedMapping : Mapping where
  sizes := [4]
  properties := .ofNodes [⟨0, some "a", .ofNodes [⟨0, some "b", .nil⟩]⟩]

/-- The file with all bits set is written again with the lowest one only. -/
theorem flaggedFile_again : decode flaggedFile = .ok flaggedMapping ∧
    encode flaggedMapping true = .ok (flaggedFile.set 5 1) ∧ flaggedMapping.Canonical true ∧
    decode (flaggedFile.set 5 3) = .ok flaggedMapping ∧
    flaggedFile.set 5 3 ≠ flaggedFile := by
  have hread : decode flaggedFile = .ok flaggedMapping := rfl
  obtain ⟨flagByte, hbyte, hwritten, -, hcanonical⟩ := encode_of_decode_eq_ok hread
  cases hbyte
  exact ⟨hread, hwritten, hcanonical, rfl, by decide⟩

end Artifact
end FieldMap
