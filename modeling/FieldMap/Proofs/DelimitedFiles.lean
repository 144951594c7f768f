import FieldMap.Proofs.ArtifactRoundTrip

/-!
# Files that say where they end

A mapping file holds the length of everything in it, so where it ends can be told from the file
itself.  Every part of an accepted file is asked for before anything else is asked of it: a file
that is cut short is refused for the missing bytes and for nothing else, and a file with more
behind it is refused for these.

* `Reader.Delimited` is the statement about a reader.  It takes bytes for its value whatever
  stands behind them, and runs out of bytes on each part of them.  One rule serves all sequences
  of readers, however deep properties are nested (`Reader.Delimited.bind`).
* `Whole` is the statement about what reads a file up to its end.
-/

namespace FieldMap
namespace Artifact

/-! ## Cuts -/

/-- What is left of some bytes when the last ones are cut off. -/
def IsCut (part whole : List UInt8) : Prop :=
  part <+: whole ∧ part ≠ whole

section
variable {part used rest : List UInt8}

theorem IsCut.length_lt (h : IsCut part used) : part.length < used.length :=
  Nat.lt_of_le_of_ne h.1.length_le fun hlength => h.2 (h.1.eq_of_length hlength)

theorem not_isCut_nil : ¬ IsCut part [] :=
  fun h => absurd h.length_lt (Nat.not_lt_zero _)

/-- A cut falls into the first part or behind it. -/
theorem IsCut.of_append (h : IsCut part (used ++ rest)) :
    IsCut part used ∨ ∃ left, part = used ++ left ∧ IsCut left rest := by
  obtain ⟨hfront, hne⟩ := h
  by_cases hused : used <+: part
  · obtain ⟨left, rfl⟩ := hused
    refine .inr ⟨left, rfl, (List.prefix_append_right_inj used).mp hfront, ?_⟩
    rintro rfl
    exact hne rfl
  · refine .inl ⟨?_, ?_⟩
    · rcases List.prefix_or_prefix_of_prefix hfront (List.prefix_append used rest) with hpart | hpart
      · exact hpart
      · exact absurd hpart hused
    · rintro rfl
      exact hused List.prefix_rfl

end

/-! ## Readers -/

section
variable {α β : Type}

/-- The bytes are what the reader takes for the value.  It leaves what stands behind them, and
it does not get to the end of any cut. -/
structure Reader.Takes (read : Reader α) (used : List UInt8) (a : α) : Prop where
  whole : ∀ rest, read (used ++ rest) = .ok (a, rest)
  cut : ∀ part, IsCut part used → read part = .error .endOfFile

/-- Whatever the reader accepts it takes from the front of the bytes. -/
def Reader.Delimited (read : Reader α) : Prop :=
  ∀ bytes a rest, read bytes = .ok (a, rest) → ∃ used, bytes = used ++ rest ∧ read.Takes used a

theorem Reader.delimited_ok (a : α) : Reader.Delimited fun bytes => .ok (a, bytes) := by
  intro bytes found rest h
  cases h
  exact ⟨[], rfl, fun _ => rfl, fun _ hcut => absurd hcut not_isCut_nil⟩

theorem Reader.delimited_error (e : FormatError) :
    Reader.Delimited (fun _ => .error e : Reader α) := by
  intro bytes a rest h
  cases h

/-- A reader may be followed by others, which may depend on what it has read. -/
theorem Reader.Delimited.bind {x : Reader α}
    {g : α × List UInt8 → Except FormatError (β × List UInt8)} (hx : x.Delimited)
    (hg : ∀ a, Reader.Delimited fun rest => g (a, rest)) :
    Reader.Delimited fun bytes => x bytes >>= g := by
  intro bytes b rest h
  obtain ⟨⟨a, middle⟩, hfirst, hrest⟩ := bind_eq_ok_iff.mp h
  obtain ⟨used, rfl, hused⟩ := hx bytes a middle hfirst
  obtain ⟨more, rfl, hmore⟩ := hg a middle b rest hrest
  refine ⟨used ++ more, (List.append_assoc used more rest).symm, ?_, ?_⟩
  · intro behind
    rw [List.append_assoc, hused.whole, ok_bind]
    exact hmore.whole behind
  · intro part hpart
    rcases hpart.of_append with hcut | ⟨left, rfl, hcut⟩
    · rw [hused.cut part hcut]
      rfl
    · rw [hused.whole, ok_bind]
      exact hmore.cut left hcut

theorem Reader.Delimited.ite {c : Prop} [Decidable c] {x y : Reader α} (hx : x.Delimited)
    (hy : y.Delimited) : Reader.Delimited fun bytes => if c then x bytes else y bytes := by
  by_cases hc : c
  · simpa only [if_pos hc] using hx
  · simpa only [if_neg hc] using hy

/-! ## The readers of a mapping file -/

theorem take_of_length_lt {count : Nat} {bytes : List UInt8} (h : bytes.length < count) :
    take count bytes = .error .endOfFile :=
  takeOnto_of_length_lt [] bytes h

theorem delimited_take (count : Nat) : (take count).Delimited := by
  intro bytes taken rest h
  obtain ⟨rfl, rfl⟩ := take_eq_ok_iff.mp h
  exact ⟨taken, rfl, take_append taken, fun part hcut => take_of_length_lt hcut.length_lt⟩

theorem delimited_readByte : readByte.Delimited := by
  intro bytes b rest h
  match bytes, h with
  | b :: rest, rfl =>
      refine ⟨[b], rfl, fun _ => rfl, ?_⟩
      intro part hcut
      match part, hcut.length_lt with
      | [], _ => rfl

theorem delimited_readWord : readWord.Delimited := by
  intro bytes n rest h
  match bytes, h with
  | low :: high :: rest, rfl =>
      refine ⟨[low, high], rfl, fun _ => rfl, ?_⟩
      intro part hcut
      match part, hcut.length_lt with
      | [], _ => rfl
      | [_], _ => rfl

theorem delimited_readName (named : Bool) : (readName named).Delimited := by
  cases named with
  | false => exact Reader.delimited_ok none
  | true =>
      refine delimited_readWord.bind fun length => (delimited_take length).bind fun text => ?_
      cases htext : Text.Utf8.decode text with
      | ok name =>
          simp only [htext]
          exact Reader.delimited_ok (some name)
      | error fault =>
          simp only [htext]
          exact Reader.delimited_error (.invalidName fault)

theorem delimited_readLeaf (named : Bool) (sizeCount : Nat) :
    (readLeaf named sizeCount).Delimited := by
  refine delimited_readWord.bind fun index => (Reader.delimited_error _).ite ?_
  refine (delimited_readName named).bind fun name => ?_
  exact Reader.delimited_ok (Node.mk (UInt16.ofNat index) name .nil)

theorem delimited_readInterior (named : Bool) {below : Option (Nat → Reader Forest)}
    (hbelow : ∀ readChildren ∈ below, ∀ count, (readChildren count).Delimited) :
    (readInterior named below).Delimited := by
  refine delimited_readWord.bind fun count => (Reader.delimited_error _).ite ?_
  cases below with
  | none => exact Reader.delimited_error .tooDeep
  | some readChildren =>
      refine (delimited_readName named).bind fun name => ?_
      refine (hbelow readChildren rfl count).bind fun children => ?_
      exact Reader.delimited_ok (Node.mk (children.firstIndex?.getD 0) name children)

theorem delimited_readNode (named : Bool) (sizeCount : Nat)
    {below : Option (Nat → Reader Forest)}
    (hbelow : ∀ readChildren ∈ below, ∀ count, (readChildren count).Delimited) :
    (readNode named sizeCount below).Delimited := by
  refine delimited_readByte.bind fun tag => (delimited_readLeaf named sizeCount).ite ?_
  exact (delimited_readInterior named hbelow).ite (Reader.delimited_error _)

/-- Properties side by side are delimited if each of them is. -/
theorem delimited_readNodesOnto {read : Reader Node} (hread : read.Delimited)
    (nodes : List Node) (count : Nat) : (readNodesOnto read nodes count).Delimited := by
  induction count generalizing nodes with
  | zero => exact Reader.delimited_ok (Forest.ofReversed nodes)
  | succ count ih =>
      have hstep : readNodesOnto read nodes (count + 1) = fun bytes =>
          read bytes >>= fun placed => readNodesOnto read (placed.1 :: nodes) count placed.2 := by
        funext bytes
        rw [readNodesOnto]
        cases read bytes <;> rfl
      rw [hstep]
      exact hread.bind fun node => ih (node :: nodes)

theorem delimited_readForest (named : Bool) (sizeCount room count : Nat) :
    (readForest named sizeCount room count).Delimited := by
  induction room generalizing count with
  | zero =>
      refine delimited_readNodesOnto (delimited_readNode named sizeCount ?_) [] count
      rintro _ ⟨⟩
  | succ room ih =>
      refine delimited_readNodesOnto (delimited_readNode named sizeCount ?_) [] count
      rintro _ ⟨⟩
      exact ih

/-! ## Whole files -/

/-- What reads to the end accepts no bytes of which it accepts a part: it runs out of bytes on
each cut, and counts the bytes that are too many. -/
def Whole (read : List UInt8 → Except FormatError α) : Prop :=
  ∀ bytes a, read bytes = .ok a → (∀ part, IsCut part bytes → read part = .error .endOfFile) ∧
    ∀ more, more ≠ [] → read (bytes ++ more) = .error (.trailingBytes more.length)

/-- Nothing may stand behind what was read last. -/
theorem whole_end (a : α) :
    Whole fun rest => if rest.isEmpty then .ok a else .error (.trailingBytes rest.length) := by
  intro bytes found h
  cases bytes with
  | cons b bytes => cases h
  | nil =>
      refine ⟨fun part hcut => absurd hcut not_isCut_nil, fun more hmore => ?_⟩
      have hsome : more.isEmpty = false := List.isEmpty_eq_false_iff.mpr hmore
      simp only [List.nil_append, hsome, Bool.false_eq_true, if_false]

theorem whole_error (e : FormatError) :
    Whole (fun _ => .error e : List UInt8 → Except FormatError α) := by
  intro bytes a h
  cases h

theorem Whole.ite {c : Prop} [Decidable c] {x y : List UInt8 → Except FormatError α}
    (hx : Whole x) (hy : Whole y) : Whole fun bytes => if c then x bytes else y bytes := by
  by_cases hc : c
  · simpa only [if_pos hc] using hx
  · simpa only [if_neg hc] using hy

/-- Readers may come before what reads to the end. -/
theorem Reader.Delimited.bind_whole {x : Reader α} {g : α × List UInt8 → Except FormatError β}
    (hx : x.Delimited) (hg : ∀ a, Whole fun rest => g (a, rest)) :
    Whole fun bytes => x bytes >>= g := by
  intro bytes b h
  obtain ⟨⟨a, rest⟩, hfirst, hrest⟩ := bind_eq_ok_iff.mp h
  obtain ⟨used, rfl, hused⟩ := hx bytes a rest hfirst
  obtain ⟨hcuts, hexcess⟩ := hg a rest b hrest
  constructor
  · intro part hpart
    rcases hpart.of_append with hcut | ⟨left, rfl, hcut⟩
    · simp only [hused.cut part hcut]
      rfl
    · simp only [hused.whole, ok_bind]
      exact hcuts left hcut
  · intro more hmore
    simp only [List.append_assoc, hused.whole, ok_bind]
    exact hexcess more hmore

end

theorem whole_decode : Whole decode := by
  refine (delimited_take magic.length).bind_whole fun head => (whole_error .badMagic).ite ?_
  refine delimited_readByte.bind_whole fun found => (whole_error _).ite ?_
  refine delimited_readByte.bind_whole fun flagByte => ?_
  refine delimited_readWord.bind_whole fun sizeCount => ?_
  refine (delimited_take sizeCount).bind_whole fun sizes => ?_
  refine delimited_readWord.bind_whole fun propertyCount => ?_
  refine (delimited_readForest _ sizes.length maxDepth propertyCount).bind_whole fun forest => ?_
  exact whole_end (Mapping.mk sizes forest)

/-- A file that is accepted is refused for missing bytes once its last ones are cut off, however
many they are, and for the bytes behind it once there are any. -/
theorem decode_delimits {written : List UInt8} {m : Mapping} (hread : decode written = .ok m) :
    (∀ part, part <+: written → part ≠ written → decode part = .error .endOfFile) ∧
      ∀ more, 1 ≤ more.length →
        decode (written ++ more) = .error (.trailingBytes more.length) := by
  obtain ⟨hcuts, hexcess⟩ := whole_decode written m hread
  refine ⟨fun part hfront hne => hcuts part ⟨hfront, hne⟩, fun more hmore => ?_⟩
  exact hexcess more (List.length_pos_iff.mp hmore)

/-- A file whose last name has two bytes for one character. -/
def accentedFile : List UInt8 :=
  magic ++ [version, 1, 1, 0, 4, 1, 0, interiorTag, 1, 0, 1, 0, 97, leafTag, 0, 0, 2, 0, 195, 169]

/-- The file is accepted, but not without the last byte of that character, nor with another file
behind it. -/
theorem accentedFile_delimits :
    decode accentedFile =
      .ok ⟨[4], .ofNodes [⟨0, some "a", .ofNodes [⟨0, some "é", .nil⟩]⟩]⟩ ∧
    decode accentedFile.dropLast = .error .endOfFile ∧
    decode (accentedFile ++ accentedFile) = .error (.trailingBytes 24) := by
  have hread : decode accentedFile =
      .ok ⟨[4], .ofNodes [⟨0, some "a", .ofNodes [⟨0, some "é", .nil⟩]⟩]⟩ := rfl
  obtain ⟨hcuts, hexcess⟩ := decode_delimits hread
  exact ⟨hread, hcuts _ (List.dropLast_prefix _) (by decide), hexcess accentedFile (by decide)⟩

end Artifact
end FieldMap
