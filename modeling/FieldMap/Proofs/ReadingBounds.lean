import FieldMap.Proofs.ArtifactCanonical
import FieldMap.Proofs.PositionalReader
import Mathlib.Data.List.Basic

/-!
# Where a reader gets to

Counts in a mapping file are taken on trust: 65535 children at every level, and nothing in front of
them says how many bytes there are.  This module shows that reading at a position stays inside the
file all the same, and ends.

* `Mark.Sound` is what holds whenever something happens: a position is inside the file, a node is
  not begun below more than 256 others, and three bytes lie behind the reader for every node that has
  been begun before.
* `Fair` is the invariant of a cursor from which the last of these follows; while a node is begun, its
  own bytes are still owed.
* `Follows` compares a reader of the rest with a step that reads at a position: both come to the
  same, the step stops without being trapped, and all its marks are sound.

`follows_readNode` is the statement for a node, by induction on the room, and `follows_decode` that
for a whole file.
-/

namespace FieldMap
namespace Artifact
namespace Positional

/-- What holds when something happens in a file of so many bytes. -/
def Mark.Sound (length : Nat) : Mark → Prop
  | moved position => position ≤ length
  | entered depth position nodes => depth ≤ 256 ∧ position ≤ length ∧ 3 * nodes ≤ position

/-- All marks that have been made in between are sound. -/
def Marked (bytes : List UInt8) (before after : Cursor) : Prop :=
  ∃ marks, after.marks = before.marks ++ marks ∧ ∀ mark ∈ marks, mark.Sound bytes.length

theorem Marked.refl (bytes : List UInt8) (c : Cursor) : Marked bytes c c :=
  ⟨[], (List.append_nil _).symm, fun _ hmark => nomatch hmark⟩

theorem Marked.single {bytes : List UInt8} {before after : Cursor} {mark : Mark}
    (hmarks : after.marks = before.marks ++ [mark]) (hsound : mark.Sound bytes.length) :
    Marked bytes before after := by
  refine ⟨[mark], hmarks, fun other hother => ?_⟩
  rw [List.mem_singleton.mp hother]
  exact hsound

theorem Marked.trans {bytes : List UInt8} {before between after : Cursor}
    (h : Marked bytes before between) (h' : Marked bytes between after) :
    Marked bytes before after := by
  obtain ⟨marks, hmarks, hsound⟩ := h
  obtain ⟨marks', hmarks', hsound'⟩ := h'
  refine ⟨marks ++ marks', ?_, ?_⟩
  · rw [hmarks', hmarks, List.append_assoc]
  · intro mark hmark
    rcases List.mem_append.mp hmark with hmem | hmem
    · exact hsound mark hmem
    · exact hsound' mark hmem

/-- With no mark before, all marks are sound. -/
theorem Marked.of_start {bytes : List UInt8} {last : Cursor} (h : Marked bytes {} last) :
    ∀ mark ∈ last.marks, mark.Sound bytes.length := by
  obtain ⟨marks, hmarks, hsound⟩ := h
  have hall : last.marks = marks := hmarks
  subst hall
  exact hsound

/-- The step comes to the same as the computation, in so far as its value and the position tell. -/
inductive Follows {α γ : Type} (bytes : List UInt8) (told : α → Cursor → γ)
    (wanted : α → Cursor → Prop) (x : Except FormatError γ) (step : Step α) (c : Cursor) : Prop
  | ok {a : α} {next : Cursor} (hx : x = .ok (told a next)) (hstep : step.run c = (.ok a, next))
      (hmarked : Marked bytes c next) (hwanted : wanted a next)
  | refused {e : FormatError} {next : Cursor} (hx : x = .error e)
      (hstep : step.run c = (.error (.refused e), next)) (hmarked : Marked bytes c next)

/-- The step reads what the reader reads, and stops in front of what the reader leaves. -/
abbrev Reads {α : Type} (bytes : List UInt8) (wanted : α → Cursor → Prop)
    (x : Except FormatError (α × List UInt8)) (step : Step α) (c : Cursor) : Prop :=
  Follows bytes (fun a next => (a, bytes.drop next.position)) wanted x step c

section
variable {α β γ δ : Type} {bytes : List UInt8} {told : α → Cursor → γ} {wanted : α → Cursor → Prop}
  {retold : β → Cursor → δ} {ending : β → Cursor → Prop} {c : Cursor}

theorem follows_pure {a : α} (h : wanted a c) :
    Follows bytes told wanted (.ok (told a c)) (pure a) c :=
  .ok rfl rfl (.refl bytes c) h

theorem follows_refuse (e : FormatError) : Follows bytes told wanted (.error e) (refuse e) c :=
  .refused rfl rfl (.refl bytes c)

theorem follows_bind {x : Except FormatError γ} {step : Step α} {f : γ → Except FormatError δ}
    {g : α → Step β} (h : Follows bytes told wanted x step c)
    (hrest : ∀ a next, wanted a next →
      Follows bytes retold ending (f (told a next)) (g a) next) :
    Follows bytes retold ending (x >>= f) (step >>= g) c := by
  cases h with
  | refused hx hstep hmarked =>
      subst hx
      exact .refused rfl (run_bind_of_error hstep) hmarked
  | @ok a next hx hstep hmarked hwanted =>
      subst hx
      cases hrest a next hwanted with
      | refused hy hlast hlater =>
          exact .refused hy ((run_bind_of_ok hstep).trans hlast) (hmarked.trans hlater)
      | ok hy hlast hlater hending =>
          exact .ok hy ((run_bind_of_ok hstep).trans hlast) (hmarked.trans hlater) hending

/-- A step that is known, which the computation does without. -/
theorem follows_step {x : Except FormatError δ} {step : Step α} {g : α → Step β} {a : α}
    {next : Cursor} (hstep : step.run c = (.ok a, next)) (hmarked : Marked bytes c next)
    (h : Follows bytes retold ending x (g a) next) :
    Follows bytes retold ending x (step >>= g) c := by
  cases h with
  | refused hx hlast hlater =>
      exact .refused hx ((run_bind_of_ok hstep).trans hlast) (hmarked.trans hlater)
  | ok hx hlast hlater hending =>
      exact .ok hx ((run_bind_of_ok hstep).trans hlast) (hmarked.trans hlater) hending

theorem follows_ite {p : Prop} [Decidable p] {x y : Except FormatError γ} {step other : Step α}
    (hthen : p → Follows bytes told wanted x step c)
    (helse : ¬ p → Follows bytes told wanted y other c) :
    Follows bytes told wanted (if p then x else y) (if p then step else other) c := by
  by_cases h : p
  · rw [if_pos h, if_pos h]
    exact hthen h
  · rw [if_neg h, if_neg h]
    exact helse h

/-- The position is inside the file, and so many bytes are owed for the nodes that have been begun. -/
structure Fair (bytes : List UInt8) (owed : Nat) (c : Cursor) : Prop where
  inside : c.position ≤ bytes.length
  nodes : 3 * c.nodes ≤ c.position + owed

/-- Bytes that are there are taken, and pay for the nodes. -/
theorem follows_take {owed count : Nat} (h : Fair bytes (owed + count) c) :
    Reads bytes (fun taken next => taken.length = count ∧ Fair bytes owed next)
      (Artifact.take count (bytes.drop c.position)) (take bytes count) c := by
  have hleft : (bytes.drop c.position).length = bytes.length - c.position := List.length_drop
  by_cases hstop : c.position + count ≤ bytes.length
  · have hlength : ((bytes.drop c.position).take count).length = count := by
      rw [List.length_take]
      omega
    have htake : Artifact.take count (bytes.drop c.position) =
        .ok ((bytes.drop c.position).take count, bytes.drop (c.position + count)) := by
      refine take_eq_ok_iff.mpr ⟨?_, hlength⟩
      rw [← List.drop_drop, List.take_append_drop]
    have hnodes := h.nodes
    have hpaid : 3 * c.nodes ≤ c.position + count + owed := by omega
    exact .ok htake (if_pos hstop) (.single rfl hstop) ⟨hlength, hstop, hpaid⟩
  · have hinside := h.inside
    have hshort : (bytes.drop c.position).length < count := by omega
    have htake : Artifact.take count (bytes.drop c.position) = .error .endOfFile :=
      takeOnto_of_length_lt [] _ hshort
    exact .refused htake (if_neg hstop) (.refl bytes c)

theorem readByte_eq_take (rest : List UInt8) :
    Artifact.readByte rest =
      (Artifact.take 1 rest >>= fun placed => .ok (placed.1.getD 0 0, placed.2)) := by
  match rest with
  | [] => rfl
  | b :: rest =>
      have htake : Artifact.take 1 (b :: rest) = .ok ([b], rest) := take_append [b] rest
      rw [htake]
      rfl

theorem readWord_eq_take (rest : List UInt8) :
    Artifact.readWord rest =
      (Artifact.take 2 rest >>= fun placed =>
        .ok (word (placed.1.getD 0 0) (placed.1.getD 1 0), placed.2)) := by
  match rest with
  | [] => rfl
  | [_] => rfl
  | low :: high :: rest =>
      have htake : Artifact.take 2 (low :: high :: rest) = .ok ([low, high], rest) :=
        take_append [low, high] rest
      rw [htake]
      rfl

theorem follows_readByte {owed : Nat} (h : Fair bytes (owed + 1) c) :
    Reads bytes (fun _ => Fair bytes owed) (Artifact.readByte (bytes.drop c.position))
      (readByte bytes) c := by
  rw [readByte_eq_take]
  refine follows_bind (follows_take h) ?_
  rintro taken next ⟨hlength, hfair⟩
  obtain ⟨b, rfl⟩ := List.length_eq_one_iff.mp hlength
  exact follows_pure hfair

theorem follows_readWord {owed : Nat} (h : Fair bytes (owed + 2) c) :
    Reads bytes (fun _ => Fair bytes owed) (Artifact.readWord (bytes.drop c.position))
      (readWord bytes) c := by
  rw [readWord_eq_take]
  refine follows_bind (follows_take h) ?_
  rintro taken next ⟨hlength, hfair⟩
  obtain ⟨low, high, rfl⟩ := List.length_eq_two.mp hlength
  exact follows_pure hfair

theorem Fair.more {owed : Nat} (h : Fair bytes owed c) (extra : Nat) : Fair bytes (owed + extra) c :=
  ⟨h.inside, Nat.le_trans h.nodes (Nat.add_le_add_left (Nat.le_add_right owed extra) c.position)⟩

theorem follows_readName (named : Bool) {owed : Nat} (h : Fair bytes owed c) :
    Reads bytes (fun _ => Fair bytes owed)
      (Artifact.readName named (bytes.drop c.position)) (readName bytes named) c := by
  unfold Artifact.readName readName
  cases named with
  | false => exact follows_pure h
  | true =>
      simp only [if_true]
      refine follows_bind (follows_readWord (h.more 2)) ?_
      intro length next hnext
      refine follows_bind (follows_take (hnext.more length)) ?_
      rintro text last ⟨-, hlast⟩
      cases htext : Text.Utf8.decode text with
      | ok name => exact follows_pure hlast
      | error fault => exact follows_refuse _

theorem follows_readLeaf (named : Bool) (sizeCount : Nat) (h : Fair bytes 2 c) :
    Reads bytes (fun _ => Fair bytes 0)
      (Artifact.readLeaf named sizeCount (bytes.drop c.position)) (readLeaf bytes named sizeCount)
      c := by
  unfold Artifact.readLeaf readLeaf
  refine follows_bind (follows_readWord h) ?_
  intro index next hnext
  refine follows_ite (fun _ => follows_refuse _) fun _ => ?_
  refine follows_bind (follows_readName named hnext) ?_
  intro name last hlast
  exact follows_pure hlast

/-- A loop over properties follows the loop of the reader, as soon as each property does. -/
theorem follows_readNodesOnto {reader : Reader Node} {read : Step Node}
    (hread : ∀ c, Fair bytes 0 c →
      Reads bytes (fun _ => Fair bytes 0) (reader (bytes.drop c.position)) read c)
    (nodes : List Node) (count : Nat) (h : Fair bytes 0 c) :
    Reads bytes (fun _ => Fair bytes 0)
      (Artifact.readNodesOnto reader nodes count (bytes.drop c.position))
      (readNodesOnto read nodes count) c := by
  induction count generalizing nodes c with
  | zero => exact follows_pure h
  | succ count ih =>
      have hnext (rest : List UInt8) : Artifact.readNodesOnto reader nodes (count + 1) rest =
          (reader rest >>= fun placed =>
            Artifact.readNodesOnto reader (placed.1 :: nodes) count placed.2) := by
        rw [Artifact.readNodesOnto]
        cases reader rest <;> rfl
      rw [hnext]
      exact follows_bind (hread c h) fun node next hfair => ih (node :: nodes) hfair

/-- Properties side by side follow the reader of properties. -/
theorem follows_readForest {named : Bool} {sizeCount room depth : Nat}
    (hnode : ∀ c, Fair bytes 0 c → Reads bytes (fun _ => Fair bytes 0)
      (Artifact.readNode named sizeCount (readBelow named sizeCount room) (bytes.drop c.position))
      (readNode bytes named sizeCount depth) c)
    (count : Nat) (h : Fair bytes 0 c) :
    Reads bytes (fun _ => Fair bytes 0)
      (readForest named sizeCount room count (bytes.drop c.position))
      (readNodesOnto (readNode bytes named sizeCount depth) [] count) c := by
  rw [readForest_eq]
  exact follows_readNodesOnto hnode [] count h

/-- A node is begun in a sound way, and its three bytes are owed from then on. -/
theorem follows_enter {x : Except FormatError δ} {rest : Unit → Step β}
    {depth : Nat} (hdepth : depth ≤ 256) (h : Fair bytes 0 c)
    (hrest : ∀ next, next.position = c.position → Fair bytes 3 next →
      Follows bytes retold ending x (rest ()) next) :
    Follows bytes retold ending x (enter depth >>= rest) c := by
  let next : Cursor :=
    { c with nodes := c.nodes + 1, marks := c.marks ++ [.entered depth c.position c.nodes] }
  have hnodes := h.nodes
  have hmarked : Marked bytes c next := .single rfl ⟨hdepth, h.inside, hnodes⟩
  have howed : 3 * (c.nodes + 1) ≤ c.position + 3 := by omega
  exact follows_step rfl hmarked (hrest next rfl ⟨h.inside, howed⟩)

end

/-- A node follows the reader of a node, with as much room as there are levels left. -/
theorem follows_readNode {bytes : List UInt8} (named : Bool) (sizeCount room : Nat) {depth : Nat}
    (hdepth : depth + room = maxDepth) {c : Cursor} (h : Fair bytes 0 c) :
    Reads bytes (fun _ => Fair bytes 0)
      (Artifact.readNode named sizeCount (readBelow named sizeCount room) (bytes.drop c.position))
      (readNode bytes named sizeCount depth) c := by
  have hlevels : depth ≤ 256 := Nat.le_trans (Nat.le_add_right depth room) (Nat.le_of_eq hdepth)
  rw [readNode]
  refine follows_enter hlevels h fun begun hbegun howed => ?_
  rw [← hbegun, Artifact.readNode]
  refine follows_bind (follows_readByte howed) fun tag behind htag => ?_
  refine follows_ite (fun _ => follows_readLeaf named sizeCount htag) fun _ => ?_
  refine follows_ite (fun _ => ?_) fun _ => follows_refuse _
  rw [Artifact.readInterior]
  refine follows_bind (follows_readWord htag) fun count inner hinner => ?_
  refine follows_ite (fun _ => follows_refuse _) fun _ => ?_
  cases room with
  | zero =>
      have hfull : maxDepth ≤ depth := Nat.le_of_eq hdepth.symm
      rw [dif_pos hfull]
      exact follows_refuse _
  | succ room =>
      have hroom : ¬ maxDepth ≤ depth := by omega
      have hlower : depth + 1 + room = maxDepth := by omega
      rw [dif_neg hroom]
      refine follows_bind (follows_readName named hinner) fun name front hname => ?_
      have hbelow (c : Cursor) (hc : Fair bytes 0 c) :=
        follows_readNode named sizeCount room hlower hc
      refine follows_bind (follows_readForest hbelow count hname) fun children last hlast => ?_
      exact follows_pure hlast

/-- A whole file is read at positions as it is read from the front. -/
theorem follows_decode (bytes : List UInt8) :
    Follows bytes (fun m _ => m) (fun _ _ => True) (Artifact.decode bytes) (decode bytes) {} := by
  have hstart : Fair bytes 0 {} := ⟨Nat.zero_le _, Nat.le_refl _⟩
  have hhead : Reads bytes (fun taken next => taken.length = magic.length ∧ Fair bytes 0 next)
      (Artifact.take magic.length bytes) (take bytes magic.length) {} :=
    follows_take (hstart.more magic.length)
  refine follows_bind hhead fun head next hnext => ?_
  refine follows_ite (fun _ => follows_refuse _) fun _ => ?_
  refine follows_bind (follows_readByte (hnext.2.more 1)) fun found next hnext => ?_
  refine follows_ite (fun _ => follows_refuse _) fun _ => ?_
  refine follows_bind (follows_readByte (hnext.more 1)) fun flags next hnext => ?_
  refine follows_bind (follows_readWord (hnext.more 2)) fun sizeCount next hnext => ?_
  refine follows_bind (follows_take (hnext.more sizeCount)) fun sizes next hnext => ?_
  refine follows_bind (follows_readWord (hnext.2.more 2)) fun propertyCount next hnext => ?_
  have hnode (c : Cursor) (hc : Fair bytes 0 c) :=
    follows_readNode (flags &&& namesFlag ≠ 0) sizes.length maxDepth (Nat.zero_add _) hc
  refine follows_bind (follows_readForest hnode propertyCount hnext) fun properties last hlast => ?_
  -- The bytes behind the position are those that the reader has left.
  have hremaining : (remaining bytes).run last = (.ok (bytes.length - last.position), last) :=
    if_pos hlast.inside
  have hleft : (bytes.drop last.position).length = bytes.length - last.position := List.length_drop
  refine follows_step hremaining (.refl bytes last) ?_
  simp only [List.isEmpty_iff_length_eq_zero, hleft]
  exact follows_ite (fun _ => follows_pure trivial) fun _ => follows_refuse _

end Positional

/-- Reading stays inside the file, whatever counts stand in it.

Read at positions, a file comes to what `decode` says: no look-up among bytes that were taken and no
subtraction is out of range.  Every position on the way is inside the file, and no node is begun
below more than 256 others or before three bytes have been read for each node begun earlier.  A node
that is read, from wherever, has moved the position by three bytes at least for each property in it,
and not beyond the end.  A file that is accepted holds no more properties than a third of its
bytes. -/
theorem decoding_in_bounds (bytes : List UInt8) :
    (∃ last, (Positional.decode bytes).run {} = ((decode bytes).mapError .refused, last) ∧
      ∀ mark ∈ last.marks, mark.Sound bytes.length) ∧
    (∀ named sizeCount depth c node next,
      (Positional.readNode bytes named sizeCount depth).run c = (.ok node, next) →
        c.position + 3 * node.count ≤ next.position ∧
          (c.position ≤ bytes.length → next.position ≤ bytes.length)) ∧
    ∀ m, decode bytes = .ok m → m.properties.count ≤ bytes.length / 3 := by
  have hrun : ∃ last, (Positional.decode bytes).run {} = ((decode bytes).mapError .refused, last) ∧
      ∀ mark ∈ last.marks, mark.Sound bytes.length := by
    cases Positional.follows_decode bytes with
    | refused hx hstep hmarked =>
        rw [hx]
        exact ⟨_, hstep, hmarked.of_start⟩
    | ok hx hstep hmarked =>
        rw [hx]
        exact ⟨_, hstep, hmarked.of_start⟩
  refine ⟨hrun, fun named sizeCount depth => Positional.advances_readNode named sizeCount depth, ?_⟩
  intro m hm
  obtain ⟨last, hlast, -⟩ := hrun
  rw [hm] at hlast
  obtain ⟨hgain, hinside⟩ := Positional.advances_decode {} m last hlast
  have hend : last.position ≤ bytes.length := hinside (Nat.zero_le _)
  have hthird : 0 + 3 * m.properties.count ≤ last.position := hgain
  omega

/-- A file that promises 65535 properties with 65535 children each, and ends within the second. -/
def promisingFile : List UInt8 :=
  magic ++ [1, 0, 0, 0, 255, 255, 1, 255, 255, 1, 255]

/-- The promises are not believed: reading stops at the end of the file.  The file with all bits of
its flags set could hold seven properties and holds two. -/
theorem promisingFile_in_bounds :
    (∃ last, (Positional.decode promisingFile).run {} = (.error (.refused .endOfFile), last) ∧
      ∀ mark ∈ last.marks, mark.Sound promisingFile.length) ∧
    decode flaggedFile = .ok flaggedMapping ∧ flaggedMapping.properties.count = 2 ∧
    flaggedMapping.properties.count ≤ flaggedFile.length / 3 := by
  have hread : decode flaggedFile = .ok flaggedMapping := rfl
  have hends : decode promisingFile = .error .endOfFile := rfl
  have hbounded := (decoding_in_bounds promisingFile).1
  rw [hends] at hbounded
  exact ⟨hbounded, hread, rfl, (decoding_in_bounds flaggedFile).2.2 _ hread⟩

end Artifact
end FieldMap
