import FieldMap.Compile
import FieldMap.Proofs.Outcome

/-!
# What a layout comes to

A layout is computed by loops that keep their entries and properties newest first
and report events on the way.  Neither is part of its outcome.  This module states
the outcome of every step by itself:

* `inSequence` places items one after another, each from the end of the one before
  it, and collects entries and properties in order;
* `result_expand`, `result_interior` and `result_array` give the outcome of a struct,
  of a property over a struct and of an array in terms of it, errors included;
* for every step, a lemma that ends in `eq_ok_iff` says when it succeeds and with what, and one
  that ends in `eq_error_iff` when it fails and how.

Nothing after this module looks at the accumulators of a layout or at its events.
-/

namespace FieldMap

namespace Forest

@[simp] theorem nodes_push (node : Node) (f : Forest) : (push node f).nodes = node :: f.nodes := by
  simp [push]

@[simp] theorem length_nodes (f : Forest) : f.nodes.length = f.length := by
  induction f with
  | nil => rfl
  | cons index name children siblings _ ih => simp [ih]

end Forest

namespace Compile

/-- Items placed one after another, each from the end of the one before it. -/
def inSequence {α : Type} (piece : (start : Nat) → α → Except CompileError (List UInt8 × Node)) :
    (start : Nat) → List α → Except CompileError Layout
  | _, [] => .ok {}
  | start, item :: rest =>
      piece start item >>= fun placed =>
        (inSequence piece (start + placed.1.length) rest).map fun layout =>
          ⟨placed.1 ++ layout.sizes, layout.properties.push placed.2⟩

theorem inSequence_cons_eq_ok_iff {α : Type}
    {piece : Nat → α → Except CompileError (List UInt8 × Node)} {start : Nat} {item : α}
    {rest : List α} {layout : Layout} :
    inSequence piece start (item :: rest) = .ok layout ↔
      ∃ sizes node tail, piece start item = .ok (sizes, node) ∧
        inSequence piece (start + sizes.length) rest = .ok tail ∧
        layout = ⟨sizes ++ tail.sizes, tail.properties.push node⟩ := by
  rw [inSequence, bind_eq_ok_iff]
  constructor
  · rintro ⟨⟨sizes, node⟩, hpiece, hrest⟩
    obtain ⟨tail, htail, hlayout⟩ := map_eq_ok_iff.mp hrest
    exact ⟨sizes, node, tail, hpiece, htail, hlayout.symm⟩
  · rintro ⟨sizes, node, tail, hpiece, htail, hlayout⟩
    exact ⟨(sizes, node), hpiece, map_eq_ok_iff.mpr ⟨tail, htail, hlayout.symm⟩⟩

/-! ## The loops -/

/-- A layout under construction, continued by a finished piece. -/
def Progress.extend (progress : Progress) (layout : Layout) : Progress :=
  ⟨progress.next + layout.sizes.length, layout.sizes.reverse ++ progress.sizes,
    layout.properties.nodes.reverse ++ progress.nodes⟩

theorem extend_push (progress : Progress) (sizes : List UInt8) (node : Node) (layout : Layout) :
    (progress.push sizes node).extend layout =
      progress.extend ⟨sizes ++ layout.sizes, layout.properties.push node⟩ := by
  simp [Progress.extend, Progress.push]
  omega

theorem layout_extend (start : Nat) (layout : Layout) :
    (Progress.extend ⟨start, [], []⟩ layout).layout = layout := by
  have hforest : Forest.ofReversed layout.properties.nodes.reverse = layout.properties :=
    Forest.ofNodes_nodes layout.properties
  simp [Progress.extend, Progress.layout, hforest]

theorem result_grow (progress : Progress)
    (piece : Nat → Traced CompileError (List UInt8 × Node)) :
    (progress.grow piece).result =
      (piece progress.next).result.map fun placed => progress.push placed.1 placed.2 := by
  rw [Progress.grow, Traced.result_bind]
  cases (piece progress.next).result <;> rfl

/-- A loop that grows a layout places its items in sequence behind what is there. -/
theorem result_fold_grow {α : Type} (piece : Nat → α → Traced CompileError (List UInt8 × Node))
    (progress : Progress) (items : List α) :
    (Traced.fold (fun progress item => progress.grow fun start => piece start item)
        progress items).result =
      (inSequence (fun start item => (piece start item).result) progress.next items).map
        progress.extend := by
  induction items generalizing progress with
  | nil => simp [inSequence, Progress.extend, Except.map]
  | cons item rest ih =>
      rw [Traced.fold_cons, Traced.result_bind, result_grow, inSequence]
      -- What has been collected so far only decides where the next piece begins.
      cases (piece progress.next item).result with
      | error e => rfl
      | ok placed =>
          obtain ⟨sizes, node⟩ := placed
          show (Traced.fold _ (progress.push sizes node) rest).result =
            ((inSequence _ (progress.next + sizes.length) rest).map _).map _
          rw [ih]
          show (inSequence _ (progress.next + sizes.length) rest).map _ = _
          cases inSequence (fun start item => (piece start item).result)
              (progress.next + sizes.length) rest with
          | error e => rfl
          | ok layout => exact congrArg Except.ok (extend_push progress sizes node layout)

/-! ## The steps -/

/-- The expander for the level below, if there is room for it. -/
def below (context : Context) : (room : Nat) → Option Expander
  | 0 => none
  | room + 1 => some (expand context room)

theorem expand_eq_expandWith (context : Context) (room : Nat) :
    expand context room =
      expandWith context (below context room) (below context (room - 1)) := by
  match room with
  | 0 => rfl
  | 1 => rfl
  | room + 2 => rfl

/-- The outcome of a struct: its members in sequence, if there are not too many. -/
theorem result_expand (context : Context) (room : Nat) (trail : List String) (start : Nat)
    (owner : Struct) :
    (expand context room trail start owner).result =
      (inSequence (fun start member => (place context owner (owner.name :: trail)
          (below context room) (below context (room - 1)) start member).result)
        start owner.members >>= fun layout =>
          (checkChildCount owner layout.properties.length).map fun _ => layout) := by
  rw [expand_eq_expandWith, expandWith]
  simp only [Traced.result_bind, result_fold_grow, Traced.result_report, Traced.result_ofExcept,
    Traced.result_pure]
  cases inSequence _ start owner.members with
  | error e => rfl
  | ok layout =>
      -- The loop counts the nodes it has collected, and these are those of the layout.
      have hlength : (Progress.extend ⟨start, [], []⟩ layout).nodes.length =
          layout.properties.length := by
        simp [Progress.extend]
      show (checkChildCount owner (Progress.extend ⟨start, [], []⟩ layout).nodes.length >>=
          fun _ => Except.ok (Progress.extend ⟨start, [], []⟩ layout).layout) =
        (checkChildCount owner layout.properties.length).map fun _ => layout
      rw [hlength, layout_extend]
      cases checkChildCount owner layout.properties.length <;> rfl

/-- The outcome of a property over the members of a struct, where there is room. -/
theorem result_interior (context : Context) (owner : Struct) (trail : List String)
    (room start : Nat) (member : Member) (nested : Struct) (name : Option String) :
    (interior owner trail (below context (room + 1)) start member nested name).result =
      (nextIndex owner member start >>= fun index =>
        (expand context room trail start nested).result.map fun layout =>
          (layout.sizes, ⟨index, name, layout.properties⟩)) := by
  simp only [interior, below, Traced.result_bind, Traced.result_ofExcept]
  cases nextIndex owner member start with
  | error e => rfl
  | ok index =>
      show ((expand context room trail start nested).result >>= _) =
        (expand context room trail start nested).result.map _
      cases (expand context room trail start nested).result <;> rfl

/-- The outcome of an array, where there is room for its own level: its elements in
sequence, if there are not too many. -/
theorem result_array (context : Context) (owner : Struct) (trail : List String)
    (room start : Nat) (member : Member) (nested : Struct) :
    (array context owner trail (below context (room + 1)) (below context room) start member
        nested).result =
      (checkChildCount owner member.copies >>= fun _ =>
        nextIndex owner member start >>= fun index =>
          (inSequence (fun start position => (interior owner trail (below context room) start
            member nested (context.name (elementName member position))).result) start
            (List.range member.copies)).map fun layout =>
              (layout.sizes, ⟨index, context.name member.name, layout.properties⟩)) := by
  simp only [array, below, Traced.result_bind, Traced.result_ofExcept, Option.isNone_some,
    Bool.false_eq_true, if_false, result_fold_grow, Traced.result_pure]
  -- The three steps in the order of the checks: the count, the index, the elements.
  cases checkChildCount owner member.copies with
  | error e => rfl
  | ok count =>
      show (nextIndex owner member start >>= _) = (nextIndex owner member start >>= _)
      cases nextIndex owner member start with
      | error e => rfl
      | ok index =>
          show ((inSequence _ start (List.range member.copies)).map _ >>= _) =
            (inSequence _ start (List.range member.copies)).map _
          cases inSequence _ start (List.range member.copies) with
          | error e => rfl
          | ok layout =>
              show Except.ok ((Progress.extend ⟨start, [], []⟩ layout).layout.sizes, _) = _
              rw [layout_extend]
              rfl

/-! ## When the steps succeed -/

theorem nextIndex_eq_ok_iff {owner : Struct} {member : Member} {start : Nat} {index : UInt16} :
    nextIndex owner member start = .ok index ↔ start < maxCount ∧ index = UInt16.ofNat start := by
  unfold nextIndex
  by_cases hstart : start < maxCount
  · simp [hstart, eq_comm]
  · simp [hstart]

theorem checkChildCount_eq_ok_iff {owner : Struct} {count : Nat} {u : Unit} :
    checkChildCount owner count = .ok u ↔ count ≤ maxCount := by
  unfold checkChildCount
  by_cases hcount : count ≤ maxCount
  · simp [hcount]
  · simp [hcount]

/-- A struct is laid out when its members are, and there are not too many of them. -/
theorem expand_eq_ok_iff {context : Context} {room : Nat} {trail : List String} {start : Nat}
    {owner : Struct} {layout : Layout} :
    (expand context room trail start owner).result = .ok layout ↔
      inSequence (fun start member => (place context owner (owner.name :: trail)
          (below context room) (below context (room - 1)) start member).result)
        start owner.members = .ok layout ∧ layout.properties.length ≤ maxCount := by
  rw [result_expand, bind_eq_ok_iff]
  constructor
  · rintro ⟨found, hfound, hcount⟩
    obtain ⟨u, hu, rfl⟩ := map_eq_ok_iff.mp hcount
    exact ⟨hfound, checkChildCount_eq_ok_iff.mp hu⟩
  · rintro ⟨hfound, hcount⟩
    exact ⟨layout, hfound,
      map_eq_ok_iff.mpr ⟨(), checkChildCount_eq_ok_iff.mpr hcount, rfl⟩⟩

theorem leaf_eq_ok_iff {context : Context} {owner : Struct} {start : Nat} {member : Member}
    {type : Primitive} {placed : List UInt8 × Node} :
    (leaf context owner start member type).result = .ok placed ↔
      type.size * member.copies ≤ 255 ∧ start < maxCount ∧
        placed = ([UInt8.ofNat (type.size * member.copies)],
          ⟨UInt16.ofNat start, context.name member.name, .nil⟩) := by
  unfold leaf Primitive.bytes
  by_cases hbytes : 255 < type.size * member.copies
  · simp only [hbytes, if_true, Traced.result_fail]
    constructor
    · intro h
      cases h
    · rintro ⟨hle, _⟩
      omega
  · simp only [hbytes, if_false, Traced.result_bind, Traced.result_ofExcept,
      Traced.result_report, Traced.result_pure]
    rw [bind_eq_ok_iff]
    constructor
    · rintro ⟨index, hindex, hplaced⟩
      obtain ⟨hstart, rfl⟩ := nextIndex_eq_ok_iff.mp hindex
      exact ⟨by omega, hstart, (Except.ok.inj hplaced).symm⟩
    · rintro ⟨_, hstart, rfl⟩
      exact ⟨_, nextIndex_eq_ok_iff.mpr ⟨hstart, rfl⟩, rfl⟩

/-- A property over a struct is laid out when there is room for its level, an index for it,
and the struct is laid out below it. -/
theorem interior_eq_ok_iff {context : Context} {owner : Struct} {trail : List String}
    {room start : Nat} {member : Member} {nested : Struct} {name : Option String}
    {placed : List UInt8 × Node} :
    (interior owner trail (below context room) start member nested name).result = .ok placed ↔
      0 < room ∧ start < maxCount ∧
        ∃ layout, (expand context (room - 1) trail start nested).result = .ok layout ∧
          placed = (layout.sizes, ⟨UInt16.ofNat start, name, layout.properties⟩) := by
  cases room with
  | zero => simp [interior, below]
  | succ room =>
      rw [result_interior, bind_eq_ok_iff]
      constructor
      · rintro ⟨index, hindex, hplaced⟩
        obtain ⟨hstart, rfl⟩ := nextIndex_eq_ok_iff.mp hindex
        obtain ⟨layout, hlayout, rfl⟩ := map_eq_ok_iff.mp hplaced
        exact ⟨Nat.succ_pos room, hstart, layout, hlayout, rfl⟩
      · rintro ⟨_, hstart, layout, hlayout, rfl⟩
        exact ⟨_, nextIndex_eq_ok_iff.mpr ⟨hstart, rfl⟩, map_eq_ok_iff.mpr ⟨layout, hlayout, rfl⟩⟩

/-- An array is laid out when its elements can be counted, there is room for its level and
an index for it, and the elements are laid out below it. -/
theorem array_eq_ok_iff {context : Context} {owner : Struct} {trail : List String}
    {room start : Nat} {member : Member} {nested : Struct} {placed : List UInt8 × Node} :
    (array context owner trail (below context room) (below context (room - 1)) start member
        nested).result = .ok placed ↔
      member.copies ≤ maxCount ∧ 0 < room ∧ start < maxCount ∧
        ∃ layout, inSequence (fun start position => (interior owner trail
            (below context (room - 1)) start member nested
            (context.name (elementName member position))).result) start
            (List.range member.copies) = .ok layout ∧
          placed = (layout.sizes,
            ⟨UInt16.ofNat start, context.name member.name, layout.properties⟩) := by
  cases room with
  | zero =>
      simp only [array, below, Option.isNone_none, if_true, Traced.result_bind,
        Traced.result_fail, bind_eq_ok_iff]
      simp
  | succ room =>
      rw [Nat.add_sub_cancel, result_array, bind_eq_ok_iff]
      constructor
      · rintro ⟨u, hcount, h⟩
        obtain ⟨index, hindex, hplaced⟩ := bind_eq_ok_iff.mp h
        obtain ⟨hstart, rfl⟩ := nextIndex_eq_ok_iff.mp hindex
        obtain ⟨layout, hlayout, rfl⟩ := map_eq_ok_iff.mp hplaced
        exact ⟨checkChildCount_eq_ok_iff.mp hcount, Nat.succ_pos room, hstart, layout, hlayout, rfl⟩
      · rintro ⟨hcount, _, hstart, layout, hlayout, rfl⟩
        refine ⟨(), checkChildCount_eq_ok_iff.mpr hcount, bind_eq_ok_iff.mpr ?_⟩
        exact ⟨_, nextIndex_eq_ok_iff.mpr ⟨hstart, rfl⟩, map_eq_ok_iff.mpr ⟨layout, hlayout, rfl⟩⟩

/-- A member of struct type is laid out when its struct is neither being expanded already
nor empty, as a property over the struct or as an array. -/
theorem structMember_eq_ok_iff {context : Context} {owner : Struct} {trail : List String}
    {oneBelow twoBelow : Option Expander} {start : Nat} {member : Member} {nested : Struct}
    {placed : List UInt8 × Node} :
    (structMember context owner trail oneBelow twoBelow start member nested).result =
        .ok placed ↔
      nested.name ∉ trail ∧ nested.members ≠ [] ∧
        (if member.copies = 1 then
          interior owner trail oneBelow start member nested (context.name member.name)
        else array context owner trail oneBelow twoBelow start member nested).result =
          .ok placed := by
  unfold structMember
  by_cases hcycle : nested.name ∈ trail
  · simp [hcycle]
  by_cases hempty : nested.members = []
  · simp [hempty, hcycle]
  · simp [hempty, hcycle]

/-! ## When the steps fail -/

/-- Items in sequence fail at the first of them that cannot be placed. -/
theorem inSequence_eq_error_iff {α : Type}
    {piece : Nat → α → Except CompileError (List UInt8 × Node)} {start : Nat} {items : List α}
    {e : CompileError} :
    inSequence piece start items = .error e ↔
      ∃ front item back layout, items = front ++ item :: back ∧
        inSequence piece start front = .ok layout ∧
        piece (start + layout.sizes.length) item = .error e := by
  induction items generalizing start with
  | nil => simp [inSequence]
  | cons item items ih =>
      rw [inSequence, bind_eq_error_iff]
      constructor
      · rintro (hitem | ⟨⟨sizes, node⟩, hitem, hrest⟩)
        · exact ⟨[], item, items, {}, rfl, rfl, hitem⟩
        · obtain ⟨front, other, back, layout, rfl, hfront, hother⟩ :=
            ih.mp (map_eq_error_iff.mp hrest)
          refine ⟨item :: front, other, back, ⟨sizes ++ layout.sizes, layout.properties.push node⟩,
            rfl, inSequence_cons_eq_ok_iff.mpr ⟨sizes, node, layout, hitem, hfront, rfl⟩, ?_⟩
          rwa [List.length_append, ← Nat.add_assoc]
      · rintro ⟨front, other, back, layout, hitems, hfront, hother⟩
        rcases List.cons_eq_append_iff.mp hitems with ⟨rfl, hcons⟩ | ⟨rest, rfl, rfl⟩
        · obtain ⟨rfl, rfl⟩ := List.cons.inj hcons
          cases hfront
          exact .inl hother
        · obtain ⟨sizes, node, tail, hitem, htail, rfl⟩ := inSequence_cons_eq_ok_iff.mp hfront
          refine .inr ⟨(sizes, node), hitem, map_eq_error_iff.mpr (ih.mpr ?_)⟩
          rw [List.length_append, ← Nat.add_assoc] at hother
          exact ⟨rest, other, back, tail, rfl, htail, hother⟩

theorem nextIndex_eq_error_iff {owner : Struct} {member : Member} {start : Nat}
    {e : CompileError} :
    nextIndex owner member start = .error e ↔
      maxCount ≤ start ∧ e = violation owner member .indexOverflow := by
  unfold nextIndex
  by_cases hstart : start < maxCount
  · simp [hstart, Nat.not_le.mpr hstart]
  · rw [if_neg hstart, Except.error.injEq, and_iff_right (Nat.not_lt.mp hstart), eq_comm]

theorem checkChildCount_eq_error_iff {owner : Struct} {count : Nat} {e : CompileError} :
    checkChildCount owner count = .error e ↔
      maxCount < count ∧
        e = .invalid ⟨owner.name, "", owner.name, owner.line, .tooManyChildren count⟩ := by
  unfold checkChildCount
  by_cases hcount : count ≤ maxCount
  · simp [hcount, Nat.not_lt.mpr hcount]
  · rw [if_neg hcount, Except.error.injEq, and_iff_right (Nat.not_le.mp hcount), eq_comm]

/-- A struct fails for one of its members, or for their number. -/
theorem expand_eq_error_iff {context : Context} {room : Nat} {trail : List String} {start : Nat}
    {owner : Struct} {e : CompileError} :
    (expand context room trail start owner).result = .error e ↔
      inSequence (fun start member => (place context owner (owner.name :: trail)
          (below context room) (below context (room - 1)) start member).result)
        start owner.members = .error e ∨
      ∃ layout, inSequence (fun start member => (place context owner (owner.name :: trail)
          (below context room) (below context (room - 1)) start member).result)
        start owner.members = .ok layout ∧
        checkChildCount owner layout.properties.length = .error e := by
  rw [result_expand, bind_eq_error_iff]
  simp only [map_eq_error_iff]

/-- A member of primitive type fails for its bytes or for its index. -/
theorem leaf_eq_error_iff {context : Context} {owner : Struct} {start : Nat} {member : Member}
    {type : Primitive} {e : CompileError} :
    (leaf context owner start member type).result = .error e ↔
      255 < type.size * member.copies ∧
          e = violation owner member (.sizeOverflow member.copies type.size) ∨
        type.size * member.copies ≤ 255 ∧ nextIndex owner member start = .error e := by
  unfold leaf Primitive.bytes
  by_cases hbytes : 255 < type.size * member.copies
  · simp [hbytes, Nat.not_le.mpr hbytes, @eq_comm _ e]
  · simp only [hbytes, if_false, Traced.result_bind, Traced.result_ofExcept,
      Traced.result_report, Traced.result_pure, bind_eq_error_iff]
    simp [Nat.not_lt.mp hbytes]

/-- A property over a struct fails for its level, for its index, or in the struct. -/
theorem interior_eq_error_iff {context : Context} {owner : Struct} {trail : List String}
    {room start : Nat} {member : Member} {nested : Struct} {name : Option String}
    {e : CompileError} :
    (interior owner trail (below context room) start member nested name).result = .error e ↔
      room = 0 ∧ e = violation owner member .tooDeep ∨
        0 < room ∧ (nextIndex owner member start = .error e ∨
          start < maxCount ∧ (expand context (room - 1) trail start nested).result = .error e) := by
  cases room with
  | zero => simp [interior, below, @eq_comm _ e]
  | succ room => simp [result_interior, bind_eq_error_iff, map_eq_error_iff, nextIndex_eq_ok_iff]

/-- An array fails for its length, for its own level, for its index, or in an element. -/
theorem array_eq_error_iff {context : Context} {owner : Struct} {trail : List String}
    {room start : Nat} {member : Member} {nested : Struct} {e : CompileError} :
    (array context owner trail (below context room) (below context (room - 1)) start member
        nested).result = .error e ↔
      checkChildCount owner member.copies = .error e ∨
        member.copies ≤ maxCount ∧
          (room = 0 ∧ e = violation owner member .tooDeep ∨
            0 < room ∧ (nextIndex owner member start = .error e ∨
              start < maxCount ∧ inSequence (fun start position => (interior owner trail
                (below context (room - 1)) start member nested
                (context.name (elementName member position))).result) start
                (List.range member.copies) = .error e)) := by
  cases room with
  | zero =>
      simp only [array, below, Option.isNone_none, if_true, Traced.result_bind,
        Traced.result_ofExcept, Traced.result_fail, bind_eq_error_iff, checkChildCount_eq_ok_iff]
      simp [@eq_comm _ e]
  | succ room =>
      rw [Nat.add_sub_cancel, result_array]
      simp [bind_eq_error_iff, map_eq_error_iff, nextIndex_eq_ok_iff, checkChildCount_eq_ok_iff]

/-- A member of struct type fails for a cycle, for an empty struct, as a property over the struct
or as an array. -/
theorem structMember_eq_error_iff {context : Context} {owner : Struct} {trail : List String}
    {oneBelow twoBelow : Option Expander} {start : Nat} {member : Member} {nested : Struct}
    {e : CompileError} :
    (structMember context owner trail oneBelow twoBelow start member nested).result = .error e ↔
      nested.name ∈ trail ∧ e = violation owner member (.cycle trail nested.name) ∨
        nested.name ∉ trail ∧
          (nested.members = [] ∧ e = violation owner member (.emptyStruct nested.name) ∨
            nested.members ≠ [] ∧
              (if member.copies = 1 then
                interior owner trail oneBelow start member nested (context.name member.name)
              else array context owner trail oneBelow twoBelow start member nested).result =
                .error e) := by
  unfold structMember
  by_cases hcycle : nested.name ∈ trail
  · simp [hcycle, @eq_comm _ e]
  by_cases hempty : nested.members = []
  · simp [hempty, hcycle, @eq_comm _ e]
  · simp [hempty, hcycle]

end Compile
end FieldMap
