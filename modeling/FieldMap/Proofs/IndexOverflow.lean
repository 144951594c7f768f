import FieldMap.Proofs.BrokenRules
import FieldMap.Proofs.ParsedStructs

/-!
# Overflows of indices

An overflow is reported for one of two reasons: a node has to be indexed when the size table is
full, or an array of structs has more elements than a node may have children.  This module says
where in the schema the overflow is.

* `Scope.EntriesBefore` counts the entries that are laid out before a node of a member, in the
  struct that the member is of: those of the members before it, and in an array those of the
  elements before it.
* `Scope.StartsAt` adds these counts up along a chain of references, to the number of entries
  before one of the places at which a struct is laid out.
* `Scope.Located` says of an error what it tells of the place.  An error for a node without an index
  names the member of the node; one for the length of an array names only the struct that the array
  is a member of.

`expand_located` is the statement for a struct at any level, by strong induction on the room.  The
members before the one that fails are laid out, so that `laysOut` gives their unfolding.
-/

namespace FieldMap

/-- So many entries stand before a node of the member, in a struct that has these members. -/
inductive Scope.EntriesBefore (scope : Scope) (members : List Member) (member : Member) :
    Nat → Prop
  | node {front back : List Member} {tree : Unfolding}
      (hmembers : members = front ++ member :: back) (hfront : Unfolds scope front tree) :
      EntriesBefore scope members member tree.leafCount
  | element {front back : List Member} {tree inner : Unfolding} {nested : Struct} {position : Nat}
      (hmembers : members = front ++ member :: back) (hfront : Unfolds scope front tree)
      (hresolve : scope.resolve member.typeName = .struct nested)
      (hinner : Unfolds scope nested.members inner) (hposition : position < member.copies) :
      EntriesBefore scope members member (tree.leafCount + position * inner.leafCount)

/-- At one of its places in the mapping of the target, the struct that a chain leads to is laid out
from so many entries on. -/
inductive Scope.StartsAt (scope : Scope) (target : Struct) :
    List Reference → Struct → Nat → Prop
  | target : StartsAt scope target [] target 0
  | enter {references : List Reference} {owner nested : Struct} {member : Member}
      {start entries : Nat} (howner : StartsAt scope target references owner start)
      (hentries : scope.EntriesBefore owner.members member entries)
      (hresolve : scope.resolve member.typeName = .struct nested) :
      StartsAt scope target (references ++ [⟨member, nested⟩]) nested (start + entries)

/-- A node of the member, at the end of the chain, is to be laid out when the table is full. -/
def Scope.Unindexed (scope : Scope) (target : Struct) (references : List Reference)
    (owner : Struct) (member : Member) : Prop :=
  ∃ start entries, scope.StartsAt target references owner start ∧
    scope.EntriesBefore owner.members member entries ∧ start + entries = 65535

/-- An error is no overflow, or it tells the place of one. -/
inductive Scope.Located (scope : Scope) (target : Struct) : CompileError → Prop
  | other {owner : Struct} {member : Member} {rule : Violation}
      (hcode : rule.code ≠ "E_INDEX_OVERFLOW") :
      Located scope target (Compile.violation owner member rule)
  | unindexed {references : List Reference} {owner : Struct} {member : Member}
      (hchain : Chain scope target references owner) (hmember : member ∈ owner.members)
      (hfull : scope.Unindexed target references owner member) :
      Located scope target (Compile.violation owner member .indexOverflow)
  | tooLong {references : List Reference} {owner nested : Struct} {member : Member}
      (hchain : Chain scope target references owner) (hmember : member ∈ owner.members)
      (hresolve : scope.resolve member.typeName = .struct nested)
      (hcopies : maxCount < member.copies) :
      Located scope target
        (.invalid ⟨owner.name, "", owner.name, owner.line, .tooManyChildren member.copies⟩)

section
variable {scope : Scope} {target owner : Struct} {members : List Member} {member : Member}
  {references : List Reference} {start entries : Nat}

theorem Scope.EntriesBefore.mem (h : scope.EntriesBefore members member entries) :
    member ∈ members := by
  cases h with
  | node hmembers _ | element hmembers _ _ _ _ =>
      rw [hmembers]
      exact List.mem_append_cons_self

theorem Chain.mem_structs {last : Struct} (h : Chain scope target references last)
    (htarget : target ∈ scope.structs) : last ∈ scope.structs := by
  induction h with
  | nil => exact htarget
  | cons _ hresolve _ ih => exact ih (Scope.mem_structs_of_resolve hresolve)

theorem Scope.StartsAt.chain (h : scope.StartsAt target references owner start) :
    Chain scope target references owner := by
  induction h with
  | target => exact .nil target
  | enter _ hentries hresolve ih => exact ih.snoc hentries.mem hresolve

end

namespace Compile

/-- What a compilation with so much room reports of a struct is located. -/
def Locates (scope : Scope) (named : Bool) (target : Struct) (room : Nat) : Prop :=
  ∀ (references : List Reference) (owner : Struct) (trail : List String) (start : Nat)
    (e : CompileError), scope.StartsAt target references owner start → owner.Counted →
      start ≤ maxCount → (expand ⟨scope, named⟩ room trail start owner).result = .error e →
        scope.Located target e

/-- The positions before one of an array are the smaller ones. -/
theorem eq_range_of_range_eq_append_cons {count position : Nat} {front back : List Nat}
    (h : List.range count = front ++ position :: back) :
    position < count ∧ front = List.range position := by
  rw [List.range_eq_range'] at h
  obtain ⟨length, -, rfl, -⟩ := List.range'_eq_append_iff.mp h
  have hposition := List.eq_of_range'_eq_append_cons h
  rw [List.length_range', Nat.zero_add, Nat.one_mul] at hposition
  have hmem := List.mem_of_range'_eq_append_cons h
  rw [← List.range_eq_range', List.mem_range] at hmem
  rw [hposition, List.range_eq_range']
  exact ⟨hposition ▸ hmem, rfl⟩

section
variable {scope : Scope} {named : Bool} {target owner nested : Struct}
  {references : List Reference} {trail : List String} {room start entries : Nat}
  {member : Member} {e : CompileError}
variable (howner : scope.StartsAt target references owner start)

section
variable (hentries : scope.EntriesBefore owner.members member entries)
  (hfits : start + entries ≤ maxCount)
include howner hentries hfits

/-- Where there is no index for a node that stands within the table, the table is full. -/
theorem located_of_nextIndex (h : nextIndex owner member (start + entries) = .error e) :
    scope.Located target e := by
  obtain ⟨hfull, rfl⟩ := nextIndex_eq_error_iff.mp h
  have hend : start + entries = 65535 := Nat.le_antisymm hfits hfull
  exact .unindexed howner.chain hentries.mem ⟨start, entries, howner, hentries, hend⟩

theorem leaf_located {type : Primitive}
    (h : (leaf ⟨scope, named⟩ owner (start + entries) member type).result = .error e) :
    scope.Located target e := by
  rcases leaf_eq_error_iff.mp h with ⟨-, rfl⟩ | ⟨-, hindex⟩
  · exact .other (by simp [Violation.code])
  · exact located_of_nextIndex howner hentries hfits hindex

theorem interior_located (hscope : scope.Counted)
    (hresolve : scope.resolve member.typeName = .struct nested)
    (hrooms : ∀ below < room, Locates scope named target below) {name : Option String}
    (h : (interior owner trail (below ⟨scope, named⟩ room) (start + entries) member nested
      name).result = .error e) : scope.Located target e := by
  rcases interior_eq_error_iff.mp h with ⟨-, rfl⟩ | ⟨hpos, hindex | ⟨-, hexpand⟩⟩
  · exact .other (by simp [Violation.code])
  · exact located_of_nextIndex howner hentries hfits hindex
  · exact hrooms (room - 1) (by omega) _ _ _ _ _ (.enter howner hentries hresolve)
      (hscope.of_resolve hresolve) hfits hexpand

end

variable {front back : List Member} {tree : Unfolding}
  (hscope : scope.Counted) (hmembers : owner.members = front ++ member :: back)
  (hfront : Unfolds scope front tree) (hfits : start + tree.leafCount ≤ maxCount)
  (hresolve : scope.resolve member.typeName = .struct nested)
include hscope hmembers hfront hfits hresolve

/-- The elements before a position of an array take the same number of entries each. -/
theorem entriesBefore_element (hne : nested.members ≠ []) {positions later : List Nat}
    {position : Nat} (hrange : List.range member.copies = positions ++ position :: later)
    {layout : Layout}
    (hlayout : inSequence (fun start position => (interior owner trail (below ⟨scope, named⟩ room)
      start member nested (Unfolding.label named (elementName member position))).result)
      (start + tree.leafCount) positions = .ok layout) :
    start + tree.leafCount + layout.sizes.length ≤ maxCount ∧
      scope.EntriesBefore owner.members member (tree.leafCount + layout.sizes.length) := by
  obtain ⟨hposition, rfl⟩ := eq_range_of_range_eq_append_cons hrange
  have hcounted := hscope.of_resolve hresolve
  rcases Nat.eq_zero_or_pos position with rfl | hpos
  · cases hlayout
    exact ⟨hfits, .node hmembers hfront⟩
  · have hrooms (r : Nat) (_ : r < room) : LaysOut scope named r := laysOut hscope named r
    obtain ⟨hroom, inner, hinner, hadmits⟩ :=
      exists_unfolds_of_inSequence_interior hcounted hrooms hfits hpos hlayout
    obtain ⟨hall, rfl⟩ := (inSequence_interior_iff hscope hcounted hne (laysOut hscope named _)
      hroom hinner hadmits hfits position layout).mp hlayout
    rw [length_sizes_elementsLayout]
    exact ⟨hall, .element hmembers hfront hresolve hinner hposition⟩

variable (hrooms : ∀ below < room, Locates scope named target below)
include howner hrooms

theorem array_located (hne : nested.members ≠ [])
    (h : (array ⟨scope, named⟩ owner trail (below ⟨scope, named⟩ room)
      (below ⟨scope, named⟩ (room - 1)) (start + tree.leafCount) member nested).result =
        .error e) : scope.Located target e := by
  have hnode : scope.EntriesBefore owner.members member tree.leafCount := .node hmembers hfront
  rcases array_eq_error_iff.mp h with hcount | ⟨-, ⟨-, rfl⟩ | ⟨-, hindex | ⟨-, helements⟩⟩⟩
  · obtain ⟨hcopies, rfl⟩ := checkChildCount_eq_error_iff.mp hcount
    exact .tooLong howner.chain hnode.mem hresolve hcopies
  · exact .other (by simp [Violation.code])
  · exact located_of_nextIndex howner hnode hfits hindex
  · obtain ⟨positions, position, later, layout, hrange, hlayout, helement⟩ :=
      inSequence_eq_error_iff.mp helements
    obtain ⟨hless, hentries⟩ :=
      entriesBefore_element hscope hmembers hfront hfits hresolve hne hrange hlayout
    rw [Nat.add_assoc] at hless helement
    exact interior_located howner hentries hless hscope hresolve
      (fun r hr => hrooms r (by omega)) helement

theorem structMember_located
    (h : (structMember ⟨scope, named⟩ owner trail (below ⟨scope, named⟩ room)
      (below ⟨scope, named⟩ (room - 1)) (start + tree.leafCount) member nested).result =
        .error e) : scope.Located target e := by
  rcases structMember_eq_error_iff.mp h with ⟨-, rfl⟩ | ⟨-, ⟨-, rfl⟩ | ⟨hne, h⟩⟩
  · exact .other (by simp [Violation.code])
  · exact .other (by simp [Violation.code])
  split at h
  · exact interior_located howner (.node hmembers hfront) hfits hscope hresolve hrooms h
  · exact array_located howner hscope hmembers hfront hfits hresolve hrooms hne h

end

theorem place_located {scope : Scope} {named : Bool} {target owner : Struct}
    {references : List Reference} {trail : List String} {room start : Nat} {member : Member}
    {front back : List Member} {tree : Unfolding} {e : CompileError}
    (howner : scope.StartsAt target references owner start) (hscope : scope.Counted)
    (hmembers : owner.members = front ++ member :: back) (hfront : Unfolds scope front tree)
    (hfits : start + tree.leafCount ≤ maxCount)
    (hrooms : ∀ below < room, Locates scope named target below)
    (h : (place ⟨scope, named⟩ owner trail (below ⟨scope, named⟩ room)
      (below ⟨scope, named⟩ (room - 1)) (start + tree.leafCount) member).result = .error e) :
    scope.Located target e := by
  unfold place at h
  split at h
  · exact leaf_located howner (.node hmembers hfront) hfits h
  · next nested hresolve =>
      exact structMember_located howner hscope hmembers hfront hfits hresolve hrooms h
  · cases h
    exact .other (by simp [Violation.code])

/-- What a compilation reports of a struct is located, at any level. -/
theorem expand_located {scope : Scope} (hscope : scope.Counted) (named : Bool) (target : Struct)
    (room : Nat) : Locates scope named target room := by
  induction room using Nat.strongRecOn with
  | ind room hrooms =>
      intro references owner trail start e howner hcounted hstart h
      have hcopies (m : Member) (hm : m ∈ owner.members) : 0 < m.copies := hcounted.copies_pos hm
      have hplaced (members : List Member) (hsub : members ⊆ owner.members) (layout : Layout) :
          inSequence (fun start member => (place ⟨scope, named⟩ owner (owner.name :: trail)
              (below ⟨scope, named⟩ room) (below ⟨scope, named⟩ (room - 1)) start
              member).result) start members = .ok layout ↔
            IsLayout scope named (owner.name :: trail) room members start layout :=
        inSequence_place_iff hscope (fun r _ => laysOut hscope named r) members
          (fun m hm => hcopies m (hsub hm)) start hstart layout
      rcases expand_eq_error_iff.mp h with hfailed | ⟨layout, hlayout, hcount⟩
      · obtain ⟨front, member, back, layout, hmembers, hlayout, hplace⟩ :=
          inSequence_eq_error_iff.mp hfailed
        have hsub : front ⊆ owner.members := by
          rw [hmembers]
          exact List.subset_append_left _ _
        -- The members before the one that fails are laid out, so that they have an unfolding.
        obtain ⟨tree, hfront, -, hfits, rfl⟩ := (hplaced front hsub layout).mp hlayout
        rw [Unfolding.length_sizes_layout] at hplace
        exact place_located howner hscope hmembers hfront hfits hrooms hplace
      · -- There are never too many members, since those that are laid out have a leaf each.
        have hfound := (hplaced owner.members (List.Subset.refl _) layout).mp hlayout
        have hle := hfound.length_le hscope hcopies
        have hlt := (checkChildCount_eq_error_iff.mp hcount).1
        omega

end Compile

theorem located_of_compileStruct {scope : Scope} (hscope : scope.Counted) {target : Struct}
    (htarget : target.Counted) {named : Bool} {e : CompileError}
    (h : (compileStruct scope target named).result = .error e) : scope.Located target e := by
  rw [compileStruct, Traced.result_bind, bind_eq_error_iff] at h
  rcases h with hexpand | ⟨layout, -, hrest⟩
  · exact Compile.expand_located hscope named target maxDepth [] target [] 0 e .target htarget
      (Nat.zero_le _) hexpand
  · cases hrest

/-- A broken rule is reported of the struct that has the name. -/
theorem exists_compileStruct_of_compile_eq_invalid {scope : Scope} {name : String} {named : Bool}
    {error : ValidationError} (h : (compile scope name named).result = .error (.invalid error)) :
    ∃ target ∈ scope.structs, target.name = name ∧
      (compileStruct scope target named).result = .error (.invalid error) := by
  rw [result_compile] at h
  split at h
  · next target hfound =>
      exact ⟨target, List.mem_of_find?_eq_some hfound, name_eq_of_find? hfound, h⟩
  · cases h

/-- The error tells the member, as it is declared in its struct. -/
structure ValidationError.PointsAt (error : ValidationError) (owner : Struct) (member : Member) :
    Prop where
  structName : error.structName = owner.name
  memberName : error.member = member.name
  typeName : error.typeName = member.typeName
  line : error.line = member.line

/-- The error tells the struct alone, without a member. -/
structure ValidationError.PointsAtStruct (error : ValidationError) (owner : Struct) : Prop where
  structName : error.structName = owner.name
  memberName : error.member = ""
  typeName : error.typeName = owner.name
  line : error.line = owner.line

/-- Where an overflow of indices is, that is reported of a struct of a parsed schema.

Either the error points at a member of the struct or of one within its reach, and a node of this
member comes when all 65535 entries of the table have been laid out for what stands before it.  Or a
member of such a struct is an array of more than 65535 structs.  Then the error tells this number,
but points at the struct that has the member, and at no member. -/
theorem compile_locates_overflow {source file : String} {structs : List Struct}
    (hparse : (Schema.parse source file).result = .ok structs) (registry : Registry)
    (name : String) (named : Bool) {error : ValidationError}
    (h : (compile ⟨registry, structs⟩ name named).result = .error (.invalid error))
    (hcode : error.violation.code = "E_INDEX_OVERFLOW") :
    ∃ target ∈ structs, target.name = name ∧ ∃ references owner member,
      Chain ⟨registry, structs⟩ target references owner ∧ member ∈ owner.members ∧
      (error.violation = .indexOverflow ∧ error.PointsAt owner member ∧
          Scope.Unindexed ⟨registry, structs⟩ target references owner member ∨
        error.violation = .tooManyChildren member.copies ∧ error.PointsAtStruct owner ∧
          65535 < member.copies ∧
          ∃ nested, Scope.resolve ⟨registry, structs⟩ member.typeName = .struct nested) := by
  have hscope : Scope.Counted ⟨registry, structs⟩ := Schema.counted_of_parse hparse
  obtain ⟨target, htarget, hname, hfails⟩ := exists_compileStruct_of_compile_eq_invalid h
  refine ⟨target, htarget, hname, ?_⟩
  cases located_of_compileStruct hscope (hscope target htarget) hfails with
  | other hother => exact absurd hcode hother
  | unindexed hchain hmember hfull =>
      exact ⟨_, _, _, hchain, hmember, .inl ⟨rfl, ⟨rfl, rfl, rfl, rfl⟩, hfull⟩⟩
  | tooLong hchain hmember hresolve hcopies =>
      exact ⟨_, _, _, hchain, hmember, .inr ⟨rfl, ⟨rfl, rfl, rfl, rfl⟩, hcopies, _, hresolve⟩⟩

/-- The struct of a cell. -/
def cellStruct : Struct :=
  ⟨"Cell", 1, [⟨"state", "u8", none, 2⟩]⟩

/-- The struct of a grid of so many cells, and their total. -/
def gridStruct (cells : Nat) : Struct :=
  ⟨"Grid", 4, [⟨"cells", "Cell", some cells, 5⟩, ⟨"total", "u32", none, 6⟩]⟩

/-- A schema of both. -/
def gridScope (cells : Nat) : Scope :=
  ⟨.builtin, [cellStruct, gridStruct cells]⟩

/-- The text of the schema, in lines. -/
def gridSource (cells : Nat) : String :=
  "Cell :: struct \x7b\n state: u8,\n\x7d\n" ++
    "Grid :: struct \x7b\n cells: Cell[" ++ toString cells ++ "],\n total: u32,\n\x7d\n"

/-- What is reported when there are too many cells. -/
def crowdedError : ValidationError :=
  ⟨"Grid", "", "Grid", 4, .tooManyChildren 65536⟩

/-- What is reported when the cells take all the entries. -/
def fullError : ValidationError :=
  ⟨"Grid", "total", "u32", 6, .indexOverflow⟩

theorem parse_crowdedGrid :
    (Schema.parse (gridSource 65536) "grid").result = .ok (gridScope 65536).structs := by
  decide +kernel

theorem parse_fullGrid :
    (Schema.parse (gridSource 65535) "grid").result = .ok (gridScope 65535).structs := by
  decide +kernel

theorem compile_crowdedGrid :
    (compile (gridScope 65536) "Grid" true).result = .error (.invalid crowdedError) := by
  decide +kernel

/-- The cells by themselves can be laid out, so that the total comes when the table is full. -/
theorem compile_fullGrid :
    (compile (gridScope 65535) "Grid" true).result = .error (.invalid fullError) := by
  have hscope : (gridScope 65535).Counted := by decide
  have hfind : (gridScope 65535).structs.find? (·.name == "Grid") = some (gridStruct 65535) := by
    rfl
  have hcells : Unfolds (gridScope 65535) [⟨"cells", "Cell", some 65535, 5⟩]
      (.nested ⟨"cells", "Cell", some 65535, 5⟩ cellStruct
        (.primitive ⟨"state", "u8", none, 2⟩ ⟨"u8", 1⟩ .nil) .nil) :=
    .nested rfl (.primitive rfl .nil) .nil
  have hexpand : (Compile.expand ⟨gridScope 65535, true⟩ maxDepth [] 0
      (gridStruct 65535)).result = .error (.invalid fullError) := by
    refine Compile.expand_eq_error_iff.mpr (.inl (Compile.inSequence_eq_error_iff.mpr
      ⟨_, ⟨"total", "u32", none, 6⟩, [], _, rfl, (Compile.inSequence_place_iff hscope
        (fun r _ => Compile.laysOut hscope true r) _ (by decide) 0 (Nat.zero_le _) _).mpr
          ⟨_, hcells, ?_, by decide, rfl⟩, ?_⟩))
    · exact ⟨by decide, by decide, by decide, ⟨by decide, trivial⟩, trivial⟩
    · rw [Unfolding.length_sizes_layout]
      exact Compile.leaf_eq_error_iff.mpr
        (.inr ⟨by decide, Compile.nextIndex_eq_error_iff.mpr ⟨by decide, rfl⟩⟩)
  rw [result_compile_of_find? hfind, compileStruct, Traced.result_bind, hexpand, error_bind]

/-- A grid that is full is refused for its total, and one that is too long without a member. -/
theorem grids_located :
    ((Schema.parse (gridSource 65535) "grid").result = .ok (gridScope 65535).structs ∧
      (compile (gridScope 65535) "Grid" true).result = .error (.invalid fullError) ∧
      ∃ target ∈ (gridScope 65535).structs, target.name = "Grid" ∧ ∃ references owner member,
        Chain (gridScope 65535) target references owner ∧ member ∈ owner.members ∧
        fullError.PointsAt owner member ∧
        (gridScope 65535).Unindexed target references owner member) ∧
    (Schema.parse (gridSource 65536) "grid").result = .ok (gridScope 65536).structs ∧
      (compile (gridScope 65536) "Grid" true).result = .error (.invalid crowdedError) ∧
      ∃ target ∈ (gridScope 65536).structs, target.name = "Grid" ∧ ∃ references owner member,
        Chain (gridScope 65536) target references owner ∧ member ∈ owner.members ∧
        crowdedError.PointsAtStruct owner ∧ 65535 < member.copies := by
  refine ⟨⟨parse_fullGrid, compile_fullGrid, ?_⟩, parse_crowdedGrid, compile_crowdedGrid, ?_⟩
  · obtain ⟨target, htarget, hname, references, owner, member, hchain, hmember, hplace⟩ :=
      compile_locates_overflow parse_fullGrid .builtin "Grid" true compile_fullGrid rfl
    refine ⟨target, htarget, hname, references, owner, member, hchain, hmember, ?_⟩
    rcases hplace with ⟨-, hpoints, hfull⟩ | ⟨hrule, -⟩
    · exact ⟨hpoints, hfull⟩
    · cases hrule
  · obtain ⟨target, htarget, hname, references, owner, member, hchain, hmember, hplace⟩ :=
      compile_locates_overflow parse_crowdedGrid .builtin "Grid" true compile_crowdedGrid rfl
    refine ⟨target, htarget, hname, references, owner, member, hchain, hmember, ?_⟩
    rcases hplace with ⟨hrule, -⟩ | ⟨-, hpoints, hcopies, -⟩
    · cases hrule
    · exact ⟨hpoints, hcopies⟩

/-- So not every overflow is reported of a member. -/
theorem not_forall_overflow_pointsAt :
    ¬ ∀ (source file : String) (structs : List Struct) (registry : Registry) (name : String)
      (named : Bool) (error : ValidationError),
      (Schema.parse source file).result = .ok structs →
      (compile ⟨registry, structs⟩ name named).result = .error (.invalid error) →
      error.violation.code = "E_INDEX_OVERFLOW" →
        ∃ target ∈ structs, target.name = name ∧ ∃ references owner member,
          Chain ⟨registry, structs⟩ target references owner ∧ member ∈ owner.members ∧
          error.PointsAt owner member ∧
          (Scope.Unindexed ⟨registry, structs⟩ target references owner member ∨
            65535 < member.copies) := by
  intro hall
  obtain ⟨target, htarget, -, _, owner, member, hchain, hmember, hpoints, -⟩ :=
    hall _ _ _ .builtin _ _ _ parse_crowdedGrid compile_crowdedGrid rfl
  have hnames : ∀ s ∈ (gridScope 65536).structs, ∀ m ∈ s.members, "" ≠ m.name := by decide
  exact hnames owner (hchain.mem_structs htarget) member hmember hpoints.memberName

end FieldMap
