import FieldMap.Proofs.NewNames
import FieldMap.Proofs.ReferenceChain

/-!
# Rules that are really broken

A compilation that fails names a member and a rule.  This module shows that the member is one
within reach of the target and that it breaks the rule.  What makes the trail and the level of
an error mean something is the place of the struct being expanded:

* `Scope.Stands` ties a trail and a room to a chain of references from the target: the trail
  holds the names on the chain, all different, and the room is what the chain has left;
* `Scope.Breaks` says of each rule what it is for a member at the end of a chain to break it;
* `Scope.Founded` is an error that points at such a member, or at a table or a list that is full.

`expand_founded` is the statement for a struct at any level, by strong induction on the room:
whatever fails below a member is founded with a longer chain.
-/

namespace FieldMap

/-- A member at the end of a chain of references breaks a rule.

An array opens a level for itself and one for its elements, so it may be refused with one level
left. -/
inductive Scope.Breaks (scope : Scope) (target : Struct) (references : List Reference)
    (member : Member) : Violation → Prop
  | unresolvedType (hregistry : scope.registry.get? member.typeName = none)
      (hstructs : ∀ s ∈ scope.structs, s.name ≠ member.typeName) :
      Breaks scope target references member .unresolvedType
  | sizeOverflow {type : Primitive} (hregistry : scope.registry.get? member.typeName = some type)
      (hbytes : 255 < type.size * member.copies) :
      Breaks scope target references member (.sizeOverflow member.copies type.size)
  | emptyStruct {s : Struct} (hresolve : scope.resolve member.typeName = .struct s)
      (hempty : s.members = []) :
      Breaks scope target references member (.emptyStruct member.typeName)
  | cycle {s : Struct} (hresolve : scope.resolve member.typeName = .struct s)
      (hdistinct : (chainNames target references).Nodup)
      (hagain : member.typeName ∈ chainNames target references) :
      Breaks scope target references member
        (.cycle (chainNames target references).reverse member.typeName)
  | tooDeep {s : Struct} (hresolve : scope.resolve member.typeName = .struct s)
      (hlevels : chainLevels references = 256 ∨
        chainLevels references + 1 = 256 ∧ 2 ≤ member.copies) :
      Breaks scope target references member .tooDeep

/-- An error has its reason within reach of the target: a member that breaks a rule, a member
for which there is no index, or a node with too many children. -/
inductive Scope.Founded (scope : Scope) (target : Struct) : CompileError → Prop
  | broken {references : List Reference} {owner : Struct} {member : Member} {rule : Violation}
      (hchain : Chain scope target references owner) (hmember : member ∈ owner.members)
      (hbreaks : scope.Breaks target references member rule) :
      Founded scope target (Compile.violation owner member rule)
  | indexOverflow {references : List Reference} {owner : Struct} {member : Member}
      (hchain : Chain scope target references owner) (hmember : member ∈ owner.members) :
      Founded scope target (Compile.violation owner member .indexOverflow)
  | tooManyChildren {references : List Reference} {owner : Struct} {count : Nat}
      (hchain : Chain scope target references owner) :
      Founded scope target
        (.invalid ⟨owner.name, "", owner.name, owner.line, .tooManyChildren count⟩)

/-- The trail and the room belong to a struct that a chain leads to. -/
structure Scope.Stands (scope : Scope) (target : Struct) (references : List Reference)
    (owner : Struct) (trail : List String) (room : Nat) : Prop where
  chain : Chain scope target references owner
  trail_eq : trail = (chainNames target references).reverse
  distinct : (chainNames target references).Nodup
  levels : chainLevels references + room = maxDepth

theorem chainNames_snoc (first : Struct) (references : List Reference) (reference : Reference) :
    chainNames first (references ++ [reference]) =
      chainNames first references ++ [reference.target.name] := by
  simp [chainNames]

theorem chainLevels_snoc (references : List Reference) (reference : Reference) :
    chainLevels (references ++ [reference]) = chainLevels references + reference.member.levels := by
  simp [chainLevels]

/-- The names on a chain end with that of the struct it leads to. -/
theorem Chain.getLast?_chainNames {scope : Scope} {first last : Struct}
    {references : List Reference} (hchain : Chain scope first references last) :
    (chainNames first references).getLast? = some last.name := by
  induction hchain with
  | nil s => rfl
  | @cons first next last member references hmember hresolve hrest ih =>
      show (first.name :: chainNames next references).getLast? = some last.name
      rw [List.getLast?_cons, ih]
      rfl

theorem Scope.name_of_resolve {scope : Scope} {name : String} {s : Struct}
    (h : scope.resolve name = .struct s) : s.name = name := by
  unfold resolve at h
  split at h
  · cases h
  · split at h
    · next found hfound =>
        cases h
        exact name_eq_of_find? hfound
    · cases h

theorem Scope.get?_of_resolve {scope : Scope} {name : String} {type : Primitive}
    (h : scope.resolve name = .primitive type) : scope.registry.get? name = some type := by
  unfold resolve at h
  split at h
  · cases h
    assumption
  · split at h <;> cases h

theorem Scope.resolve_eq_unresolved_iff {scope : Scope} {name : String} :
    scope.resolve name = .unresolved ↔
      scope.registry.get? name = none ∧ ∀ s ∈ scope.structs, s.name ≠ name := by
  unfold resolve
  cases hregistry : scope.registry.get? name with
  | some type => simp
  | none =>
      cases hstructs : scope.structs.find? (·.name == name) with
      | some s =>
          have hmem := List.mem_of_find?_eq_some hstructs
          simp only [reduceCtorEq, true_and, false_iff, not_forall, not_not]
          exact ⟨s, hmem, name_eq_of_find? hstructs⟩
      | none =>
          simp only [true_and, true_iff]
          rintro s hs rfl
          exact find?_name_eq_none_iff.mp hstructs (List.mem_map_of_mem hs)

section
variable {scope : Scope} {target owner nested : Struct} {references : List Reference}
  {trail : List String} {room : Nat} {member : Member}

theorem Scope.stands_target (scope : Scope) (target : Struct) :
    scope.Stands target [] target [target.name] maxDepth where
  chain := .nil target
  trail_eq := rfl
  distinct := List.nodup_singleton _
  levels := Nat.zero_add _

/-- A struct that a member refers to stands one or two levels below, unless its name is on the
trail. -/
theorem Scope.Stands.enter (h : scope.Stands target references owner trail room)
    (hmember : member ∈ owner.members) (hresolve : scope.resolve member.typeName = .struct nested)
    (hfree : nested.name ∉ trail) (hlevels : member.levels ≤ room) :
    scope.Stands target (references ++ [⟨member, nested⟩]) nested (nested.name :: trail)
      (room - member.levels) where
  chain := h.chain.snoc hmember hresolve
  trail_eq := by
    rw [chainNames_snoc, List.reverse_append, h.trail_eq]
    rfl
  distinct := by
    have hnew : nested.name ∉ chainNames target references := by
      intro hmem
      rw [h.trail_eq, List.mem_reverse] at hfree
      exact hfree hmem
    rw [chainNames_snoc, List.nodup_append]
    refine ⟨h.distinct, List.nodup_singleton _, ?_⟩
    rintro name hname _ hlast rfl
    rw [List.mem_singleton.mp hlast] at hname
    exact hnew hname
  levels := by
    have hroom := h.levels
    rw [chainLevels_snoc]
    show chainLevels references + member.levels + (room - member.levels) = maxDepth
    omega

end

namespace Compile

/-! ## The step that failed -/

section
variable {context : Context} {target owner nested : Struct} {references : List Reference}
  {trail : List String} {room start : Nat} {member : Member} {e : CompileError}
variable (hstands : context.scope.Stands target references owner trail room)
  (hmember : member ∈ owner.members)
include hstands hmember

theorem founded_of_nextIndex (h : nextIndex owner member start = .error e) :
    context.scope.Founded target e := by
  rw [(nextIndex_eq_error_iff.mp h).2]
  exact .indexOverflow hstands.chain hmember

theorem leaf_founded {type : Primitive}
    (hresolve : context.scope.resolve member.typeName = .primitive type)
    (h : (leaf context owner start member type).result = .error e) :
    context.scope.Founded target e := by
  rcases leaf_eq_error_iff.mp h with ⟨hbytes, rfl⟩ | ⟨-, hindex⟩
  · exact .broken hstands.chain hmember (.sizeOverflow (Scope.get?_of_resolve hresolve) hbytes)
  · exact founded_of_nextIndex hstands hmember hindex

end

/-- What a compilation with so much room reports of a struct is founded. -/
def Reports (context : Context) (target : Struct) (room : Nat) : Prop :=
  ∀ (references : List Reference) (owner : Struct) (trail : List String) (start : Nat)
    (e : CompileError), context.scope.Stands target references owner (owner.name :: trail) room →
      (expand context room trail start owner).result = .error e → context.scope.Founded target e

section
variable {context : Context} {target owner nested : Struct} {references : List Reference}
  {trail : List String} {room start : Nat} {member : Member} {e : CompileError}
variable (hstands : context.scope.Stands target references owner trail room)
  (hmember : member ∈ owner.members)
  (hresolve : context.scope.resolve member.typeName = .struct nested)
  (hfree : nested.name ∉ trail) (hrooms : ∀ below < room, Reports context target below)
include hstands hmember hresolve hfree hrooms

/-- A property over a struct fails for its own level, for its index, or in the struct.  So many
levels of the room are in use by the array it is an element of. -/
theorem interior_founded {used : Nat} (hlevels : member.levels = used + 1)
    (hused : used = 0 ∨ 0 < room ∧ used = 1 ∧ 2 ≤ member.copies) {name : Option String}
    (h : (interior owner trail (below context (room - used)) start member nested name).result =
      .error e) : context.scope.Founded target e := by
  have hroom := hstands.levels
  have hmax : maxDepth = 256 := rfl
  rcases interior_eq_error_iff.mp h with ⟨hfull, rfl⟩ | ⟨hleft, hindex | ⟨-, hexpand⟩⟩
  · refine .broken hstands.chain hmember (.tooDeep hresolve ?_)
    omega
  · exact founded_of_nextIndex hstands hmember hindex
  · have hbelow := hstands.enter hmember hresolve hfree (by omega)
    have hsame : room - member.levels = room - used - 1 := by omega
    rw [hsame] at hbelow
    exact hrooms _ (by omega) _ _ _ _ _ hbelow hexpand

/-- An array fails for its length, for its own level, for its index, or in an element. -/
theorem array_founded (hcopies : member.copies ≠ 1)
    (h : (array context owner trail (below context room) (below context (room - 1)) start member
      nested).result = .error e) : context.scope.Founded target e := by
  rcases array_eq_error_iff.mp h with hcount | ⟨-, ⟨rfl, rfl⟩ | ⟨hpos, hindex | ⟨-, helements⟩⟩⟩
  · rw [(checkChildCount_eq_error_iff.mp hcount).2]
    exact .tooManyChildren hstands.chain
  · exact .broken hstands.chain hmember (.tooDeep hresolve (.inl hstands.levels))
  · exact founded_of_nextIndex hstands hmember hindex
  · obtain ⟨front, position, back, _, hrange, -, helement⟩ :=
      inSequence_eq_error_iff.mp helements
    have hlt : position < member.copies := by
      rw [← List.mem_range, hrange]
      exact List.mem_append_cons_self
    -- An array with an element that is no single struct has two of them at least.
    have hlevels : member.levels = 1 + 1 := if_neg hcopies
    exact interior_founded hstands hmember hresolve hfree hrooms hlevels
      (.inr ⟨hpos, rfl, by omega⟩) helement

omit hfree

theorem structMember_founded
    (h : (structMember context owner trail (below context room) (below context (room - 1)) start
      member nested).result = .error e) : context.scope.Founded target e := by
  have hname := Scope.name_of_resolve hresolve
  rcases structMember_eq_error_iff.mp h with ⟨hcycle, rfl⟩ | ⟨hfree, ⟨hempty, rfl⟩ | ⟨-, h⟩⟩
  · have hagain : member.typeName ∈ chainNames target references := by
      simpa [hstands.trail_eq, hname] using hcycle
    rw [hname, hstands.trail_eq]
    exact .broken hstands.chain hmember (.cycle hresolve hstands.distinct hagain)
  · rw [hname]
    exact .broken hstands.chain hmember (.emptyStruct hresolve hempty)
  split at h
  · next hsingle =>
      have hlevels : member.levels = 0 + 1 := if_pos hsingle
      exact interior_founded hstands hmember hresolve hfree hrooms hlevels (.inl rfl) h
  · next hcopies => exact array_founded hstands hmember hresolve hfree hrooms hcopies h

end

theorem place_founded {context : Context} {target owner : Struct} {references : List Reference}
    {trail : List String} {room start : Nat} {member : Member} {e : CompileError}
    (hstands : context.scope.Stands target references owner trail room)
    (hmember : member ∈ owner.members) (hrooms : ∀ below < room, Reports context target below)
    (h : (place context owner trail (below context room) (below context (room - 1)) start
      member).result = .error e) : context.scope.Founded target e := by
  unfold place at h
  split at h
  · next type hresolve => exact leaf_founded hstands hmember hresolve h
  · next nested hresolve => exact structMember_founded hstands hmember hresolve hrooms h
  · next hresolve =>
      cases h
      obtain ⟨hregistry, hstructs⟩ := Scope.resolve_eq_unresolved_iff.mp hresolve
      exact .broken hstands.chain hmember (.unresolvedType hregistry hstructs)

/-- What a compilation reports of a struct is founded, at any level. -/
theorem expand_founded (context : Context) (target : Struct) (room : Nat) :
    Reports context target room := by
  induction room using Nat.strongRecOn with
  | ind room hrooms =>
      intro references owner trail start e hstands h
      rcases expand_eq_error_iff.mp h with hmembers | ⟨layout, -, hcount⟩
      · obtain ⟨front, member, back, _, howner, -, hplace⟩ := inSequence_eq_error_iff.mp hmembers
        have hmember : member ∈ owner.members := by
          rw [howner]
          exact List.mem_append_cons_self
        exact place_founded hstands hmember hrooms hplace
      · rw [(checkChildCount_eq_error_iff.mp hcount).2]
        exact .tooManyChildren hstands.chain

end Compile

theorem founded_of_compileStruct {scope : Scope} {target : Struct} {named : Bool}
    {e : CompileError} (h : (compileStruct scope target named).result = .error e) :
    scope.Founded target e := by
  rw [compileStruct, Traced.result_bind, bind_eq_error_iff] at h
  rcases h with hexpand | ⟨layout, -, hrest⟩
  · exact Compile.expand_founded ⟨scope, named⟩ target maxDepth [] target [] 0 e
      (scope.stands_target target) hexpand
  · cases hrest

/-- The wording of a cycle lists the names on the way and the name that comes again. -/
theorem Violation.message_cycle (names : List String) (again : String) :
    (cycle names.reverse again).message =
      "cyclic struct definition " ++ " -> ".intercalate (names ++ [again]) := by
  have htrail : (again :: names.reverse).reverse = names ++ [again] := by simp
  have hmessage : (cycle names.reverse again).message =
      "cyclic struct definition " ++ Event.showTrail (again :: names.reverse) := rfl
  rw [hmessage, Event.showTrail, htrail]

/-- A compilation that fails for another reason than an overflow of indices names a member of
the target or of a struct within its reach, as it is declared, and this member breaks the rule
that is reported.  A cycle is told by the names on a chain to the member, which differ, and the
name of the member's type, which is one of them. -/
theorem compileStruct_error_founded {scope : Scope} {target : Struct} {named : Bool}
    {e : CompileError} (h : (compileStruct scope target named).result = .error e) :
    ∃ error, e = .invalid error ∧ (error.violation.code ≠ "E_INDEX_OVERFLOW" →
      ∃ references owner member, Chain scope target references owner ∧ member ∈ owner.members ∧
        error.structName = owner.name ∧ error.member = member.name ∧
        error.typeName = member.typeName ∧ error.line = member.line ∧
        scope.Breaks target references member error.violation ∧
        (error.violation.code = "E_CYCLE" →
          (chainNames target references).getLast? = some error.structName ∧
          error.violation.message = "cyclic struct definition " ++
            " -> ".intercalate (chainNames target references ++ [member.typeName]))) := by
  cases founded_of_compileStruct h with
  | @broken references owner member rule hchain hmember hbreaks =>
      refine ⟨_, rfl, fun _ => ⟨references, owner, member, hchain, hmember, rfl, rfl, rfl, rfl,
        hbreaks, ?_⟩⟩
      intro hcode
      cases hbreaks with
      | cycle _ _ _ => exact ⟨hchain.getLast?_chainNames, Violation.message_cycle _ _⟩
      | _ => exact absurd hcode (by simp [Violation.code])
  | indexOverflow _ _ => exact ⟨_, rfl, fun hcode => absurd rfl hcode⟩
  | tooManyChildren _ => exact ⟨_, rfl, fun hcode => absurd rfl hcode⟩

/-- Two structs that hold each other, the second one in an array. -/
def loopScope : Scope where
  registry := .builtin
  structs :=
    [⟨"Ring", 1, [⟨"size", "u16", none, 2⟩, ⟨"links", "Link", some 3, 3⟩]⟩,
     ⟨"Link", 5, [⟨"weight", "u8", none, 6⟩, ⟨"ring", "Ring", none, 7⟩]⟩]

/-- The first of the two structs. -/
def ringStruct : Struct :=
  ⟨"Ring", 1, [⟨"size", "u16", none, 2⟩, ⟨"links", "Link", some 3, 3⟩]⟩

/-- What is reported of the ring. -/
def ringError : ValidationError :=
  ⟨"Link", "ring", "Ring", 7, .cycle ["Link", "Ring"] "Ring"⟩

/-- The ring is refused for a member that leads back to it. -/
theorem ring_founded :
    (compileStruct loopScope ringStruct true).result = .error (.invalid ringError) ∧
    ringError.violation.code ≠ "E_INDEX_OVERFLOW" ∧
    ∃ references owner member, Chain loopScope ringStruct references owner ∧
      member ∈ owner.members ∧ ringError.structName = owner.name ∧
      ringError.member = member.name ∧ ringError.typeName = member.typeName ∧
      ringError.line = member.line ∧
      loopScope.Breaks ringStruct references member ringError.violation ∧
      (ringError.violation.code = "E_CYCLE" →
        (chainNames ringStruct references).getLast? = some ringError.structName ∧
        ringError.violation.message = "cyclic struct definition " ++
          " -> ".intercalate (chainNames ringStruct references ++ [member.typeName])) := by
  have hfails : (compileStruct loopScope ringStruct true).result = .error (.invalid ringError) := by
    rfl
  have hcode : ringError.violation.code ≠ "E_INDEX_OVERFLOW" := by decide
  obtain ⟨error, herror, hfounded⟩ := compileStruct_error_founded hfails
  cases herror
  exact ⟨hfails, hcode, hfounded hcode⟩

end FieldMap
