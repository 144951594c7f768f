import FieldMap.Loading
import FieldMap.Proofs.RegistryRefusal
import FieldMap.Proofs.StatefulSteps
import FieldMap.Proofs.TrimmedText
import FieldMap.World
import Mathlib.Logic.Relation

/-!
# Registries only grow

Whatever is read into a registry, and whether it is accepted or refused, what the registry knew
before it knows afterwards, and what is new has a name and a size.

* `Grown` says so of the registry before and the one after; it is reflexive and transitive.
* `grown_of_declares` is the one place where something is added: the primitives of some blocks.
  A refused file comes down to it by `parse_eq_error_iff_stopsAt`, because what it leaves is what
  the part in front of the refused line would have led to.
* `Loaded` is one way or another to read into a registry, and any number of them, one after the
  other, is a chain of it.
-/

namespace FieldMap

namespace Registry

/-- A line without blanks around it names the primitive that it opens a block for. -/
theorem ne_empty_of_opensBlock {line : List Char} {name : String}
    (h : OpensBlock (Text.trim line) name) : name ≠ "" := by
  obtain ⟨rest, hline, rfl⟩ := h
  intro hname
  have hblank := Text.isBlank_of_trim_eq_nil (String.ofList_eq_empty_iff.mp hname)
  have hlast : ∀ c ∈ (['p', 'r', 'i', 'm', ' '] ++ rest).getLast?, Text.isBlank c = false := by
    rw [← hline]
    exact Text.isBlank_getLast?_trim
  -- The line would end in the blank behind the keyword, or in one of those behind it.
  cases hrest : rest.getLast? with
  | none =>
      obtain rfl := List.getLast?_eq_none_iff.mp hrest
      exact absurd (hlast ' ' rfl) (by decide)
  | some c =>
      rw [List.getLast?_append, hrest] at hlast
      have hc := hblank c (List.mem_of_getLast? hrest)
      rw [hlast c rfl] at hc
      cases hc

/-! ## Growth -/

/-- The second registry has all entries of the first one, unchanged; every other entry has a name,
under which it is found, and a size. -/
structure Grown (before after : Registry) : Prop where
  kept : ∀ name primitive, before.get? name = some primitive → after.get? name = some primitive
  added : ∀ name primitive, after.get? name = some primitive →
    before.get? name = some primitive ∨
      before.get? name = none ∧ name ≠ "" ∧ primitive.name = name ∧ 1 ≤ primitive.size

theorem Grown.refl (registry : Registry) : Grown registry registry :=
  ⟨fun _ _ h => h, fun _ _ h => .inl h⟩

theorem Grown.trans {before between after : Registry} (h : Grown before between)
    (h' : Grown between after) : Grown before after where
  kept name primitive hget := h'.kept name primitive (h.kept name primitive hget)
  added name primitive hget := by
    rcases h'.added name primitive hget with hbetween | ⟨hnone, hnew⟩
    · exact h.added name primitive hbetween
    · cases hbefore : before.get? name with
      | none => exact .inr ⟨rfl, hnew⟩
      | some old =>
          rw [h.kept name old hbefore] at hnone
          cases hnone

section
variable {registry result : Registry} {declared : List Primitive} {lines : List (List Char)}

/-- Each block has a header, and a size that is not zero. -/
theorem Declares.exists_header (h : Declares lines declared) :
    ∀ primitive ∈ declared,
      (∃ header ∈ lines, OpensBlock header primitive.name) ∧ 1 ≤ primitive.size := by
  induction h with
  | nil => exact nofun
  | block hblock hrest ih =>
      refine List.forall_mem_cons.mpr ⟨?_, ?_⟩
      · obtain ⟨header, sizes, last, rfl, hheader, -, hlast⟩ := hblock
        obtain ⟨rest, digits, -, -, -, hpositive, -⟩ := hlast
        exact ⟨⟨header, List.mem_cons_self, hheader⟩, hpositive⟩
      · intro primitive hmem
        obtain ⟨⟨header, hheader, hopens⟩, hsize⟩ := ih primitive hmem
        exact ⟨⟨header, List.mem_append_right _ hheader, hopens⟩, hsize⟩

theorem get?_eq_none_iff {name : String} :
    registry.get? name = none ↔ registry.contains name = false := by
  rw [← isSome_get?, Option.isSome_eq_false_iff, Option.isNone_iff_eq_none]

/-- The primitives of blocks with new names are what a registry may grow by. -/
theorem grown_of_declares (hdeclares : Declares lines declared) (hfresh : registry.Fresh declared)
    (hlines : ∀ line ∈ lines, ∃ written, line = Text.trim written) :
    Grown registry (registry.extend declared) := by
  obtain ⟨hnodup, hnew⟩ := fresh_iff.mp hfresh
  -- A primitive that is found among the new ones was not there before.
  have hfound {name : String} {primitive : Primitive}
      (h : declared.find? (·.name == name) = some primitive) :
      registry.get? name = none ∧ primitive ∈ declared ∧ primitive.name = name := by
    have hmem := List.mem_of_find?_eq_some h
    have hname := name_eq_of_find? h
    refine ⟨?_, hmem, hname⟩
    rw [← hname, get?_eq_none_iff]
    exact hnew primitive hmem
  constructor
  · intro name primitive hget
    rw [get?_extend hnodup]
    cases hfind : declared.find? (·.name == name) with
    | none => exact hget
    | some other =>
        rw [(hfound hfind).1] at hget
        cases hget
  · intro name primitive hget
    rw [get?_extend hnodup] at hget
    cases hfind : declared.find? (·.name == name) with
    | none =>
        rw [hfind] at hget
        exact .inl hget
    | some found =>
        rw [hfind] at hget
        cases hget
        obtain ⟨hnone, hmem, rfl⟩ := hfound hfind
        obtain ⟨⟨header, hheader, hopens⟩, hsize⟩ := hdeclares.exists_header primitive hmem
        obtain ⟨written, rfl⟩ := hlines header hheader
        exact .inr ⟨hnone, ne_empty_of_opensBlock hopens, rfl, hsize⟩

theorem grown_of_parse {content file : String}
    (h : (parse registry content file).result = .ok result) : Grown registry result := by
  obtain ⟨declared, hdeclares, hfresh, rfl⟩ := exists_declares_of_run h
  rw [map_fst_numberedLines] at hdeclares
  refine grown_of_declares hdeclares hfresh ?_
  intro line hline
  obtain ⟨written, -, rfl⟩ := List.mem_map.mp (List.mem_filter.mp hline).1
  exact ⟨written, rfl⟩

end

/-! ## Loading -/

/-- The registry as it stands after it has been tried to read something into it. -/
def standing : Except Refusal Registry → Registry
  | .ok registry => registry
  | .error refusal => refusal.registry

theorem grown_standing_parse (registry : Registry) (content file : String) :
    Grown registry (standing (parse registry content file).result) := by
  cases h : (parse registry content file).result with
  | ok result => exact grown_of_parse h
  | error refusal =>
      obtain ⟨above, below, line, lines, -, -, -, -, habove, -⟩ := parse_eq_error_iff_stopsAt.mp h
      exact grown_of_parse habove

section
variable {σ : Type} [FileSystem (StateM σ)] [Reporting (StateM σ)]

/-- A file that can be read leaves what its text leaves, and another one leaves everything as it
is. -/
theorem standing_loadRegistryFile (registry : Registry) (file : String) (s : σ) :
    standing ((loadRegistryFile registry file : ExceptT Refusal (StateM σ) Registry).run s).1 =
        registry ∨
      ∃ content, standing
          ((loadRegistryFile registry file : ExceptT Refusal (StateM σ) Registry).run s).1 =
        standing (parse registry content file).result := by
  rcases htext : (readText ⟨file⟩ : ExceptT TextError (StateM σ) String).run s with ⟨e | content, next⟩
  · left
    rw [loadRegistryFile, run_bind_of_error (run_adapt_eq_error_iff.mpr ⟨e, htext, rfl⟩)]
    rfl
  · right
    refine ⟨content, ?_⟩
    rw [loadRegistryFile, run_bind_of_ok (run_adapt_of_ok _ htext), run_perform]

theorem grown_standing_loadRegistryFile (registry : Registry) (file : String) (s : σ) :
    Grown registry (standing
      ((loadRegistryFile registry file : ExceptT Refusal (StateM σ) Registry).run s).1) := by
  rcases standing_loadRegistryFile registry file s with h | ⟨content, h⟩
  · rw [h]
    exact Grown.refl registry
  · rw [h]
    exact grown_standing_parse registry content file

theorem grown_standing_loadRegistryFiles (registry : Registry) (files : List String) (s : σ) :
    Grown registry (standing
      ((loadRegistryFiles registry files : ExceptT Refusal (StateM σ) Registry).run s).1) := by
  induction files generalizing registry s with
  | nil => exact Grown.refl registry
  | cons file files ih =>
      have hfile := grown_standing_loadRegistryFile registry file s
      rcases hrun : (loadRegistryFile registry file : ExceptT Refusal (StateM σ) Registry).run s
        with ⟨refusal | between, next⟩
      · rw [hrun] at hfile
        rw [loadRegistryFiles, run_bind_of_error hrun]
        exact hfile
      · rw [hrun] at hfile
        rw [loadRegistryFiles, run_bind_of_ok hrun]
        exact hfile.trans (ih between next)

end

/-- One attempt to read something into a registry, whether it fails or not, and the registry as it
stands afterwards. -/
inductive Loaded (σ : Type) [FileSystem (StateM σ)] [Reporting (StateM σ)] (registry : Registry) :
    Registry → Prop
  | content (content file : String) :
      Loaded σ registry (standing (parse registry content file).result)
  | file (file : String) (s : σ) :
      Loaded σ registry (standing
        ((loadRegistryFile registry file : ExceptT Refusal (StateM σ) Registry).run s).1)
  | files (files : List String) (s : σ) :
      Loaded σ registry (standing
        ((loadRegistryFiles registry files : ExceptT Refusal (StateM σ) Registry).run s).1)

section
variable {σ : Type} [FileSystem (StateM σ)] [Reporting (StateM σ)] {before after : Registry}

theorem Loaded.grown (h : Loaded σ before after) : Grown before after := by
  cases h with
  | content content file => exact grown_standing_parse before content file
  | file file s => exact grown_standing_loadRegistryFile before file s
  | files files s => exact grown_standing_loadRegistryFiles before files s

/-- What one attempt keeps, any number of them keep. -/
theorem grown_of_loads (h : Relation.ReflTransGen (Loaded σ) before after) :
    Grown before after := by
  induction h with
  | refl => exact Grown.refl before
  | tail _ hlast ih => exact ih.trans hlast.grown

end

theorem get?_builtin : ∀ primitive ∈ builtin.primitives,
    builtin.get? primitive.name = some primitive := by
  decide

/-- A registry only grows, whether what is read into it is accepted or refused.  What is refused
leaves exactly what the part in front of the refused line, or of the header of the refused block,
leads to.  However often something is read into the registry that every run begins with, the
primitives that need no declaration stay what they are. -/
theorem registry_only_grows (σ : Type) [FileSystem (StateM σ)] [Reporting (StateM σ)] :
    (∀ registry content file, Grown registry (standing (parse registry content file).result)) ∧
    (∀ registry content file left e,
      (parse registry content file).result = .error ⟨left, e⟩ ↔
        StopsAt registry content file left e) ∧
    (∀ before after, Relation.ReflTransGen (Loaded σ) before after → Grown before after) ∧
    ∀ after, Relation.ReflTransGen (Loaded σ) builtin after →
      ∀ primitive ∈ builtin.primitives, after.get? primitive.name = some primitive := by
  refine ⟨grown_standing_parse, ?_, fun _ _ => grown_of_loads, ?_⟩
  · exact fun registry content file left e => parse_eq_error_iff_stopsAt
  · intro after hloads primitive hmem
    exact (grown_of_loads hloads).kept _ _ (get?_builtin primitive hmem)

/-- A file whose second block declares a name that is taken. -/
def clashingContent : String :=
  "prim vec2h\n  size 4\nend\n// one byte is not enough\nprim u8\n  size 2\nend\n"

/-- The first block stays, the second one is refused, and a file that is not there changes nothing
after that. -/
theorem clashingContent_grows :
    (parse builtin clashingContent "units").result =
        .error ⟨builtin.add ⟨"vec2h", 4⟩, .duplicateName "u8" "units"⟩ ∧
      StopsAt builtin clashingContent "units" (builtin.add ⟨"vec2h", 4⟩)
        (.duplicateName "u8" "units") ∧
      Relation.ReflTransGen (Loaded World) builtin (builtin.add ⟨"vec2h", 4⟩) ∧
      ∀ primitive ∈ builtin.primitives,
        (builtin.add ⟨"vec2h", 4⟩).get? primitive.name = some primitive := by
  obtain ⟨-, hstops, -, hbuiltin⟩ := registry_only_grows World
  have hclash : (parse builtin clashingContent "units").result =
      .error ⟨builtin.add ⟨"vec2h", 4⟩, .duplicateName "u8" "units"⟩ := by decide +kernel
  have hrefused : Loaded World builtin (builtin.add ⟨"vec2h", 4⟩) := by
    have hloaded := @Loaded.content World _ _ builtin clashingContent "units"
    rwa [hclash] at hloaded
  have habsent : Loaded World (builtin.add ⟨"vec2h", 4⟩) (builtin.add ⟨"vec2h", 4⟩) :=
    .files ["absent"] ({} : World)
  have hloads : Relation.ReflTransGen (Loaded World) builtin (builtin.add ⟨"vec2h", 4⟩) :=
    (Relation.ReflTransGen.single hrefused).tail habsent
  exact ⟨hclash, (hstops _ _ _ _ _).mp hclash, hloads, hbuiltin _ hloads⟩

end Registry
end FieldMap
