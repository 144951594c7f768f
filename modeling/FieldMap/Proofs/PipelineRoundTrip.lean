import FieldMap.Proofs.ArtifactRoundTrip
import FieldMap.Proofs.LeafIntervals
import FieldMap.Proofs.NewNames
import FieldMap.Proofs.ParsedStructs

/-!
# From a schema to a file and back

A schema is parsed, a struct of it compiled, the mapping written, and the file read again.
The last step gives the mapping back as it was, indices and names of all properties
included, for three reasons that come from the earlier ones:

* the properties span the table, so the indices that are not in the file are those the
  reader puts in, and no leaf is refused (`Forest.Spans.normal_eq_self`);
* they are not too deep, so no property is refused at all;
* all of them have names or none has, as the flag of the file says
  (`Unfolding.storedName_of_mem`).

The writer refuses a compiled mapping for one reason only, a name that is too long; tables
and lists of children keep within the limits of the compilation.
-/

namespace FieldMap

theorem storedName_label (named : Bool) (name : String) :
    storedName named (Unfolding.label named name) = Unfolding.label named name := by
  cases named <;> rfl

/-- The names of an unfolding are those that come back from a file. -/
theorem Unfolding.storedName_of_mem (tree : Unfolding) (named : Bool) (start : Nat) {node : Node}
    (hnode : node ∈ tree.forest named start) : storedName named node.name = node.name := by
  induction tree generalizing start with
  | nil => exact absurd hnode (Forest.not_mem_nil node)
  | primitive member type rest ih =>
      rcases Forest.mem_cons.mp hnode with rfl | hbelow | hbeside
      · exact storedName_label named member.name
      · exact absurd hbelow (Forest.not_mem_nil node)
      · exact ih _ hbeside
  | nested member type inner rest ihinner ihrest =>
      rcases Forest.mem_cons.mp hnode with rfl | hbelow | hbeside
      · exact storedName_label named member.name
      · unfold content at hbelow
        split at hbelow
        · exact ihinner _ hbelow
        · -- Below an array stand its elements, and below these the struct again.
          obtain ⟨top, htop, hnode⟩ := Forest.mem_ofNodes.mp hbelow
          obtain ⟨position, _, rfl⟩ := List.mem_map.mp htop
          rcases hnode with rfl | hbelow
          · exact storedName_label named _
          · exact ihinner _ hbelow
      · exact ihrest _ hbeside

/-- Properties that span an interval and have their names are in normal form. -/
theorem Forest.Spans.normal_eq_self {f : Forest} {start stop : Nat} (h : f.Spans start stop)
    {named : Bool} (hnames : ∀ node ∈ f, storedName named node.name = node.name) :
    f.normal named = f := by
  rw [normal_eq_self_iff]
  intro node hnode
  refine ⟨hnames node hnode, fun hne => ?_⟩
  obtain ⟨last, -, hspan⟩ := h.of_mem hnode
  exact (hspan.children_node hne).head?_leaves hne rfl

section
variable {scope : Scope} (hscope : scope.Counted) {target : Struct} (htarget : target.Counted)
  {named : Bool} {m : Mapping} (hm : (compileStruct scope target named).result = .ok m)
include hscope htarget hm

/-- A compiled mapping that can be written comes back from its file. -/
theorem decode_bytes_of_compileStruct (hexcess : Artifact.excess? m named = none) :
    Artifact.decode (Artifact.bytes m named) = .ok m := by
  obtain ⟨hspans, hsizes, hdepth⟩ := spanned_of_compileStruct hscope htarget hm
  obtain ⟨tree, -, -, -, htree⟩ := (compileStruct_eq_ok_iff hscope htarget).mp hm
  have hnames : ∀ node ∈ m.properties, storedName named node.name = node.name := by
    rw [htree]
    intro node hnode
    exact tree.storedName_of_mem named 0 hnode
  have hfault : m.properties.fault? m.sizes.length maxDepth = none :=
    Forest.fault?_eq_none_iff.mpr ⟨fun index hmem => hspans.toNat_lt_of_mem_leaves hmem, hdepth⟩
  rw [Artifact.decode_bytes hexcess, hfault, hspans.normal_eq_self hnames]
  rfl

/-- A compiled mapping is refused for the length of a name, and only where names are
written. -/
theorem exists_name_of_excess? {e : Artifact.Excess} (he : Artifact.excess? m named = some e) :
    named = true ∧ ∃ node ∈ m.properties, ∃ name, node.name = some name ∧
      Artifact.maxWord < name.utf8ByteSize ∧ e = ⟨.debugName, name.utf8ByteSize⟩ := by
  obtain ⟨hspans, hsizes, -⟩ := spanned_of_compileStruct hscope htarget hm
  have hproperties := hspans.add_length_le
  have hmax : Artifact.maxWord = maxCount := rfl
  have htable : m.sizes.length ≤ Artifact.maxWord := by omega
  have hlist : m.properties.length ≤ Artifact.maxWord := by omega
  rw [Artifact.excess?, Artifact.excessOf?_eq_none_iff.mpr htable,
    Artifact.excessOf?_eq_none_iff.mpr hlist] at he
  obtain ⟨node, hnode, hown⟩ := Artifact.exists_mem_of_forestExcess? he
  rcases Artifact.of_ownExcess?_eq_some hown with ⟨hchildren, -⟩ | ⟨hnamed, hlong, rfl⟩
  · -- More children than can be counted would need more entries than the table has.
    exfalso
    obtain ⟨last, hlast, hspan⟩ := hspans.of_mem hnode
    have hne : node.children ≠ .nil := by
      apply Forest.length_pos_iff.mp
      omega
    have hcount := (hspan.children_node hne).add_length_le
    omega
  · refine ⟨hnamed, node, hnode, ?_⟩
    cases hname : node.name with
    | none =>
        -- An absent name is written as the empty one, which is not too long.
        rw [hname] at hlong
        exact absurd hlong (by decide)
    | some name =>
        rw [hname] at hlong
        exact ⟨name, rfl, hlong, rfl⟩

end

/-- What a compilation by name returns is what the struct it finds comes to. -/
theorem exists_compileStruct_of_compile {scope : Scope} {target : String} {named : Bool}
    {m : Mapping} (hm : (compile scope target named).result = .ok m) :
    ∃ s ∈ scope.structs, s.name = target ∧ (compileStruct scope s named).result = .ok m := by
  rw [result_compile] at hm
  split at hm
  · next s hfound =>
      exact ⟨s, List.mem_of_find?_eq_some hfound, name_eq_of_find? hfound, hm⟩
  · cases hm

/-- Whatever the registry, a struct of a parsed schema that compiles to a mapping is written
to a file that is read back to this very mapping, with its names or without, unless names
are written and one of them is longer than a file can say. -/
theorem compiled_mapping_roundtrip {registry : Registry} {source file : String}
    {structs : List Struct} (hparse : (Schema.parse source file).result = .ok structs)
    {target : String} {named : Bool} {m : Mapping}
    (hm : (compile ⟨registry, structs⟩ target named).result = .ok m) :
    (∃ written, Artifact.encode m named = .ok written ∧ Artifact.decode written = .ok m) ∨
      (named = true ∧ ∃ node ∈ m.properties, ∃ name, node.name = some name ∧
        65535 < name.utf8ByteSize ∧
        Artifact.encode m named = .error ⟨.debugName, name.utf8ByteSize⟩) := by
  have hscope : Scope.Counted ⟨registry, structs⟩ := Schema.counted_of_parse hparse
  obtain ⟨s, hs, -, hm⟩ := exists_compileStruct_of_compile hm
  have htarget := hscope s hs
  cases hexcess : Artifact.excess? m named with
  | none =>
      left
      have hencode := Artifact.encode_eq_ok_iff.mpr ⟨hexcess, rfl⟩
      exact ⟨_, hencode, decode_bytes_of_compileStruct hscope htarget hm hexcess⟩
  | some e =>
      right
      have hencode := Artifact.encode_eq_error_iff.mpr hexcess
      obtain ⟨hnamed, node, hnode, name, hname, hlong, rfl⟩ :=
        exists_name_of_excess? hscope htarget hm hexcess
      exact ⟨hnamed, node, hnode, name, hname, hlong, hencode⟩

/-- A schema on two lines. -/
def lineSource : String :=
  "Point :: struct \x7b x : f32, label : u8[3] \x7d\nLine :: struct \x7b ends : Point[2] \x7d"

/-- The structs of the schema. -/
def lineStructs : List Struct :=
  [⟨"Point", 1, [⟨"x", "f32", none, 1⟩, ⟨"label", "u8", some 3, 1⟩]⟩,
   ⟨"Line", 2, [⟨"ends", "Point", some 2, 2⟩]⟩]

/-- What the second struct of the schema comes to, with names. -/
def lineMapping : Mapping where
  sizes := [4, 3, 4, 3]
  properties := .ofNodes
    [⟨0, some "ends", .ofNodes
      [⟨0, some "ends[0]", pointForest 0⟩, ⟨2, some "ends[1]", pointForest 2⟩]⟩]

/-- The two lines go all the way and back. -/
theorem line_roundtrip :
    (Schema.parse lineSource "lines").result = .ok lineStructs ∧
      (compile ⟨.builtin, lineStructs⟩ "Line" true).result = .ok lineMapping ∧
      ∃ written, Artifact.encode lineMapping true = .ok written ∧
        Artifact.decode written = .ok lineMapping := by
  have hparse : (Schema.parse lineSource "lines").result = .ok lineStructs := rfl
  have hm : (compile ⟨.builtin, lineStructs⟩ "Line" true).result = .ok lineMapping := rfl
  have hencode : Artifact.encode lineMapping true = .ok (Artifact.bytes lineMapping true) := rfl
  refine ⟨hparse, hm, ?_⟩
  rcases compiled_mapping_roundtrip hparse hm with hback | ⟨_, _, _, _, _, _, herror⟩
  · exact hback
  · rw [hencode] at herror
    cases herror

end FieldMap
