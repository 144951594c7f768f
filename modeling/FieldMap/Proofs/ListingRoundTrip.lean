import FieldMap.Proofs.ListedLines
import FieldMap.Proofs.ListedRun
import FieldMap.Proofs.ScannedDeclarations

/-!
# A listing is read back

Whatever a schema text declares, the listing of its structs declares them again, on the
lines of the listing.

* `declarations_listing` reads the declarations off the lines of a listing.  The body of a
  struct is the lines of its members, as the closing brace is no field, and none of these
  lines is taken for a header;
* `declarable_of_parse` is what the listing relies on: the names that a schema text declares
  are words, and its counts are numbers from 1 to 4294967295.

Two structs of one name, or two members of one name, are no more in the listing than in the
text it comes from.
-/

namespace FieldMap

/-- The struct with its header on a line, and its members on the lines below. -/
def Struct.placedAt (s : Struct) (line : Nat) : Struct :=
  ⟨s.name, line,
    (s.members.zipIdx (line + 1)).map fun (member, number) => { member with line := number }⟩

namespace Schema

open Text (IsName)

/-! ## The declarations of a listing -/

/-- Lines that are no headers declare nothing. -/
theorem declarations_append_of_header? {texts : List (List Char)}
    (htexts : ∀ text ∈ texts, header? text = none) (more : List (List Char)) (line : Nat) :
    declarations ((texts ++ more).zipIdx line) =
      declarations (more.zipIdx (line + texts.length)) := by
  induction texts generalizing line with
  | nil => rfl
  | cons text texts ih =>
      obtain ⟨htext, hrest⟩ := List.forall_mem_cons.mp htexts
      rw [List.cons_append, List.zipIdx_cons, declarations_cons, declaration?, htext,
        Option.map_none, Option.toList_none, List.nil_append, ih hrest, List.length_cons,
        Nat.add_assoc, Nat.add_comm 1]

/-- The fields that are declared by the lines of members. -/
def memberSites (members : List Member) (line : Nat) : List FieldSite :=
  (members.zipIdx line).map fun (member, number) =>
    ⟨memberField member, number, fieldText member⟩

/-- The lines of members are fields, up to the closing brace. -/
theorem fieldsBelow_members {members : List Member}
    (hmembers : ∀ member ∈ members, member.Declarable) (more : List (List Char)) (line : Nat) :
    fieldsBelow ((members.map fieldText ++ ['\x7d'] :: more).zipIdx line) =
      memberSites members line := by
  induction members generalizing line with
  | nil => rfl
  | cons member members ih =>
      obtain ⟨hmember, hrest⟩ := List.forall_mem_cons.mp hmembers
      rw [List.map_cons, List.cons_append, List.zipIdx_cons,
        fieldsBelow_cons_of_eq_some _ _ (bodyField?_fieldText hmember), ih hrest]
      rfl

/-- What the lines of a struct in a listing declare. -/
def listedDeclaration (s : Struct) (line : Nat) : Declaration :=
  ⟨s.name, line, headerText s, memberSites s.members (line + 1)⟩

theorem declaration?_structLines {s : Struct} (hs : s.Declarable) (more : List (List Char))
    (line : Nat) :
    declaration? ((structLines [] s ++ more).zipIdx line) = some (listedDeclaration s line) := by
  have hopen : GoesOn [] := by decide
  have hbelow := fieldsBelow_members hs.members ([] :: more) (line + 1)
  have hlines : structLines [] s ++ more =
      headerText s :: (s.members.map fieldText ++ ['\x7d'] :: [] :: more) := by
    simp [structLines]
  simp only [hlines, List.zipIdx_cons, declaration?, header?_headerText hs, Option.map_some,
    if_pos hopen, hbelow]
  rfl

/-- The lines of a struct in a listing declare this struct, and no other. -/
theorem declarations_structLines {s : Struct} (hs : s.Declarable) (more : List (List Char))
    (line : Nat) :
    declarations ((structLines [] s ++ more).zipIdx line) =
      listedDeclaration s line :: declarations (more.zipIdx (line + (s.members.length + 3))) := by
  have hfirst := declaration?_structLines hs more line
  have htail := declarations_append_of_header? (header?_eq_none_of_mem_tail hs) more (line + 1)
  have hlength : line + 1 + (structLines [] s).tail.length = line + (s.members.length + 3) := by
    simp [structLines]
    omega
  rw [structLines, List.cons_append, List.zipIdx_cons] at hfirst ⊢
  rw [declarations_cons, hfirst, ← hlength, ← htail]
  rfl

/-- A listing declares its structs, each as many lines below the one before it as that has
members, and three more. -/
theorem declarations_listing {structs : List Struct} (hstructs : ∀ s ∈ structs, s.Declarable)
    (line : Nat) :
    declarations ((structs.flatMap (structLines [])).zipIdx line) =
      structs.mapIdx fun k s => listedDeclaration s
        (line + ((structs.take k).map fun earlier => earlier.members.length + 3).sum) := by
  induction structs generalizing line with
  | nil => rfl
  | cons s structs ih =>
      obtain ⟨hs, hrest⟩ := List.forall_mem_cons.mp hstructs
      rw [List.flatMap_cons, declarations_structLines hs, ih hrest, List.mapIdx_cons]
      simp only [List.take_succ_cons, List.map_cons, List.sum_cons, Nat.add_assoc]
      rfl

theorem toStruct_listedDeclaration (s : Struct) (line : Nat) :
    (listedDeclaration s line).toStruct = s.placedAt line := by
  have hmember (member : Member) (number : Nat) :
      FieldSite.member ⟨memberField member, number, fieldText member⟩ =
        { member with line := number } := by
    cases hcount : member.count <;>
      simp [FieldSite.member, memberField, hcount, Text.asciiNumber?_toDigits]
  rw [Declaration.toStruct, listedDeclaration, memberSites, List.map_map, Struct.placedAt]
  congr 1
  exact List.map_congr_left fun entry _ => hmember entry.1 entry.2

/-! ## What a text declares -/

/-- The names in a field are words. -/
theorem FieldForm.isName {text rest : List Char} {field : Field} (h : FieldForm text field rest) :
    IsName field.name.toList ∧ IsName field.typeName.toList := by
  obtain ⟨word, gap₁, gap₂, typeWord, hword, hname, htypeWord, htypeName, -⟩ := h
  rw [hname, htypeName, String.toList_ofList, String.toList_ofList]
  exact ⟨hword, htypeWord⟩

/-- The names in a declaration are words. -/
theorem isName_of_mem_declarations {lines : List (List Char × Nat)} {d : Declaration}
    (h : d ∈ declarations lines) : IsName d.name.toList ∧
      ∀ site ∈ d.fields, IsName site.field.name.toList ∧ IsName site.field.typeName.toList := by
  constructor
  · obtain ⟨lines, -, hd⟩ := List.mem_filterMap.mp h
    cases lines with
    | nil => cases hd
    | cons line below =>
        obtain ⟨⟨name, rest⟩, hheader, rfl⟩ := Option.map_eq_some_iff.mp hd
        obtain ⟨word, _, _, _, hword, hname, -⟩ := header?_eq_some_iff.mp hheader
        show IsName name.toList
        rw [hname, String.toList_ofList]
        exact hword
  · intro site hsite
    obtain ⟨text, rest, hform⟩ := exists_fieldForm_of_mem_declarations h site hsite
    exact hform.isName

/-- A count that is read is one that can be declared. -/
theorem Field.Countable.bounds {field : Field} (h : field.Countable) {count : Nat}
    (hcount : count ∈ field.digits.bind Text.asciiNumber?) : 1 ≤ count ∧ count ≤ 4294967295 := by
  obtain ⟨digits, hdigits, hread⟩ := Option.bind_eq_some_iff.mp hcount
  obtain ⟨n, hn, hone, hmax⟩ := h digits hdigits
  rw [Text.asciiNumber?_eq_some_iff.mpr hn] at hread
  cases hread
  exact ⟨hone, hmax⟩

/-- Faultless declarations give structs that can be declared again. -/
theorem Declaration.Faultless.declarable {lines : List (List Char × Nat)} {d : Declaration}
    (h : d.Faultless) (hd : d ∈ declarations lines) : d.toStruct.Declarable := by
  obtain ⟨hname, hfields⟩ := isName_of_mem_declarations hd
  refine ⟨hname, ?_, ?_⟩
  · intro member hmember
    obtain ⟨site, hsite, rfl⟩ := List.mem_map.mp hmember
    obtain ⟨hfield, htype⟩ := hfields site hsite
    exact ⟨hfield, htype, fun count hcount => (h.counts site hsite).bounds hcount⟩
  · have hnames := h.names
    rw [Declaration.toStruct, List.map_map]
    exact hnames

/-! ## Parsing -/

/-- The structs of a schema text can be declared, and have different names. -/
theorem declarable_of_parse {source file : String} {structs : List Struct}
    (hparse : (parse source file).result = .ok structs) :
    (∀ s ∈ structs, s.Declarable) ∧ (structs.map Struct.name).Nodup := by
  obtain ⟨hfaultless, rfl⟩ := result_parse_eq_ok_iff.mp hparse
  constructor
  · intro s hs
    obtain ⟨d, hd, rfl⟩ := List.mem_map.mp hs
    exact (hfaultless.members d hd).declarable hd
  · rw [List.map_map]
    exact hfaultless.names

/-- Numbering items does not change what they are. -/
theorem map_zipIdx_fst {α β : Type} (f : α → β) (items : List α) (first : Nat) :
    ((items.zipIdx first).map fun entry => f entry.1) = items.map f := by
  have hitems := congrArg (List.map f) (List.zipIdx_map_fst first items)
  rwa [List.map_map] at hitems

theorem faultless_listedDeclaration {s : Struct} (hs : s.Declarable) (line : Nat) :
    (listedDeclaration s line).Faultless := by
  constructor
  · have hnames : (listedDeclaration s line).fields.map (·.field.name) =
        s.members.map Member.name := by
      rw [listedDeclaration, memberSites, List.map_map]
      exact map_zipIdx_fst Member.name s.members (line + 1)
    rw [hnames]
    exact hs.names
  · intro site hsite digits hdigits
    obtain ⟨⟨member, number⟩, hmember, rfl⟩ := List.mem_map.mp hsite
    obtain ⟨count, hcount, rfl⟩ := Option.map_eq_some_iff.mp hdigits
    have hmem : member ∈ s.members := List.fst_mem_of_mem_zipIdx hmember
    obtain ⟨hone, hmax⟩ := (hs.members member hmem).count count hcount
    exact ⟨count, Text.asciiNumber?_eq_some_iff.mp (Text.asciiNumber?_toDigits count), hone, hmax⟩

/-- The structs of a listing are read back. -/
theorem result_parse_listing {structs : List Struct} (hstructs : ∀ s ∈ structs, s.Declarable)
    (hnames : (structs.map Struct.name).Nodup) (file : String) :
    (parse (Schema.listing structs) file).result = .ok (structs.mapIdx fun k s =>
      s.placedAt (1 + ((structs.take k).map fun earlier => earlier.members.length + 3).sum)) := by
  rw [result_parse_eq_ok_iff, numberedLines_listing hstructs, declarations_listing hstructs]
  refine ⟨⟨?_, ?_⟩, ?_⟩
  · rw [List.mapIdx_eq_zipIdx_map, List.map_map]
    rw [← map_zipIdx_fst Struct.name structs 0] at hnames
    exact hnames
  · intro d hd
    obtain ⟨k, hk, rfl⟩ := List.mem_mapIdx.mp hd
    exact faultless_listedDeclaration (hstructs _ (List.getElem_mem hk)) _
  · rw [List.mapIdx_eq_zipIdx_map, List.mapIdx_eq_zipIdx_map, List.map_map]
    exact List.map_congr_left fun entry _ => (toStruct_listedDeclaration entry.1 _).symm

/-- What a run with the option to list prints, the declarations of all structs, each followed
by an empty line, is a schema text again.  It declares the same structs: names, types and
counts are the same, an absent count being none and a count of one being one.  Only the lines
are those of the listing, where a struct takes three lines besides those of its members. -/
theorem parse_listing {source file : String} {structs : List Struct}
    (hparse : (parse source file).result = .ok structs) :
    (∀ (world : World) (path : String),
      world.tree.read ⟨path⟩ = .ok (Text.Utf8.encode source) →
        ∃ last, World.execute { schemas := some [path], list := true } world = (0, last) ∧
          last.output = world.output ++ Schema.listing structs) ∧
      Schema.listing structs = String.join (structs.map fun s => s.listing ++ "\n\n") ∧
      ∀ other, (parse (Schema.listing structs) other).result =
        .ok (structs.mapIdx fun k s => s.placedAt
          (1 + ((structs.take k).map fun earlier => earlier.members.length + 3).sum)) := by
  obtain ⟨hstructs, hnames⟩ := declarable_of_parse hparse
  refine ⟨?_, ?_, result_parse_listing hstructs hnames⟩
  · intro world path hread
    -- The name of the text is told in messages only.
    have hfile : (parse source path).result = .ok structs :=
      result_parse_eq_ok_iff.mpr (result_parse_eq_ok_iff.mp hparse)
    exact World.execute_list hread (Text.Utf8.decode_encode source) hfile hnames
  · rw [String.join, List.foldl_map]
    simp only [Schema.listing, String.append_assoc]

/-- A schema whose second struct is not closed. -/
def spanSource : String :=
  "größe :: struct \x7b x : u8, y : u8[1] \x7d\n" ++
    "Span ::struct\x7b ends: größe[02],\n\n last : u8 , // open"

/-- The structs of the schema. -/
def spanStructs : List Struct :=
  [⟨"größe", 1, [⟨"x", "u8", none, 1⟩, ⟨"y", "u8", some 1, 1⟩]⟩,
   ⟨"Span", 2, [⟨"ends", "größe", some 2, 2⟩]⟩]

/-- The structs of its listing. -/
def listedSpanStructs : List Struct :=
  [⟨"größe", 1, [⟨"x", "u8", none, 2⟩, ⟨"y", "u8", some 1, 3⟩]⟩,
   ⟨"Span", 6, [⟨"ends", "größe", some 2, 7⟩]⟩]

/-- A world with a file that holds the schema. -/
def spanWorld : World where
  tree := ⟨[(["span.mrtype"], .inode 0 (.file (Text.Utf8.encode spanSource)))], []⟩

/-- The schema is listed and read back. -/
theorem span_listing : (parse spanSource "span").result = .ok spanStructs ∧
    spanWorld.tree.read ⟨"span.mrtype"⟩ = .ok (Text.Utf8.encode spanSource) ∧
    (∃ last, World.execute { schemas := some ["span.mrtype"], list := true } spanWorld = (0, last) ∧
      last.output = "größe :: struct \x7b\n    x : u8,\n    y : u8[1],\n\x7d\n\n" ++
        "Span :: struct \x7b\n    ends : größe[2],\n\x7d\n\n") ∧
    (parse (Schema.listing spanStructs) "listing").result = .ok listedSpanStructs := by
  have hparse : (parse spanSource "span").result = .ok spanStructs := by rfl
  have hread : spanWorld.tree.read ⟨"span.mrtype"⟩ = .ok (Text.Utf8.encode spanSource) := by
    rfl
  obtain ⟨hrun, -, hback⟩ := parse_listing hparse
  obtain ⟨last, hlast, houtput⟩ := hrun spanWorld "span.mrtype" hread
  exact ⟨hparse, hread, ⟨last, hlast, houtput⟩, hback "listing"⟩

end Schema
end FieldMap
