import FieldMap.Proofs.AddedStructs
import FieldMap.Proofs.ListingRoundTrip
import FieldMap.Proofs.SeenFiles
import Mathlib.Data.List.Nodup
import Mathlib.Data.List.Pairwise

/-!
# Putting schemas together

The structs of several schema files are put together in the order of the files, as long as each
file can be read and declares no struct that an earlier one declares.

* `Merged` says that files can be put together, and `LoadFault` what is wrong with the next one.
* `addFile_eq_ok_iff` and `addFile_eq_error_iff` are the step from some files to one more, and
  `foldlM_addFile_eq_ok_iff` and `foldlM_addFile_eq_error_iff` the fold over the paths that remains
  of loading.

The loader keeps the path beside each struct to tell which file has declared a name.  That this is
the right one rests on the files having no name in common (`Merged.eq_of_mem`).
-/

namespace FieldMap

/-! ## Structs of one file -/

/-- The names of the structs of a file. -/
def namesOf (file : Path × List Struct) : List String :=
  file.2.map Struct.name

/-- What is said of structs that come from schemas. -/
theorem FileView.declarable_of_schema {view : FileView} {path : Path} {structs : List Struct}
    (h : view.schema path = .ok structs) :
    (∀ s ∈ structs, s.Declarable) ∧ (structs.map Struct.name).Nodup := by
  obtain ⟨source, -, hparse⟩ := exists_parse_of_schema h
  exact Schema.declarable_of_parse hparse

/-! ## Several files -/

/-- The files have these structs, and no two of them declare one name. -/
structure Merged (view : FileView) (files : List (Path × List Struct)) : Prop where
  read : ∀ file ∈ files, view.schema file.1 = .ok file.2
  apart : files.Pairwise fun earlier later => List.Disjoint (namesOf earlier) (namesOf later)

/-- What is wrong with the file at a path that comes after some files: it cannot be read or parsed,
or one of its structs has a name that an earlier file declares.  The first such struct counts. -/
inductive LoadFault (view : FileView) (files : List (Path × List Struct)) (path : Path) :
    LoadError → Prop
  | unread {e : LoadError} : view.schema path = .error e → LoadFault view files path e
  | declaredTwice {earlier later : List Struct} {s : Struct} {file : Path × List Struct} :
      view.schema path = .ok (earlier ++ s :: later) →
        (∀ r ∈ earlier, ∀ file ∈ files, r.name ∉ namesOf file) →
          file ∈ files → s.name ∈ namesOf file →
            LoadFault view files path (.duplicateStruct s.name file.1 path)

/-- The structs of files with the paths that declare them, newest first. -/
def declaredIn (files : List (Path × List Struct)) : List (Struct × Path) :=
  (files.flatMap fun file => file.2.map (·, file.1)).reverse

section
variable {view : FileView} {files more : List (Path × List Struct)} {path : Path}
  {structs : List Struct} {known : List (Struct × Path)} {e : LoadError}

theorem map_fst_declaredIn :
    ((declaredIn files).map Prod.fst).reverse = files.flatMap Prod.snd := by
  rw [declaredIn, List.map_reverse, List.reverse_reverse, List.map_flatMap]
  simp [Function.comp_def]

theorem declaredIn_concat :
    declaredIn (files ++ [(path, structs)]) =
      (structs.map (·, path)).reverse ++ declaredIn files := by
  simp [declaredIn]

theorem mem_declaredIn_iff {s : Struct} :
    (s, path) ∈ declaredIn files ↔ ∃ file ∈ files, s ∈ file.2 ∧ file.1 = path := by
  simp only [declaredIn, List.mem_reverse, List.mem_flatMap, List.mem_map, Prod.mk.injEq]
  constructor
  · rintro ⟨file, hfile, t, ht, rfl, rfl⟩
    exact ⟨file, hfile, ht, rfl⟩
  · rintro ⟨file, hfile, hs, rfl⟩
    exact ⟨file, hfile, s, hs, rfl, rfl⟩

theorem mem_names_declaredIn_iff {name : String} :
    name ∈ (declaredIn files).map (·.1.name) ↔ ∃ file ∈ files, name ∈ namesOf file := by
  rw [List.mem_map]
  constructor
  · rintro ⟨⟨s, path⟩, hmem, rfl⟩
    obtain ⟨file, hfile, hs, -⟩ := mem_declaredIn_iff.mp hmem
    exact ⟨file, hfile, List.mem_map_of_mem hs⟩
  · rintro ⟨file, hfile, hname⟩
    obtain ⟨s, hs, rfl⟩ := List.mem_map.mp hname
    exact ⟨(s, file.1), mem_declaredIn_iff.mpr ⟨file, hfile, hs, rfl⟩, rfl⟩

theorem merged_nil : Merged view [] :=
  ⟨nofun, .nil⟩

theorem Merged.of_append (h : Merged view (files ++ more)) : Merged view files :=
  ⟨fun file hfile => h.read file (List.mem_append_left _ hfile), (List.pairwise_append.mp h.apart).1⟩

theorem merged_concat_iff :
    Merged view (files ++ [(path, structs)]) ↔
      Merged view files ∧ view.schema path = .ok structs ∧
        ∀ file ∈ files, List.Disjoint (namesOf file) (structs.map Struct.name) := by
  constructor
  · intro h
    refine ⟨h.of_append, h.read _ List.mem_concat_self, fun file hfile => ?_⟩
    exact (List.pairwise_append.mp h.apart).2.2 file hfile _ List.mem_cons_self
  · rintro ⟨hmerged, hread, hapart⟩
    refine ⟨?_, List.pairwise_append.mpr ⟨hmerged.apart, List.pairwise_singleton _ _, ?_⟩⟩
    · intro file hfile
      rcases List.mem_append.mp hfile with hfile | hfile
      · exact hmerged.read file hfile
      · obtain rfl := List.mem_singleton.mp hfile
        exact hread
    · intro file hfile other hother
      obtain rfl := List.mem_singleton.mp hother
      exact hapart file hfile

/-- Only one file declares a name. -/
theorem Merged.eq_of_mem (h : Merged view files) {file other : Path × List Struct} {name : String}
    (hfile : file ∈ files) (hother : other ∈ files) (hname : name ∈ namesOf file)
    (hname' : name ∈ namesOf other) : file = other := by
  by_contra hne
  have hsymm : Std.Symm fun earlier later : Path × List Struct =>
      List.Disjoint (namesOf earlier) (namesOf later) := ⟨fun _ _ => List.disjoint_symm⟩
  exact h.apart.forall hfile hother hne hname hname'

theorem Merged.find?_declaredIn (h : Merged view files) {file : Path × List Struct} {name : String}
    (hfile : file ∈ files) (hname : name ∈ namesOf file) :
    ∃ t, (declaredIn files).find? (·.1.name == name) = some (t, file.1) := by
  cases hfind : (declaredIn files).find? (·.1.name == name) with
  | none =>
      exact absurd (mem_names_declaredIn_iff.mpr ⟨file, hfile, hname⟩)
        (find?_name_eq_none_iff.mp hfind)
  | some entry =>
      obtain ⟨t, first⟩ := entry
      obtain ⟨other, hother, ht, rfl⟩ :=
        mem_declaredIn_iff.mp (List.mem_of_find?_eq_some hfind)
      have htname := name_eq_of_find? hfind
      have hsame := h.eq_of_mem hother hfile (htname ▸ List.mem_map_of_mem ht) hname
      exact ⟨t, by rw [hsame]⟩

/-! ## One more file -/

theorem addFile_eq_ok_iff (hmerged : Merged view files) :
    view.addFile (declaredIn files) path = .ok known ↔
      ∃ structs, Merged view (files ++ [(path, structs)]) ∧
        known = declaredIn (files ++ [(path, structs)]) := by
  simp only [FileView.addFile, bind_eq_ok_iff, addStructs_eq_ok_iff, merged_concat_iff,
    declaredIn_concat]
  constructor
  · rintro ⟨structs, hread, ⟨-, hnew⟩, rfl⟩
    refine ⟨structs, ⟨hmerged, hread, fun file hfile name hname hmem => ?_⟩, rfl⟩
    exact hnew name hmem (mem_names_declaredIn_iff.mpr ⟨file, hfile, hname⟩)
  · rintro ⟨structs, ⟨-, hread, hapart⟩, rfl⟩
    refine ⟨structs, hread, ⟨(FileView.declarable_of_schema hread).2, fun name hname hmem => ?_⟩, rfl⟩
    obtain ⟨file, hfile, hdeclared⟩ := mem_names_declaredIn_iff.mp hmem
    exact hapart file hfile hdeclared hname

theorem addFile_eq_error_iff (hmerged : Merged view files) :
    view.addFile (declaredIn files) path = .error e ↔ LoadFault view files path e := by
  rw [FileView.addFile, bind_eq_error_iff]
  -- The structs of one file have different names, so a name that is taken is that of another file.
  have hknown {earlier later : List Struct} {s : Struct}
      (hread : view.schema path = .ok (earlier ++ s :: later)) :
      (earlier.map Struct.name).Nodup ∧
        ((earlier.map (·, path)).reverse ++ declaredIn files).find? (·.1.name == s.name) =
          (declaredIn files).find? (·.1.name == s.name) := by
    have hnodup := (FileView.declarable_of_schema hread).2
    rw [List.map_append, List.map_cons, List.nodup_middle, List.nodup_cons] at hnodup
    exact ⟨hnodup.2.of_append_left, find?_added_append fun hmem =>
      hnodup.1 (List.mem_append_left _ hmem)⟩
  constructor
  · rintro (hread | ⟨structs, hread, hadded⟩)
    · exact .unread hread
    · obtain ⟨earlier, s, later, t, first, rfl, hnew, hfind, rfl⟩ :=
        addStructs_eq_error_iff.mp hadded
      rw [(hknown hread).2] at hfind
      obtain ⟨file, hfile, ht, rfl⟩ := mem_declaredIn_iff.mp (List.mem_of_find?_eq_some hfind)
      have htname := name_eq_of_find? hfind
      refine .declaredTwice hread (fun r hr file hfile hmem => ?_) hfile
        (htname ▸ List.mem_map_of_mem ht)
      exact hnew.2 r.name (List.mem_map_of_mem hr) (mem_names_declaredIn_iff.mpr ⟨file, hfile, hmem⟩)
  · intro h
    cases h with
    | unread hread => exact .inl hread
    | @declaredTwice earlier later s file hread hearlier hfile hname =>
        obtain ⟨t, hfind⟩ := hmerged.find?_declaredIn hfile hname
        rw [← (hknown hread).2] at hfind
        have hnew : NewNames ((declaredIn files).map (·.1.name)) (earlier.map Struct.name) := by
          refine ⟨(hknown hread).1, List.forall_mem_map.mpr fun r hr hmem => ?_⟩
          obtain ⟨other, hother, hdeclared⟩ := mem_names_declaredIn_iff.mp hmem
          exact hearlier r hr other hother hdeclared
        exact .inr ⟨_, hread,
          addStructs_eq_error_iff.mpr ⟨earlier, s, later, t, file.1, rfl, hnew, hfind, rfl⟩⟩

/-! ## All files -/

theorem foldlM_addFile_eq_ok_iff {paths : List Path} (hmerged : Merged view files) :
    paths.foldlM view.addFile (declaredIn files) = .ok known ↔
      ∃ more, more.map Prod.fst = paths ∧ Merged view (files ++ more) ∧
        known = declaredIn (files ++ more) := by
  -- With each path the files that have been put together are one more.
  induction paths generalizing files known with
  | nil =>
      simp only [List.foldlM_nil, List.map_eq_nil_iff, exists_eq_left, List.append_nil]
      constructor
      · rintro ⟨⟩
        exact ⟨hmerged, rfl⟩
      · rintro ⟨-, rfl⟩
        rfl
  | cons path paths ih =>
      simp only [List.foldlM_cons, bind_eq_ok_iff, addFile_eq_ok_iff hmerged]
      constructor
      · rintro ⟨_, ⟨structs, hnext, rfl⟩, hrest⟩
        obtain ⟨more, rfl, hall, rfl⟩ := (ih hnext).mp hrest
        rw [← List.append_cons] at hall ⊢
        exact ⟨(path, structs) :: more, rfl, hall, rfl⟩
      · rintro ⟨more, hmore, hall, rfl⟩
        obtain ⟨⟨_, structs⟩, more, rfl, rfl, rfl⟩ := List.map_eq_cons_iff.mp hmore
        rw [List.append_cons] at hall ⊢
        exact ⟨_, ⟨structs, hall.of_append, rfl⟩, (ih hall.of_append).mpr ⟨more, rfl, hall, rfl⟩⟩

theorem foldlM_addFile_eq_error_iff {paths : List Path} (hmerged : Merged view files) :
    paths.foldlM view.addFile (declaredIn files) = .error e ↔
      ∃ more path rest, paths = more.map Prod.fst ++ path :: rest ∧ Merged view (files ++ more) ∧
        LoadFault view (files ++ more) path e := by
  induction paths generalizing files with
  | nil =>
      constructor
      · rintro ⟨⟩
      · rintro ⟨more, path, rest, hpaths, -⟩
        simp at hpaths
  | cons path paths ih =>
      simp only [List.foldlM_cons, bind_eq_error_iff, addFile_eq_error_iff hmerged,
        addFile_eq_ok_iff hmerged]
      constructor
      · rintro (hfault | ⟨_, ⟨structs, hnext, rfl⟩, hrest⟩)
        · exact ⟨[], path, paths, rfl, by rwa [List.append_nil], by rwa [List.append_nil]⟩
        · obtain ⟨more, failing, rest, rfl, hall, hfault⟩ := (ih hnext).mp hrest
          rw [← List.append_cons] at hall hfault
          exact ⟨(path, structs) :: more, failing, rest, rfl, hall, hfault⟩
      · rintro ⟨more, failing, rest, hpaths, hall, hfault⟩
        cases more with
        | nil =>
            obtain ⟨rfl, rfl⟩ := List.cons.inj hpaths
            rw [List.append_nil] at hfault
            exact .inl hfault
        | cons file more =>
            obtain ⟨rfl, rfl⟩ := List.cons.inj hpaths
            rw [List.append_cons] at hall hfault
            exact .inr ⟨_, ⟨file.2, hall.of_append, rfl⟩,
              (ih hall.of_append).mpr ⟨more, failing, rest, rfl, hall, hfault⟩⟩

/-- All names of files that can be put together are different. -/
theorem Merged.nodup_names (h : Merged view files) :
    ((files.flatMap Prod.snd).map Struct.name).Nodup := by
  rw [List.map_flatMap]
  refine List.nodup_flatMap.mpr ⟨fun file hfile => ?_, h.apart⟩
  exact (FileView.declarable_of_schema (h.read file hfile)).2

theorem Merged.declarable (h : Merged view files) :
    ∀ s ∈ files.flatMap Prod.snd, s.Declarable := by
  intro s hs
  obtain ⟨file, hfile, hmem⟩ := List.mem_flatMap.mp hs
  exact (FileView.declarable_of_schema (h.read file hfile)).1 s hmem

end

/-! ## Loading -/

section
variable {σ : Type} [FileSystem (StateM σ)] [Reporting (StateM σ)] [ReadingMachine σ]

open ReadingMachine

theorem run_loadSchemas (paths : List Path) (s : σ) :
    ((loadSchemas paths : ExceptT LoadError (StateM σ) (List Struct)).run s).1 =
      (((view s).schemaPaths paths).foldlM (view s).addFile (declaredIn [])).map
        fun known => (known.map Prod.fst).reverse := by
  rw [loadSchemas, run_loadSchemasFrom, FileView.schemaPaths, Path.eraseDupsBy_isSame]
  rfl

theorem loadSchemas_eq_ok_iff {paths : List Path} {s : σ} {structs : List Struct} :
    ((loadSchemas paths : ExceptT LoadError (StateM σ) (List Struct)).run s).1 = .ok structs ↔
      ∃ files, files.map Prod.fst = (view s).schemaPaths paths ∧ Merged (view s) files ∧
        structs = files.flatMap Prod.snd := by
  simp only [run_loadSchemas, map_eq_ok_iff, foldlM_addFile_eq_ok_iff merged_nil, List.nil_append]
  constructor
  · rintro ⟨_, ⟨files, hpaths, hmerged, rfl⟩, rfl⟩
    exact ⟨files, hpaths, hmerged, map_fst_declaredIn⟩
  · rintro ⟨files, hpaths, hmerged, rfl⟩
    exact ⟨_, ⟨files, hpaths, hmerged, rfl⟩, map_fst_declaredIn⟩

theorem loadSchemas_eq_error_iff {paths : List Path} {s : σ} {e : LoadError} :
    ((loadSchemas paths : ExceptT LoadError (StateM σ) (List Struct)).run s).1 = .error e ↔
      ∃ files path rest, (view s).schemaPaths paths = files.map Prod.fst ++ path :: rest ∧
        Merged (view s) files ∧ LoadFault (view s) files path e := by
  simp only [run_loadSchemas, map_eq_error_iff, foldlM_addFile_eq_error_iff merged_nil,
    List.nil_append]

theorem declarable_of_loadSchemas {paths : List Path} {s : σ} {structs : List Struct}
    (h : ((loadSchemas paths : ExceptT LoadError (StateM σ) (List Struct)).run s).1 = .ok structs) :
    ∀ t ∈ structs, t.Declarable := by
  obtain ⟨files, -, hmerged, rfl⟩ := loadSchemas_eq_ok_iff.mp h
  exact hmerged.declarable

/-- All schemas that have been loaded could be read. -/
theorem exists_read_of_loadSchemas {paths : List Path} {s : σ} {structs : List Struct}
    (h : ((loadSchemas paths : ExceptT LoadError (StateM σ) (List Struct)).run s).1 = .ok structs) :
    ∀ path ∈ (view s).schemaPaths paths, ∃ bytes, (view s).read path = .ok bytes := by
  obtain ⟨files, hpaths, hmerged, -⟩ := loadSchemas_eq_ok_iff.mp h
  rw [← hpaths]
  exact List.forall_mem_map.mpr fun file hfile =>
    FileView.exists_read_of_schema (hmerged.read file hfile)

/-- Schemas are loaded exactly when each of the files that are meant can be read and parsed, and no
two of them declare one name.  Their structs then stand in the order of the files, with different
names; the members of each struct have different names, and a count that is given is not zero.
When schemas are refused, it is for the first file at which something is wrong. -/
theorem loadSchemas_merges (paths : List Path) (s : σ) :
    (∀ structs,
      ((loadSchemas paths : ExceptT LoadError (StateM σ) (List Struct)).run s).1 = .ok structs ↔
        ∃ files, files.map Prod.fst = (view s).schemaPaths paths ∧ Merged (view s) files ∧
          structs = files.flatMap Prod.snd) ∧
    (∀ structs,
      ((loadSchemas paths : ExceptT LoadError (StateM σ) (List Struct)).run s).1 = .ok structs →
        (structs.map Struct.name).Nodup ∧
          ∀ t ∈ structs, (t.members.map Member.name).Nodup ∧
            ∀ member ∈ t.members, ∀ count ∈ member.count, 1 ≤ count) ∧
    ∀ e,
      ((loadSchemas paths : ExceptT LoadError (StateM σ) (List Struct)).run s).1 = .error e ↔
        ∃ files path rest, (view s).schemaPaths paths = files.map Prod.fst ++ path :: rest ∧
          Merged (view s) files ∧ LoadFault (view s) files path e := by
  refine ⟨fun structs => loadSchemas_eq_ok_iff, fun structs h => ⟨?_, fun t ht => ?_⟩,
    fun e => loadSchemas_eq_error_iff⟩
  · obtain ⟨files, -, hmerged, rfl⟩ := loadSchemas_eq_ok_iff.mp h
    exact hmerged.nodup_names
  · have hdeclarable := declarable_of_loadSchemas h t ht
    refine ⟨hdeclarable.names, fun member hmember count hcount => ?_⟩
    exact ((hdeclarable.members member hmember).count count hcount).1

end

/-- Three schema files, the last of which declares a name of the first one. -/
def sharedWorld : World where
  tree :=
    { entries :=
        [(["base.mrtype"], .inode 0 (.file
          (Text.Utf8.encode "Point :: struct \x7b\n    x : i32,\n\x7d\n"))),
         (["game.mrtype"], .inode 1 (.file
          (Text.Utf8.encode "Player :: struct \x7b\n    at : Point[2],\n\x7d\n"))),
         (["clash.mrtype"], .inode 2 (.file
          (Text.Utf8.encode "Point :: struct \x7b\n    y : i32,\n\x7d\n")))] }

/-- The structs of the first two of them. -/
def sharedStructs : List Struct :=
  [⟨"Point", 1, [⟨"x", "i32", none, 2⟩]⟩, ⟨"Player", 1, [⟨"at", "Point", some 2, 2⟩]⟩]

/-- A file that is named in two ways is read once, and the file that declares a name again is told
together with the one that has declared it. -/
theorem sharedWorld_merges :
    (((loadSchemas [⟨"base"⟩, ⟨"game"⟩, ⟨"base.mrtype"⟩] :
        ExceptT LoadError (StateM World) (List Struct)).run sharedWorld).1 = .ok sharedStructs ∧
      (sharedStructs.map Struct.name).Nodup ∧
      ∃ files, files.map Prod.fst = [⟨"base.mrtype"⟩, ⟨"game.mrtype"⟩] ∧
        Merged sharedWorld.tree.view files ∧ sharedStructs = files.flatMap Prod.snd) ∧
    ((loadSchemas [⟨"base"⟩, ⟨"clash"⟩] :
        ExceptT LoadError (StateM World) (List Struct)).run sharedWorld).1 =
        .error (.duplicateStruct "Point" ⟨"base.mrtype"⟩ ⟨"clash.mrtype"⟩) ∧
      ∃ files path rest, files.map Prod.fst ++ path :: rest =
          [⟨"base.mrtype"⟩, ⟨"clash.mrtype"⟩] ∧
        Merged sharedWorld.tree.view files ∧
        LoadFault sharedWorld.tree.view files path
          (.duplicateStruct "Point" ⟨"base.mrtype"⟩ ⟨"clash.mrtype"⟩) := by
  have hloaded : ((loadSchemas [⟨"base"⟩, ⟨"game"⟩, ⟨"base.mrtype"⟩] :
      ExceptT LoadError (StateM World) (List Struct)).run sharedWorld).1 =
        .ok sharedStructs := by decide +kernel
  have hrefused : ((loadSchemas [⟨"base"⟩, ⟨"clash"⟩] :
      ExceptT LoadError (StateM World) (List Struct)).run sharedWorld).1 =
        .error (.duplicateStruct "Point" ⟨"base.mrtype"⟩ ⟨"clash.mrtype"⟩) := by decide +kernel
  constructor
  · obtain ⟨hok, hdifferent, -⟩ :=
      loadSchemas_merges [⟨"base"⟩, ⟨"game"⟩, ⟨"base.mrtype"⟩] sharedWorld
    obtain ⟨files, hpaths, hmerged, hstructs⟩ := (hok _).mp hloaded
    refine ⟨hloaded, (hdifferent _ hloaded).1, files, hpaths.trans ?_, hmerged, hstructs⟩
    decide +kernel
  · obtain ⟨-, -, herror⟩ := loadSchemas_merges [⟨"base"⟩, ⟨"clash"⟩] sharedWorld
    obtain ⟨files, path, rest, hpaths, hmerged, hfault⟩ := (herror _).mp hrefused
    refine ⟨hrefused, files, path, rest, hpaths.symm.trans ?_, hmerged, hfault⟩
    decide +kernel

end FieldMap
