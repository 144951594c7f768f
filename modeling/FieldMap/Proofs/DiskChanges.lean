import FieldMap.FileTree
import FieldMap.Proofs.LinkWalks

/-!
# What the operations change

There are four operations that change a disk.  For each of them a relation between the disk before
it and the disk after it says all that it may do when it succeeds, in the terms of POSIX:

* `MakesDirectory`: a directory where nothing was;
* `Writes`: a new file where the path leads, or other bytes in the file there, under all its names;
* `Renames`: a name moved over another one, unless both are names of one file already;
* `Removes`: one name less.

The operations of a file tree are among them (`FileTree.makesDirectory_of_ok` and the lemmas after
it).
-/

namespace FieldMap

namespace Disk

/-- The disk with an entry at a location, or with none there. -/
def set (disk : Disk) (location : Location) (entry : Option Entry) : Disk :=
  { disk with entries := fun l => if l = location then entry else disk.entries l }

/-- The disk with other bytes in the file with a number, under all names of it. -/
def fill (disk : Disk) (number : Nat) (bytes : List UInt8) : Disk :=
  { disk with entries := fun l => (disk.entries l).map (Entry.fill number bytes) }

section
variable {disk other : Disk} {location l : Location} {entry : Option Entry} {number : Nat}
  {bytes old : List UInt8}

theorem link?_congr (h : other.at? l = disk.at? l) : other.link? l = disk.link? l := by
  rw [link?, link?, h]

theorem number?_congr (h : other.at? l = disk.at? l) : other.number? l = disk.number? l := by
  rw [number?, number?, h]

theorem bytes?_congr (h : other.at? l = disk.at? l) : other.bytes? l = disk.bytes? l := by
  rw [bytes?, bytes?, h]

theorem number?_of_directory (h : disk.at? l = some .directory) : disk.number? l = none := by
  rw [number?, h]

theorem number?_of_none (h : disk.at? l = none) : disk.number? l = none := by
  rw [number?, h]

theorem ne_nil_of_none (h : disk.at? l = none) : l ≠ [] := by
  rintro rfl
  rw [at?_nil] at h
  cases h

theorem ne_nil_of_number? (h : disk.number? l = some number) : l ≠ [] := by
  rintro rfl
  rw [number?_of_directory disk.at?_nil] at h
  cases h

theorem at?_set (h : location ≠ []) (l : Location) :
    (disk.set location entry).at? l = if l = location then entry else disk.at? l := by
  by_cases hroot : l = []
  · subst hroot
    rw [if_neg (Ne.symm h), at?_nil, at?_nil]
  · rw [at?, at?, if_neg hroot, if_neg hroot, set]

theorem at?_fill (l : Location) :
    (disk.fill number bytes).at? l = (disk.at? l).map (Entry.fill number bytes) := by
  by_cases hroot : l = []
  · subst hroot
    rw [at?_nil, at?_nil]
    rfl
  · rw [at?, at?, if_neg hroot, if_neg hroot, fill]

/-- Files with another number keep their bytes, and so do all other things. -/
theorem at?_fill_of_ne (h : disk.number? l ≠ some number) :
    (disk.fill number bytes).at? l = disk.at? l := by
  rw [at?_fill]
  rcases hat : disk.at? l with - | - | ⟨own, found | - | -⟩
  · rfl
  · rfl
  · have hown : own ≠ number := by
      rintro rfl
      exact h (number?_eq_some_iff.mpr ⟨_, hat⟩)
    simp [Entry.fill, hown]
  · rfl
  · rfl

theorem at?_fill_of_eq (h : disk.at? l = some (.inode number (.file old))) :
    (disk.fill number bytes).at? l = some (.inode number (.file bytes)) := by
  simp [at?_fill, h, Entry.fill]

theorem at?_fill_eq_directory_iff :
    (disk.fill number bytes).at? l = some .directory ↔ disk.at? l = some .directory := by
  rw [at?_fill]
  rcases disk.at? l with - | - | ⟨own, - | - | -⟩ <;> simp [Entry.fill]

theorem number?_fill (l : Location) : (disk.fill number bytes).number? l = disk.number? l := by
  rw [number?, number?, at?_fill]
  rcases disk.at? l with - | - | ⟨own, - | - | -⟩ <;> rfl

theorem link?_fill (l : Location) : (disk.fill number bytes).link? l = disk.link? l := by
  rw [link?, link?, at?_fill]
  rcases disk.at? l with - | - | ⟨own, - | - | -⟩ <;> rfl

end

/-! ## Operations that succeed -/

/-- A directory has been made. -/
inductive MakesDirectory (path : Path) (before : Disk) : Disk → Prop
  | make {l : Location} (hlocate : before.locate false path = .ok l)
      (hfree : before.at? l = none) :
      MakesDirectory path before (before.set l (some .directory))

/-- Bytes have been written to a file, which is made if it is missing.  A new file has a number that
no other entry has, and what is written to a special file changes nothing. -/
inductive Writes (path : Path) (bytes : List UInt8) (before : Disk) : Disk → Prop
  | create {l : Location} {number : Nat} (hlocate : before.locate true path = .ok l)
      (hfree : before.at? l = none) (hnew : ∀ other, before.number? other ≠ some number) :
      Writes path bytes before (before.set l (some (.inode number (.file bytes))))
  | fill {l : Location} {number : Nat} {old : List UInt8}
      (hlocate : before.locate true path = .ok l)
      (hat : before.at? l = some (.inode number (.file old))) :
      Writes path bytes before (before.fill number bytes)
  | swallow {l : Location} {number : Nat} (hlocate : before.locate true path = .ok l)
      (hat : before.number? l = some number) (hother : before.bytes? l = none) :
      Writes path bytes before before

/-- Something that is not a directory has been moved to another path.  If both paths are names of
it, nothing has happened. -/
inductive Renames (source target : Path) (before : Disk) : Disk → Prop
  | keep {start goal : Location} {number : Nat} (hstart : before.locate false source = .ok start)
      (hgoal : before.locate false target = .ok goal)
      (hslash : target.endsInSlash = false) (hdots : target.endsInDots = false)
      (hsource : before.number? start = some number)
      (hsame : before.at? goal = before.at? start) :
      Renames source target before before
  | move {start goal : Location} {number : Nat} (hstart : before.locate false source = .ok start)
      (hgoal : before.locate false target = .ok goal)
      (hslash : target.endsInSlash = false) (hdots : target.endsInDots = false)
      (hsource : before.number? start = some number)
      (hfree : before.at? goal ≠ some .directory) (hother : before.at? goal ≠ before.at? start) :
      Renames source target before ((before.set start none).set goal (before.at? start))

/-- A name has been removed. -/
inductive Removes (path : Path) (before : Disk) : Disk → Prop
  | remove {l : Location} {number : Nat} {inode : Inode}
      (hlocate : before.locate false path = .ok l)
      (hat : before.at? l = some (.inode number inode)) :
      Removes path before (before.set l none)

/-- Two locations are one, or both are names of the same thing. -/
def SameFile (disk : Disk) (l m : Location) : Prop :=
  l = m ∨ ∃ number, disk.number? l = some number ∧ disk.number? m = some number

section
variable {before after : Disk} {path source target : Path} {bytes : List UInt8} {l : Location}

theorem MakesDirectory.at?_eq (h : MakesDirectory path before after) :
    ∃ made, before.locate false path = .ok made ∧ before.at? made = none ∧
      after.workingDirectory = before.workingDirectory ∧
      ∀ l, after.at? l = if l = made then some .directory else before.at? l := by
  obtain ⟨hlocate, hfree⟩ := h
  exact ⟨_, hlocate, hfree, rfl, at?_set (ne_nil_of_none hfree)⟩

theorem Removes.at?_eq (h : Removes path before after) :
    ∃ own number, before.locate false path = .ok own ∧ before.number? own = some number ∧
      after.workingDirectory = before.workingDirectory ∧
      ∀ l, after.at? l = if l = own then none else before.at? l := by
  obtain ⟨hlocate, hat⟩ := h
  have hnumber := number?_eq_some_iff.mpr ⟨_, hat⟩
  exact ⟨_, _, hlocate, hnumber, rfl, at?_set (ne_nil_of_number? hnumber)⟩

theorem Renames.at?_eq (h : Renames source target before after) :
    ∃ start goal number, before.locate false source = .ok start ∧
      before.locate false target = .ok goal ∧ target.endsInSlash = false ∧
      target.endsInDots = false ∧ before.number? start = some number ∧
      before.at? goal ≠ some .directory ∧ after.workingDirectory = before.workingDirectory ∧
      (before.at? goal = before.at? start ∧ after = before ∨
        before.at? goal ≠ before.at? start ∧
          ∀ l, after.at? l = if l = goal then before.at? start
            else if l = start then none else before.at? l) := by
  cases h with
  | keep hstart hgoal hslash hdots hsource hsame =>
      refine ⟨_, _, _, hstart, hgoal, hslash, hdots, hsource, fun hdirectory => ?_, rfl,
        .inl ⟨hsame, rfl⟩⟩
      rw [hsame] at hdirectory
      rw [number?_of_directory hdirectory] at hsource
      cases hsource
  | move hstart hgoal hslash hdots hsource hfree hother =>
      refine ⟨_, _, _, hstart, hgoal, hslash, hdots, hsource, hfree, rfl, .inr ⟨hother, ?_⟩⟩
      intro l
      rw [at?_set (ne_nil_of_at?_ne hfree), at?_set (ne_nil_of_number? hsource)]

/-! ### What a write keeps and changes -/

theorem Writes.workingDirectory_eq (h : Writes path bytes before after) :
    after.workingDirectory = before.workingDirectory := by
  cases h with
  | create | fill | swallow => rfl

/-- A write changes nothing but the file that the path leads to. -/
theorem Writes.at?_of_not_sameFile (h : Writes path bytes before after) :
    ∃ there, before.locate true path = .ok there ∧ before.at? there ≠ some .directory ∧
      ∀ l, ¬ before.SameFile l there → after.at? l = before.at? l := by
  cases h with
  | create hlocate hfree _ =>
      refine ⟨_, hlocate, by simp [hfree], fun l hl => ?_⟩
      rw [at?_set (ne_nil_of_none hfree), if_neg fun hsame => hl (.inl hsame)]
  | fill hlocate hat =>
      refine ⟨_, hlocate, by simp [hat], fun l hl => at?_fill_of_ne fun hnumber => ?_⟩
      exact hl (.inr ⟨_, hnumber, number?_eq_some_iff.mpr ⟨_, hat⟩⟩)
  | swallow hlocate hat _ =>
      refine ⟨_, hlocate, fun hdirectory => ?_, fun l _ => rfl⟩
      rw [number?_of_directory hdirectory] at hat
      cases hat

theorem Writes.directory_iff (h : Writes path bytes before after) :
    after.at? l = some .directory ↔ before.at? l = some .directory := by
  cases h with
  | create _ hfree _ =>
      rw [at?_set (ne_nil_of_none hfree)]
      split
      · next hl => simp [hl, hfree]
      · exact Iff.rfl
  | fill _ _ => exact at?_fill_eq_directory_iff
  | swallow => exact Iff.rfl

/-- No write makes a link, or another thing of one. -/
theorem Writes.link?_eq (h : Writes path bytes before after) (l : Location) :
    after.link? l = before.link? l := by
  cases h with
  | @create there _ _ hfree _ =>
      by_cases hl : l = there
      · rw [hl, link?_of_none hfree, link?, at?_set (ne_nil_of_none hfree), if_pos rfl]
      · rw [link?_congr]
        rw [at?_set (ne_nil_of_none hfree), if_neg hl]
  | fill _ _ => exact link?_fill l
  | swallow => rfl

/-- A write leads no path elsewhere. -/
theorem Writes.locate_of_locate {follow : Bool} {other : Path} (h : Writes path bytes before after)
    (hlocate : after.locate follow other = .ok l) : before.locate follow other = .ok l := by
  refine locate_of_entries hlocate h.workingDirectory_eq.symm (fun _ => h.directory_iff.mp)
    (fun m _ => (h.link?_eq m).symm) fun hnone => ?_
  rw [← h.link?_eq, link?_of_none hnone]

/-- Where something has been written is no directory. -/
theorem Writes.at?_ne_directory (h : Writes path bytes before after)
    (hlocate : after.locate false path = .ok l) : after.at? l ≠ some .directory := by
  obtain ⟨there, hthere, hfree, -⟩ := h.at?_of_not_sameFile
  intro hdirectory
  have hbefore := h.directory_iff.mp hdirectory
  have hown := locate_true_of_locate_false (h.locate_of_locate hlocate) (link?_of_directory hbefore)
  rw [Except.ok.inj (hown.symm.trans hthere)] at hbefore
  exact hfree hbefore

/-- What has a number keeps it. -/
theorem Writes.number?_of (h : Writes path bytes before after) {number : Nat}
    (hnumber : before.number? l = some number) : after.number? l = some number := by
  cases h with
  | @create there _ _ hfree _ =>
      rw [number?_congr, hnumber]
      rw [at?_set (ne_nil_of_none hfree), if_neg]
      rintro rfl
      rw [number?_of_none hfree] at hnumber
      cases hnumber
  | fill _ _ => rw [number?_fill, hnumber]
  | swallow => exact hnumber

/-- What has been written to has a number afterwards. -/
theorem Writes.exists_number (h : Writes path bytes before after) :
    ∃ there, before.locate true path = .ok there ∧ after.number? there ≠ none := by
  cases h with
  | @create there number hlocate hfree _ =>
      have hat : (before.set there (some (.inode number (.file bytes)))).at? there =
          some (.inode number (.file bytes)) := by rw [at?_set (ne_nil_of_none hfree), if_pos rfl]
      exact ⟨there, hlocate, by simp [number?_eq_some_iff.mpr ⟨_, hat⟩]⟩
  | @fill there number old hlocate hat =>
      have hnumber := number?_eq_some_iff.mpr ⟨_, hat⟩
      exact ⟨there, hlocate, by simp [number?_fill, hnumber]⟩
  | @swallow there number hlocate hat _ => exact ⟨there, hlocate, by simp [hat]⟩

/-- A path that leads to a regular file or to nothing leads to a file with the bytes afterwards.  All
names of this file are names that it had before. -/
theorem Writes.at?_of_regular (h : Writes path bytes before after) {there : Location}
    (hlocate : before.locate true path = .ok there)
    (hregular : before.at? there = none ∨ before.bytes? there ≠ none) :
    ∃ number, after.at? there = some (.inode number (.file bytes)) ∧
      ∀ l, after.number? l = some number → before.SameFile l there := by
  have hsame {l : Location} (hl : before.locate true path = .ok l) : l = there :=
    Except.ok.inj (hl.symm.trans hlocate)
  cases h with
  | @create l number hl hfree hnew =>
      obtain rfl := hsame hl
      refine ⟨number, by rw [at?_set (ne_nil_of_none hfree), if_pos rfl], fun m hm => ?_⟩
      by_cases heq : m = l
      · exact .inl heq
      · rw [number?_congr] at hm
        · exact absurd hm (hnew m)
        · rw [at?_set (ne_nil_of_none hfree), if_neg heq]
  | @fill l number old hl hat =>
      obtain rfl := hsame hl
      refine ⟨number, at?_fill_of_eq hat, fun m hm => .inr ⟨number, ?_, ?_⟩⟩
      · rwa [number?_fill] at hm
      · exact number?_eq_some_iff.mpr ⟨_, hat⟩
  | @swallow l number hl hat hother =>
      obtain rfl := hsame hl
      rcases hregular with hnone | hbytes
      · rw [number?_of_none hnone] at hat
        cases hat
      · exact absurd hother hbytes

end

end Disk

/-! ## The operations of a file tree -/

namespace FileTree

variable {tree after : FileTree} {path source target : Path} {bytes : List UInt8}

theorem disk_erase (tree : FileTree) (location : Location) :
    (tree.erase location).disk = tree.disk.set location none := by
  rw [Disk.set, disk, disk, Disk.mk.injEq]
  refine ⟨funext fun l => ?_, rfl⟩
  by_cases hl : l = location
  · simp [erase, hl]
  · have hpred : (fun found : Location × Disk.Entry =>
        decide ((found.1 != location) = true ∧ (found.1 == l) = true)) =
          fun found => found.1 == l := by
      funext found
      by_cases hfound : found.1 = l
      · simp [hfound, hl]
      · simp [hfound]
    rw [if_neg hl, erase, List.find?_filter, hpred]

theorem disk_put (tree : FileTree) (location : Location) (entry : Disk.Entry) :
    (tree.put location entry).disk = tree.disk.set location (some entry) := by
  have herase := congrArg Disk.entries (tree.disk_erase location)
  rw [Disk.set, disk, disk, Disk.mk.injEq]
  refine ⟨funext fun l => ?_, rfl⟩
  have hother := congrFun herase l
  by_cases hl : l = location
  · simp [put, hl]
  · rw [if_neg hl]
    simp only [disk, Disk.set, if_neg hl] at hother
    show _ = (tree.entries.find? (·.1 == l)).map (·.2)
    rw [← hother]
    simp [put, Ne.symm hl]

theorem disk_fill (tree : FileTree) (number : Nat) (bytes : List UInt8) :
    (tree.fill number bytes).disk = tree.disk.fill number bytes := by
  rw [Disk.fill, disk, disk, Disk.mk.injEq]
  refine ⟨funext fun l => ?_, rfl⟩
  simp [fill, List.find?_map, Function.comp_def]

/-- A fresh number is above the numbers of all entries. -/
theorem lt_freshNumber {tree : FileTree} {location : Location} {number : Nat} {inode : Inode}
    (h : (location, .inode number inode) ∈ tree.entries) : number < tree.freshNumber := by
  unfold freshNumber
  generalize tree.entries = entries at h ⊢
  induction entries with
  | nil => cases h
  | cons first rest ih =>
      rw [List.foldr_cons]
      rcases List.mem_cons.mp h with rfl | hrest
      · exact Nat.lt_of_lt_of_le number.lt_succ_self (Nat.le_max_right ..)
      · obtain ⟨_, directory | ⟨other, _⟩⟩ := first
        · exact ih hrest
        · exact Nat.lt_of_lt_of_le (ih hrest) (Nat.le_max_left ..)

theorem number?_ne_freshNumber (tree : FileTree) (location : Location) :
    tree.disk.number? location ≠ some tree.freshNumber := by
  intro h
  have hroot := Disk.ne_nil_of_number? h
  obtain ⟨inode, hat⟩ := Disk.number?_eq_some_iff.mp h
  rw [Disk.at?, if_neg hroot, disk, Option.map_eq_some_iff] at hat
  obtain ⟨⟨l, entry⟩, hfound, rfl⟩ := hat
  exact Nat.lt_irrefl _ (lt_freshNumber (List.mem_of_find?_eq_some hfound))

theorem makesDirectory_of_ok (h : tree.makeDirectory path = .ok after) :
    tree.disk.MakesDirectory path after.disk := by
  unfold makeDirectory at h
  split at h
  · cases h
  next l hlocate =>
  split at h
  · cases h
  next hfree =>
  cases h
  rw [disk_put]
  exact .make hlocate hfree

theorem writes_of_ok (h : tree.write path bytes = .ok after) :
    path.endsInSlash = false ∧ tree.disk.Writes path bytes after.disk := by
  unfold write at h
  split at h
  · cases h
  next l hlocate =>
  split at h
  · cases h
  next hslash =>
  rw [Bool.not_eq_true] at hslash
  rw [hslash] at hlocate
  refine ⟨hslash, ?_⟩
  split at h
  · next hfree =>
      cases h
      rw [disk_put]
      exact .create hlocate hfree tree.number?_ne_freshNumber
  · cases h
  · next number old hat =>
      cases h
      rw [disk_fill]
      exact .fill hlocate hat
  · next number inode hother hat =>
      cases h
      refine .swallow hlocate (Disk.number?_eq_some_iff.mpr ⟨inode, hat⟩) ?_
      unfold Disk.bytes?
      split
      · next found bytes hfile =>
          rw [hfile] at hat
          cases hat
          exact absurd rfl (hother _)
      · rfl

theorem renames_of_ok (h : tree.rename source target = .ok after) :
    tree.disk.Renames source target after.disk := by
  unfold rename at h
  split at h
  · cases h
  · cases h
  next start goal hstart hgoal =>
  split at h
  · cases h
  next hdots =>
  split at h
  · next number inode hat =>
      split at h
      · cases h
      next hslash =>
      split at h
      · cases h
      next hfree =>
      simp only [Bool.or_eq_true, not_or, Bool.not_eq_true] at hdots hslash
      have hsource := Disk.number?_eq_some_iff.mpr ⟨inode, hat⟩
      split at h
      · next hsame =>
          cases h
          exact .keep hstart hgoal hslash.2 hdots.2 hsource hsame
      · next hother =>
          cases h
          rw [disk_put, disk_erase, ← hat]
          exact .move hstart hgoal hslash.2 hdots.2 hsource hfree hother
  · cases h

theorem removes_of_ok (h : tree.remove path = .ok after) : tree.disk.Removes path after.disk := by
  unfold remove at h
  split at h
  · cases h
  next l hlocate =>
  split at h
  · cases h
  · cases h
  next number inode hat =>
  split at h
  · cases h
  cases h
  rw [disk_erase]
  exact .remove hlocate hat

/-- A regular file is read. -/
theorem read_of_content? (h : tree.disk.content? path = some bytes) : tree.read path = .ok bytes := by
  obtain ⟨hslash, l, hlocate, hbytes⟩ := Disk.content?_eq_some_iff.mp h
  obtain ⟨number, hat⟩ := Disk.bytes?_eq_some_iff.mp hbytes
  simp [read, entry, hlocate, hat, hslash]

end FileTree
end FieldMap
