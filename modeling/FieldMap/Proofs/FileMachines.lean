import FieldMap.Proofs.DiskChanges
import FieldMap.Proofs.StatefulEnds
import FieldMap.World

/-!
# Machines with files

A run is written against abstract file operations.  What it does to files is proved for every
machine that has a disk and whose operations behave as those of POSIX do, with symbolic links, with
several names of one file and with special files.  Any operation may be refused, for whatever reason:
a machine need not say why, or when, so owners and permissions, a disk that is full or read-only, and
media that fail are all covered.

`FileMachine` states what is relied on.  Looking changes nothing; an operation that succeeds does to
the disk what `Disk.MakesDirectory`, `Disk.Writes`, `Disk.Renames` or `Disk.Removes` says; one that
is refused does nothing, but for a write, which may have got some of its bytes to the file.  Left out
are other processes that change the disk meanwhile, machines that stop in the middle, and directories
that can be reached at two locations, as by a mount.

A world is such a machine, one that refuses nothing but what its tree refuses.  A faulty world is
another one: its disk fills up or breaks down when it is planned to.
-/

namespace FieldMap

/-- What is looked at stays the same while a machine looks at files, reports, shows something and
reads the clock. -/
structure Looking {σ τ : Type} [FileSystem (StateM σ)] [Reporting (StateM σ)]
    [Terminal (StateM σ)] (look : σ → τ) : Prop where
  isPresent : ∀ path s, look ((FileSystem.isPresent path : StateM σ Bool) s).2 = look s
  isDirectory : ∀ path s, look ((FileSystem.isDirectory path : StateM σ Bool) s).2 = look s
  read : ∀ path s,
    look ((FileSystem.read path : ExceptT OsError (StateM σ) (List UInt8)).run s).2 = look s
  report : ∀ events s, look ((Reporting.report events : StateM σ Unit) s).2 = look s
  print : ∀ text s, look ((Terminal.print text : StateM σ Unit) s).2 = look s
  complain : ∀ text s, look ((Terminal.complain text : StateM σ Unit) s).2 = look s
  clock : ∀ s, look ((Terminal.clock : StateM σ Nat) s).2 = look s

/-- A machine that carries out runs, and its disk. -/
class FileMachine (σ : Type) [FileSystem (StateM σ)] [Reporting (StateM σ)]
    [Terminal (StateM σ)] where
  /-- The files, as the machine has them. -/
  disk : σ → Disk
  looking : Looking disk
  /-- What is read from a regular file are its bytes. -/
  read_ok (path : Path) (bytes content : List UInt8) (s next : σ) :
    (FileSystem.read path : ExceptT OsError (StateM σ) (List UInt8)).run s = (.ok bytes, next) →
      (disk s).content? path = some content → bytes = content
  makeDirectory_ok (path : Path) (s next : σ) :
    (FileSystem.makeDirectory path : ExceptT OsError (StateM σ) Unit).run s = (.ok (), next) →
      (disk s).MakesDirectory path (disk next)
  makeDirectory_error (path : Path) (s next : σ) (e : OsError) :
    (FileSystem.makeDirectory path : ExceptT OsError (StateM σ) Unit).run s = (.error e, next) →
      disk next = disk s
  write_ok (path : Path) (bytes : List UInt8) (s next : σ) :
    (FileSystem.write path bytes : ExceptT OsError (StateM σ) Unit).run s = (.ok (), next) →
      (disk s).Writes path bytes (disk next)
  write_error (path : Path) (bytes : List UInt8) (s next : σ) (e : OsError) :
    (FileSystem.write path bytes : ExceptT OsError (StateM σ) Unit).run s = (.error e, next) →
      disk next = disk s ∨
        ∃ written, written <+: bytes ∧ (disk s).Writes path written (disk next)
  /-- Nothing is said about directories that are moved. -/
  rename_ok (source target : Path) (s next : σ) :
    (FileSystem.rename source target : ExceptT OsError (StateM σ) Unit).run s = (.ok (), next) →
      (∀ l, (disk s).locate false source = .ok l → (disk s).at? l ≠ some .directory) →
        (disk s).Renames source target (disk next)
  rename_error (source target : Path) (s next : σ) (e : OsError) :
    (FileSystem.rename source target : ExceptT OsError (StateM σ) Unit).run s = (.error e, next) →
      disk next = disk s
  remove_ok (path : Path) (s next : σ) :
    (FileSystem.remove path : ExceptT OsError (StateM σ) Unit).run s = (.ok (), next) →
      (disk s).Removes path (disk next)
  remove_error (path : Path) (s next : σ) (e : OsError) :
    (FileSystem.remove path : ExceptT OsError (StateM σ) Unit).run s = (.error e, next) →
      disk next = disk s

/-- An operation of a world that changes its tree does so or fails. -/
theorem World.run_change (f : FileTree → Except OsError FileTree) (world : World) :
    (World.change f).run world =
      match f world.tree with
      | .ok tree => (.ok (), { world with tree })
      | .error e => (.error e, world) :=
  rfl

section
variable {f : FileTree → Except OsError FileTree} {world next : World}

theorem World.tree_of_change_eq_ok (h : (World.change f).run world = (.ok (), next)) :
    f world.tree = .ok next.tree := by
  rw [run_change] at h
  cases hf : f world.tree with
  | error e =>
      rw [hf] at h
      cases h
  | ok tree =>
      rw [hf] at h
      cases h
      rfl

theorem World.of_change_eq_error {e : OsError} (h : (World.change f).run world = (.error e, next)) :
    f world.tree = .error e ∧ next = world := by
  rw [run_change] at h
  cases hf : f world.tree with
  | error e =>
      rw [hf] at h
      cases h
      exact ⟨rfl, rfl⟩
  | ok tree =>
      rw [hf] at h
      cases h

theorem World.tree_of_change_eq_error {e : OsError}
    (h : (World.change f).run world = (.error e, next)) : next.tree = world.tree := by
  rw [(World.of_change_eq_error h).2]

theorem World.read_of_content? {path : Path} {bytes content : List UInt8}
    (h : (FileSystem.read path : ExceptT OsError (StateM World) (List UInt8)).run world =
      (.ok bytes, next)) (hcontent : world.tree.disk.content? path = some content) :
    bytes = content := by
  have hread : world.tree.read path = .ok bytes := congrArg Prod.fst h
  exact Except.ok.inj (hread.symm.trans (FileTree.read_of_content? hcontent))

end

instance : FileMachine World where
  disk world := world.tree.disk
  looking := ⟨fun _ _ => rfl, fun _ _ => rfl, fun _ _ => rfl, fun _ _ => rfl, fun _ _ => rfl,
    fun _ _ => rfl, fun _ => rfl⟩
  read_ok _ _ _ _ _ := World.read_of_content?
  makeDirectory_ok _ _ _ h := FileTree.makesDirectory_of_ok (World.tree_of_change_eq_ok h)
  makeDirectory_error _ _ _ _ h := congrArg FileTree.disk (World.tree_of_change_eq_error h)
  write_ok _ _ _ _ h := (FileTree.writes_of_ok (World.tree_of_change_eq_ok h)).2
  write_error _ _ _ _ _ h := .inl (congrArg FileTree.disk (World.tree_of_change_eq_error h))
  rename_ok _ _ _ _ h _ := FileTree.renames_of_ok (World.tree_of_change_eq_ok h)
  rename_error _ _ _ _ _ h := congrArg FileTree.disk (World.tree_of_change_eq_error h)
  remove_ok _ _ _ h := FileTree.removes_of_ok (World.tree_of_change_eq_ok h)
  remove_error _ _ _ _ h := congrArg FileTree.disk (World.tree_of_change_eq_error h)

/-! ## Worlds with faults -/

/-- A fault of a disk: an error, and how many bytes of a write get to the file all the same. -/
structure Fault where
  error : OsError
  written : Nat := 0

/-- A world whose disk has faults. -/
structure FaultyWorld where
  world : World
  /-- The faults that the changes to come meet, if any. -/
  faults : List (Option Fault) := []

namespace FaultyWorld

/-- What can be done in the world inside. -/
def inside {α : Type} (x : StateM World α) : StateM FaultyWorld α :=
  fun s => ((x s.world).1, { s with world := (x s.world).2 })

/-- A change that may meet a fault, and what it leaves then. -/
def change (f : FileTree → Except OsError FileTree) (part : Nat → FileTree → FileTree) :
    ExceptT OsError (StateM FaultyWorld) Unit :=
  ExceptT.mk fun s =>
    match s.faults.head?.join with
    | some fault =>
      (.error fault.error,
        ⟨{ s.world with tree := part fault.written s.world.tree }, s.faults.tail⟩)
    | none =>
      (((World.change f).run s.world).1, ⟨((World.change f).run s.world).2, s.faults.tail⟩)

/-- A change that is not done in part. -/
def changeWhole (f : FileTree → Except OsError FileTree) :
    ExceptT OsError (StateM FaultyWorld) Unit :=
  change f fun _ tree => tree

instance : FileSystem (StateM FaultyWorld) where
  isPresent path := inside (FileSystem.isPresent path)
  isDirectory path := inside (FileSystem.isDirectory path)
  read path := ExceptT.mk (inside (FileSystem.read path).run)
  makeDirectory path := changeWhole (·.makeDirectory path)
  write path bytes := change (·.write path bytes) fun count tree =>
    match tree.write path (bytes.take count) with
    | .ok written => written
    | .error _ => tree
  rename source target := changeWhole (·.rename source target)
  remove path := changeWhole (·.remove path)

instance : Reporting (StateM FaultyWorld) where
  report events := inside (Reporting.report events)

instance : Terminal (StateM FaultyWorld) where
  print text := inside (Terminal.print text)
  complain text := inside (Terminal.complain text)
  clock := inside Terminal.clock

/-- The choice is made by the lines of the input, as in the world inside. -/
def choose : Chooser (StateM FaultyWorld) := fun scope named =>
  ExceptT.mk (inside (World.choose scope named).run)

section
variable {f : FileTree → Except OsError FileTree} {part : Nat → FileTree → FileTree}
  {s next : FaultyWorld}

theorem run_change_of_fault {fault : Fault} (h : s.faults.head?.join = some fault) :
    (change f part).run s = (.error fault.error,
      ⟨{ s.world with tree := part fault.written s.world.tree }, s.faults.tail⟩) := by
  rw [change, ExceptT.run_mk, h]

theorem run_change_of_no_fault (h : s.faults.head?.join = none) :
    (change f part).run s =
      (((World.change f).run s.world).1, ⟨((World.change f).run s.world).2, s.faults.tail⟩) := by
  rw [change, ExceptT.run_mk, h]

theorem tree_of_change_eq_ok (h : (change f part).run s = (.ok (), next)) :
    f s.world.tree = .ok next.world.tree := by
  rcases hfault : s.faults.head?.join with - | fault
  · rw [run_change_of_no_fault hfault] at h
    rcases hinside : (World.change f).run s.world with ⟨outcome, world⟩
    rw [hinside] at h
    cases h
    exact World.tree_of_change_eq_ok hinside
  · rw [run_change_of_fault hfault] at h
    cases h

theorem tree_of_change_eq_error {e : OsError} (h : (change f part).run s = (.error e, next)) :
    next.world.tree = s.world.tree ∨ ∃ count, next.world.tree = part count s.world.tree := by
  rcases hfault : s.faults.head?.join with - | fault
  · rw [run_change_of_no_fault hfault] at h
    rcases hinside : (World.change f).run s.world with ⟨outcome, world⟩
    rw [hinside] at h
    cases h
    exact .inl (World.tree_of_change_eq_error hinside)
  · rw [run_change_of_fault hfault] at h
    cases h
    exact .inr ⟨fault.written, rfl⟩

theorem tree_of_changeWhole_eq_ok (h : (changeWhole f).run s = (.ok (), next)) :
    f s.world.tree = .ok next.world.tree :=
  tree_of_change_eq_ok h

theorem tree_of_changeWhole_eq_error {e : OsError} (h : (changeWhole f).run s = (.error e, next)) :
    next.world.tree = s.world.tree := by
  rcases tree_of_change_eq_error h with hsame | ⟨-, hsame⟩
  · exact hsame
  · exact hsame

end

/-- A write that meets a fault leaves the file as it was or with the first of the bytes. -/
theorem writes_of_write_eq_error {path : Path} {bytes : List UInt8} {s next : FaultyWorld}
    {e : OsError} (h : (FileSystem.write path bytes :
      ExceptT OsError (StateM FaultyWorld) Unit).run s = (.error e, next)) :
    next.world.tree.disk = s.world.tree.disk ∨ ∃ written, written <+: bytes ∧
      s.world.tree.disk.Writes path written next.world.tree.disk := by
  rcases tree_of_change_eq_error h with hsame | ⟨count, hpart⟩
  · exact .inl (congrArg FileTree.disk hsame)
  · cases hwrite : s.world.tree.write path (bytes.take count) with
    | error e =>
        rw [hwrite] at hpart
        exact .inl (congrArg FileTree.disk hpart)
    | ok written =>
        rw [hwrite] at hpart
        have hwritten := FileTree.writes_of_ok hwrite
        exact .inr ⟨bytes.take count, List.take_prefix count bytes, hpart ▸ hwritten.2⟩

theorem read_of_content? {path : Path} {bytes content : List UInt8} {s next : FaultyWorld}
    (h : (FileSystem.read path : ExceptT OsError (StateM FaultyWorld) (List UInt8)).run s =
      (.ok bytes, next)) (hcontent : s.world.tree.disk.content? path = some content) :
    bytes = content := by
  have hread : s.world.tree.read path = .ok bytes := congrArg Prod.fst h
  exact Except.ok.inj (hread.symm.trans (FileTree.read_of_content? hcontent))

instance : FileMachine FaultyWorld where
  disk s := s.world.tree.disk
  looking := ⟨fun _ _ => rfl, fun _ _ => rfl, fun _ _ => rfl, fun _ _ => rfl, fun _ _ => rfl,
    fun _ _ => rfl, fun _ => rfl⟩
  read_ok _ _ _ _ _ := read_of_content?
  makeDirectory_ok _ _ _ h := FileTree.makesDirectory_of_ok (tree_of_changeWhole_eq_ok h)
  makeDirectory_error _ _ _ _ h := congrArg FileTree.disk (tree_of_changeWhole_eq_error h)
  write_ok _ _ _ _ h := (FileTree.writes_of_ok (tree_of_change_eq_ok h)).2
  write_error _ _ _ _ _ := writes_of_write_eq_error
  rename_ok _ _ _ _ h _ := FileTree.renames_of_ok (tree_of_changeWhole_eq_ok h)
  rename_error _ _ _ _ _ h := congrArg FileTree.disk (tree_of_changeWhole_eq_error h)
  remove_ok _ _ _ h := FileTree.removes_of_ok (tree_of_changeWhole_eq_ok h)
  remove_error _ _ _ _ h := congrArg FileTree.disk (tree_of_changeWhole_eq_error h)

end FaultyWorld

end FieldMap
