import FieldMap.Disk

/-!
# File trees held in memory

A file tree is a disk with a finite number of entries, held in a list.  The
operations do on it what those of POSIX do: they follow a link at the end of a path or
mean the link itself, a file that is written changes under all its names, and nothing
happens when one name of a file is moved to another name of the same file.

A tree refuses only what its entries and the limits on paths give a reason for.
There is nothing in it that could forbid an operation, or keep it from being
finished.  Two things are simpler than they could be: a special file swallows what is
written to it and nothing can be read from it, and a directory is never moved.
-/

namespace FieldMap

/-- The entries below the root, and the directory that relative paths start from. -/
structure FileTree where
  entries : List (Location × Disk.Entry) := []
  workingDirectory : Location := []
  deriving DecidableEq, Repr

/-- What a listing shows of an entry. -/
inductive FileEntry
  | directory
  | file (bytes : List UInt8)
  deriving DecidableEq, Repr

namespace FileTree

/-- The disk that a tree stands for. -/
def disk (tree : FileTree) : Disk where
  entries location := (tree.entries.find? (·.1 == location)).map (·.2)
  workingDirectory := tree.workingDirectory

/-- The tree with nothing at a location. -/
def erase (tree : FileTree) (location : Location) : FileTree :=
  { tree with entries := tree.entries.filter (·.1 != location) }

/-- The tree with an entry at a location, instead of the one that may be there. -/
def put (tree : FileTree) (location : Location) (entry : Disk.Entry) : FileTree :=
  { tree with entries := (location, entry) :: (tree.erase location).entries }

/-- The tree with other bytes in the file with a number. -/
def fill (tree : FileTree) (number : Nat) (bytes : List UInt8) : FileTree :=
  { tree with entries := tree.entries.map fun (location, entry) =>
      (location, entry.fill number bytes) }

/-- A number above all that are in use. -/
def freshNumber (tree : FileTree) : Nat :=
  tree.entries.foldr (fun (_, entry) bound =>
    match entry with
    | .directory => bound
    | .inode number _ => max bound (number + 1)) 0

/-- What a path leads to.  A path that ends in a slash means a directory. -/
def entry (tree : FileTree) (path : Path) : Except OsError Disk.Entry :=
  match tree.disk.locate true path with
  | .error e => .error e
  | .ok location =>
    match tree.disk.at? location with
    | none => .error .noEntry
    | some .directory => .ok .directory
    | some entry => if path.endsInSlash then .error .notDirectory else .ok entry

/-- There is something where the path leads. -/
def isPresent (tree : FileTree) (path : Path) : Bool :=
  match tree.entry path with
  | .ok _ => true
  | .error _ => false

/-- There is a directory where the path leads. -/
def isDirectory (tree : FileTree) (path : Path) : Bool :=
  match tree.entry path with
  | .ok .directory => true
  | _ => false

/-- The bytes of a file. -/
def read (tree : FileTree) (path : Path) : Except OsError (List UInt8) :=
  match tree.entry path with
  | .error e => .error e
  | .ok .directory => .error .isDirectory
  | .ok (.inode _ (.file bytes)) => .ok bytes
  | .ok (.inode ..) => .ok []

/-- The tree with a file of these bytes. -/
def write (tree : FileTree) (path : Path) (bytes : List UInt8) : Except OsError FileTree :=
  match tree.disk.locate (!path.endsInSlash) path with
  | .error e => .error e
  | .ok location =>
    if path.endsInSlash then .error .isDirectory
    else
      match tree.disk.at? location with
      | none => .ok (tree.put location (.inode tree.freshNumber (.file bytes)))
      | some .directory => .error .isDirectory
      | some (.inode number (.file _)) => .ok (tree.fill number bytes)
      | some (.inode ..) => .ok tree

/-- The tree with one more directory. -/
def makeDirectory (tree : FileTree) (path : Path) : Except OsError FileTree :=
  match tree.disk.locate false path with
  | .error e => .error e
  | .ok location =>
    match tree.disk.at? location with
    | some _ => .error .alreadyThere
    | none => .ok (tree.put location .directory)

/-- The tree with a file moved to another path.  Neither path may end in dots,
and the second may be neither a directory nor written like one. -/
def rename (tree : FileTree) (source target : Path) : Except OsError FileTree :=
  match tree.disk.locate false source, tree.disk.locate false target with
  | .error e, _ => .error e
  | .ok _, .error e => .error e
  | .ok start, .ok goal =>
    if source.endsInDots || target.endsInDots then .error .busy
    else
      match tree.disk.at? start with
      | some (.inode number inode) =>
        if source.endsInSlash || target.endsInSlash then .error .notDirectory
        else if tree.disk.at? goal = some .directory then .error .isDirectory
        else if tree.disk.at? goal = tree.disk.at? start then .ok tree
        else .ok ((tree.erase start).put goal (.inode number inode))
      | _ => .error .noEntry

/-- The tree without one name of a file. -/
def remove (tree : FileTree) (path : Path) : Except OsError FileTree :=
  match tree.disk.locate false path with
  | .error e => .error e
  | .ok location =>
    match tree.disk.at? location with
    | none => .error .noEntry
    | some .directory => .error .isDirectory
    | some (.inode ..) =>
      if path.endsInSlash then .error .notDirectory else .ok (tree.erase location)

/-- The directories and regular files below a directory, by the names on the way from
there, in the order of their written paths. -/
def below (tree : FileTree) (directory : Location) : List (String × FileEntry) :=
  let inside := tree.entries.filterMap fun (location, entry) =>
    if directory.isPrefixOf location && directory.length < location.length then
      let path := "/".intercalate (location.drop directory.length)
      match entry with
      | .directory => some (path, .directory)
      | .inode _ (.file bytes) => some (path, .file bytes)
      | .inode .. => none
    else none
  inside.mergeSort fun a b => a.1 ≤ b.1

/-- A tree with nothing but the way to the working directory. -/
def bare (workingDirectory : Location) : FileTree where
  entries := (List.range workingDirectory.length).map fun above =>
    (workingDirectory.take (above + 1), .directory)
  workingDirectory := workingDirectory

end FileTree
end FieldMap
