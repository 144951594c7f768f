import FieldMap.FileSystem

/-!
# Disks

A disk is what a file system looks like to one process: the entries there are, by
their location below the root, and the directory the process works in.  An entry is
a directory or a name of something else, which is a regular file, a symbolic link,
or a special file such as a pipe or a device.  What is not a directory has a number,
and all entries with this number are names of it: to write to one of them is to
write to all of them.

A path is walked along segment by segment.  Every directory on the way has to be
there, a dot stays where it is, a double dot goes up, and a symbolic link leads on
from the directory it is in, or from the root.  At the end of a path a link is
followed or is meant itself, as the operation has it.  The limits on names, paths
and links are those of `FieldMap.FileSystem`.

Owners and permissions, time stamps, room on the disk, mounts, and what other
processes do are no part of a disk.  They show only in that a machine may refuse an
operation that its disk would allow.
-/

namespace FieldMap

/-- The names on the way from the root. -/
abbrev Location := List String

/-- What an entry other than a directory is a name of. -/
inductive Inode
  | file (bytes : List UInt8)
  | link (target : Path)
  | special
  deriving DecidableEq, Repr

/-- What is at a location. -/
inductive Disk.Entry
  | directory
  | inode (number : Nat) (inode : Inode)
  deriving DecidableEq, Repr

/-- The entries below the root, and the directory that relative paths start from. -/
structure Disk where
  entries : Location → Option Disk.Entry
  workingDirectory : Location

/-- One step from a directory. -/
def step (here : Location) (segment : String) : Location :=
  if segment = "." then here
  else if segment = ".." then here.dropLast
  else here ++ [segment]

/-- The steps that a file system takes along the target of a link.  A target that ends
in a slash has to be a directory. -/
def Path.steps (target : Path) : List String :=
  target.segments ++ if target.endsInSlash then ["."] else []

/-- The last segment names no entry of its own. -/
def Path.endsInDots (path : Path) : Bool :=
  match path.segments.getLast? with
  | none => true
  | some segment => segment = "." || segment = ".."

namespace Disk

/-- The entry with other bytes, if it is a name of the regular file with the number. -/
def Entry.fill (number : Nat) (bytes : List UInt8) : Entry → Entry
  | .inode other (.file old) => .inode other (.file (if other = number then bytes else old))
  | entry => entry

variable (disk : Disk)

/-- What is at a location; the root is always a directory. -/
def at? (location : Location) : Option Entry :=
  if location = [] then some .directory else disk.entries location

/-- The number of what is at a location, unless it is a directory. -/
def number? (location : Location) : Option Nat :=
  match disk.at? location with
  | some (.inode number _) => some number
  | _ => none

/-- The target of the link at a location. -/
def link? (location : Location) : Option Path :=
  match disk.at? location with
  | some (.inode _ (.link target)) => some target
  | _ => none

/-- The bytes of the regular file at a location. -/
def bytes? (location : Location) : Option (List UInt8) :=
  match disk.at? location with
  | some (.inode _ (.file bytes)) => some bytes
  | _ => none

/-- Where segments lead.  All locations on the way are directories or links; the last
one need not be there.  A name is measured when the directory it is looked up in has
been reached.  Beyond a link the way goes on with the steps of its target. -/
def walkOn (follow : Bool) (beyond : Location → List String → Except OsError Location)
    (here : Location) : List String → Except OsError Location
  | [] => .ok here
  | segment :: rest =>
    match disk.at? here with
    | none => .error .noEntry
    | some (.inode ..) => .error .notDirectory
    | some .directory =>
      if longestName < segment.utf8ByteSize then .error .nameTooLong
      else
        match disk.link? (step here segment) with
        | none => walkOn follow beyond (step here segment) rest
        | some target =>
          if rest = [] ∧ follow = false then .ok (step here segment)
          else if target.text = "" then .error .noEntry
          else beyond (if target.isAbsolute then [] else here) (target.steps ++ rest)

/-- Where segments lead through at most so many links. -/
def walk (follow : Bool) : (links : Nat) → Location → List String → Except OsError Location
  | 0 => disk.walkOn follow fun _ _ => .error .tooManyLinks
  | links + 1 => disk.walkOn follow (walk follow links)

/-- Where the walk along a path begins. -/
def base (path : Path) : Location :=
  if path.isAbsolute then [] else disk.workingDirectory

/-- The location of a path: where it leads when a link at its end is followed, or the
location of this link. -/
def locate (follow : Bool) (path : Path) : Except OsError Location :=
  if path.holdsNul then .error .nulInName
  else if path.text = "" then .error .noEntry
  else if longestPath < path.text.utf8ByteSize then .error .nameTooLong
  else disk.walk follow mostLinks (disk.base path) path.segments

/-- The bytes of the regular file that a path leads to.  A path that ends in a slash
means a directory. -/
def content? (path : Path) : Option (List UInt8) :=
  match disk.locate true path with
  | .error _ => none
  | .ok location => if path.endsInSlash then none else disk.bytes? location

end Disk
end FieldMap
