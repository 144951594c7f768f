import FieldMap.Path

/-!
# What a program asks of a file system

The operations are those of POSIX, each with its own refusals, so that the
programs built on them can be run against the real file system, against a file
tree held in memory, or against one that refuses at will.  Names and whole paths
have a greatest length, counted in bytes, no path holds a NUL, and a path leads
through a limited number of symbolic links.
-/

namespace FieldMap

/-- Why a file operation was refused. -/
inductive OsError
  | noEntry
  | alreadyThere
  | notDirectory
  | isDirectory
  | busy
  | nameTooLong
  | tooManyLinks
  | nulInName
  | other (code : Nat) (text : String)
  deriving DecidableEq, Repr

namespace OsError

/-- The number of an error; a name with a NUL is refused without one. -/
def code? : OsError → Option Nat
  | noEntry => some 2
  | busy => some 16
  | alreadyThere => some 17
  | notDirectory => some 20
  | isDirectory => some 21
  | nameTooLong => some 36
  | tooManyLinks => some 40
  | nulInName => none
  | other code _ => some code

/-- The name of an error. -/
def text : OsError → String
  | noEntry => "No such file or directory"
  | busy => "Device or resource busy"
  | alreadyThere => "File exists"
  | notDirectory => "Not a directory"
  | isDirectory => "Is a directory"
  | nameTooLong => "File name too long"
  | tooManyLinks => "Too many levels of symbolic links"
  | nulInName => "file name contained an unexpected NUL byte"
  | other _ text => text

/-- The wording of an error. -/
def message (e : OsError) : String :=
  match e.code? with
  | some code => s!"{e.text} (os error {code})"
  | none => e.text

end OsError

/-- The greatest number of bytes in the name of an entry. -/
def longestName : Nat := 255

/-- The greatest number of bytes in a path. -/
def longestPath : Nat := 4095

/-- The greatest number of symbolic links that a path leads through. -/
def mostLinks : Nat := 40

/-- The file operations.  The first four that are listed here follow a symbolic link
at the end of their path; the others mean the link itself. -/
class FileSystem (m : Type → Type) where
  /-- There is something where the path leads. -/
  isPresent : Path → m Bool
  /-- There is a directory where the path leads. -/
  isDirectory : Path → m Bool
  /-- All bytes of a file. -/
  read : Path → ExceptT OsError m (List UInt8)
  /-- Makes a file, or replaces the bytes of one. -/
  write : Path → List UInt8 → ExceptT OsError m Unit
  /-- Makes one directory. -/
  makeDirectory : Path → ExceptT OsError m Unit
  /-- Moves a file over whatever file is at the second path. -/
  rename : Path → Path → ExceptT OsError m Unit
  /-- Removes a name of a file. -/
  remove : Path → ExceptT OsError m Unit

end FieldMap
