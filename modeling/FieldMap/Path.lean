import FieldMap.Text.Lines

/-!
# Paths

A path is kept as it was written, because that is how it is shown.  Two readings
of it matter.  Its *segments* are what a file system walks along: the texts
between slashes, empty ones left out.  Its *parts* are what identifies it
lexically: the segments without the single dots, except for one at the very
start, so that `a//b`, `a/./b` and `a/b/` are one path and `./a` is another than
`a`.  A double dot is never resolved lexically.
-/

namespace FieldMap

/-- A path as it was written. -/
structure Path where
  text : String
  deriving DecidableEq, Repr

namespace Path

/-- The texts between slashes, in order. -/
def pieces (path : Path) : List String :=
  (Text.split '/' path.text.toList).map String.ofList

/-- The path starts at the root. -/
def isAbsolute (path : Path) : Bool :=
  path.text.toList.head? == some '/'

/-- The path ends in a slash. -/
def endsInSlash (path : Path) : Bool :=
  path.text.toList.getLast? == some '/'

/-- The path holds a NUL, which no file system accepts. -/
def holdsNul (path : Path) : Bool :=
  path.text.toList.any (·.toNat == 0)

/-- The steps that a file system takes along the path. -/
def segments (path : Path) : List String :=
  path.pieces.filter (· ≠ "")

/-- The segments that identify the path. -/
def parts (path : Path) : List String :=
  match path.segments with
  | [] => []
  | first :: rest =>
    let rest := rest.filter (· ≠ ".")
    if first = "." && path.isAbsolute then rest else first :: rest

/-- The same path, however it is written. -/
def isSame (a b : Path) : Bool :=
  a.isAbsolute == b.isAbsolute && a.parts == b.parts

/-- A piece that takes no step. -/
def isIdle (piece : String) : Bool :=
  piece = "" || piece = "."

/-- Pieces, the last one first, from the last one that takes a step.  The very
first piece of a path stays in any case: it is the root, or a dot that counts. -/
def dropIdle : List String → List String
  | piece :: before :: rest =>
    if isIdle piece then dropIdle (before :: rest) else piece :: before :: rest
  | pieces => pieces

/-- The path without its last part, otherwise as it was written; the root and the
empty path have none. -/
def parent? (path : Path) : Option Path :=
  match dropIdle path.pieces.reverse with
  | [] | [""] => none
  | [_] => some ⟨""⟩
  | _ :: before =>
    match dropIdle before with
    | [""] => some ⟨"/"⟩
    | before => some ⟨"/".intercalate before.reverse⟩

/-- The paths that pieces, the last one first, lead to one after the other. -/
def chainOf : List String → List Path
  | [] => []
  | [first] => if first = "" then [] else [⟨first⟩]
  | piece :: before :: rest =>
    if isIdle piece then chainOf (before :: rest)
    else ⟨"/".intercalate (piece :: before :: rest).reverse⟩ :: chainOf (before :: rest)

/-- The path and the paths above it, innermost first, each as it was written.  The
root and the empty path are left out. -/
def chain (path : Path) : List Path :=
  chainOf path.pieces.reverse

/-- The last part, if it names an entry of its own. -/
def fileName? (path : Path) : Option String :=
  match path.parts.getLast? with
  | some name => if name = "." || name = ".." then none else some name
  | none => none

/-- The path with a name behind it. -/
def join (path : Path) (name : String) : Path :=
  if path.text = "" || path.endsInSlash then ⟨path.text ++ name⟩
  else ⟨path.text ++ "/" ++ name⟩

/-- The path with another last part, or with one more if the last part names no
entry of its own. -/
def withFileName (path : Path) (name : String) : Path :=
  match path.fileName? with
  | some _ => (path.parent?.getD path).join name
  | none => path.join name

/-- A file name before its last dot and after it.  A name without a dot, or with
its only dot at the start, has no extension. -/
def splitExtension (name : String) : String × Option String :=
  let (extension, stem) := name.toList.reverse.span (· != '.')
  match stem with
  | [] | [_] => (name, none)
  | _ :: stem => (String.ofList stem.reverse, some (String.ofList extension.reverse))

/-- The extension of the file name. -/
def extension? (path : Path) : Option String :=
  path.fileName?.bind fun name => (splitExtension name).2

/-- The text before the file name, the file name, and whether anything follows it. -/
def locateFileName? (path : Path) : Option (String × String × Bool) :=
  let reversed := path.pieces.reverse
  match reversed.dropWhile fun piece => piece = "" || piece = "." with
  | [] => none
  | name :: before =>
    if name = ".." then none
    else
      let lead := before.reverse.foldl (fun text piece => text ++ piece ++ "/") ""
      some (lead, name, before.length + 1 < reversed.length)

/-- The path with its extension replaced, or added.  Whatever follows the file
name is dropped.  The extension is cut off before the stem is looked at, so a name
such as `..x`, which without its extension is a double dot, ends up as that. -/
def withExtension (path : Path) (extension : String) : Path :=
  match path.locateFileName? with
  | none => path
  | some (lead, name, followed) =>
    match splitExtension name with
    | (".", some _) =>
      if followed then ⟨lead ++ ".." ++ extension⟩ else ⟨lead ++ ".."⟩
    | (stem, _) => ⟨lead ++ stem ++ "." ++ extension⟩

end Path
end FieldMap
