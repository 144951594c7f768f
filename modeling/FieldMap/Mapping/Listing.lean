import FieldMap.Mapping

/-!
# The listing of a mapping

A mapping is shown as its size table, one entry a line, and its properties, one a
line and indented by depth.  A property with children opens a brace, which is
closed on a line of its own below them.

    Sizes (3 entries, 7 bytes):
      [0] 2
      [1] 1
      [2] 4

    Properties:
      leaf #0 y
      struct @1 z {
        leaf #1 x
        leaf #2
      }
-/

namespace FieldMap

namespace Forest

/-- The blanks in front of a property. -/
def indentation (depth : Nat) : String :=
  String.ofList (List.replicate (2 * depth) ' ')

/-- The name of a property behind a space, or nothing. -/
def label : Option String → String
  | some name => " " ++ name
  | none => ""

/-- The line of a leaf. -/
def leafLine (depth : Nat) (index : UInt16) (name : Option String) : String :=
  indentation depth ++ "leaf #" ++ toString index.toNat ++ label name

/-- The line that opens a property with children. -/
def openLine (depth : Nat) (index : UInt16) (name : Option String) : String :=
  indentation depth ++ "struct @" ++ toString index.toNat ++ label name ++ " \x7b"

/-- The line that closes a property with children. -/
def closeLine (depth : Nat) : String :=
  indentation depth ++ "\x7d"

/-- The lines of the properties, onto lines in reverse order. -/
def linesOnto (depth : Nat) (lines : List String) : Forest → List String
  | nil => lines
  | cons index name children siblings =>
    linesOnto depth
      (if children.isEmpty then leafLine depth index name :: lines
       else closeLine depth ::
         linesOnto (depth + 1) (openLine depth index name :: lines) children)
      siblings

/-- The lines of the properties. -/
def lines (depth : Nat) (f : Forest) : List String :=
  (linesOnto depth [] f).reverse

theorem linesOnto_eq (depth : Nat) (lines : List String) (f : Forest) :
    linesOnto depth lines f = (f.lines depth).reverse ++ lines := by
  unfold Forest.lines
  induction f generalizing depth lines with
  | nil => rfl
  | cons index name children siblings ihc ihs =>
    simp only [linesOnto]
    rw [ihs, ihs depth (if children.isEmpty then [leafLine depth index name]
      else closeLine depth :: linesOnto (depth + 1) [openLine depth index name] children)]
    split
    · simp
    · rw [ihc, ihc _ [openLine depth index name]]
      simp

@[simp] theorem lines_nil (depth : Nat) : lines depth nil = [] := rfl

/-- A property is shown before its siblings, and its children between its braces. -/
theorem lines_cons (depth : Nat) (index : UInt16) (name : Option String)
    (children siblings : Forest) :
    lines depth (cons index name children siblings) =
      (if children.isEmpty then [leafLine depth index name]
       else openLine depth index name :: lines (depth + 1) children ++ [closeLine depth]) ++
        lines depth siblings := by
  show (linesOnto depth _ siblings).reverse = _
  rw [linesOnto_eq]
  split
  · simp
  · simp [linesOnto_eq]

end Forest

namespace Mapping

/-- The line of an entry of the size table. -/
def sizeLine (entry : UInt8 × Nat) : String :=
  s!"  [{entry.2}] {entry.1.toNat}"

/-- The lines of the listing. -/
def listing (m : Mapping) : List String :=
  s!"Sizes ({m.sizes.length} entries, {m.totalSize} bytes):" ::
    (m.sizes.zipIdx.map sizeLine ++ "" :: "Properties:" :: m.properties.lines 1)

/-- The listing as one text, every line ended. -/
def render (m : Mapping) : String :=
  m.listing.foldl (fun text line => text ++ line ++ "\n") ""

end Mapping
end FieldMap
