import FieldMap.Event

/-!
# Schemas

A schema is a list of structs, and a struct an ordered list of members.  A member
names its type and may carry a repeat count in brackets; leaving the count out
and writing `[1]` describe the same data but stay apart in print.

    Player :: struct {
        position : Vec2,
        name : u8[16],
    }
-/

namespace FieldMap

/-- A member of a struct. -/
structure Member where
  name : String
  typeName : String
  /-- The bracketed repeat count, if there is one. -/
  count : Option Nat := none
  /-- The line of the declaration, 0 if it has none. -/
  line : Nat := 0
  deriving DecidableEq, Repr

/-- How many values of its type a member holds. -/
def Member.copies (member : Member) : Nat :=
  member.count.getD 1

/-- A named, ordered list of members. -/
structure Struct where
  name : String
  /-- The line of the header, 0 if it has none. -/
  line : Nat := 0
  members : List Member := []
  deriving DecidableEq, Repr

namespace Struct

/-- The first member of that name. -/
def member? (s : Struct) (name : String) : Option Member :=
  s.members.find? (·.name == name)

/-- The struct with one more member at its end. -/
def addMember (s : Struct) (member : Member) : Struct :=
  { s with members := s.members ++ [member] }

end Struct

/-- The line of a listing that declares a member. -/
def Member.listing (member : Member) : String :=
  s!"    {member.name} : {member.typeName}{Event.showCount member.count},"

/-- The declaration of a struct, as it is listed. -/
def Struct.listing (s : Struct) : String :=
  s.members.foldl (fun text member => text ++ member.listing ++ "\n")
    (s.name ++ " :: struct \x7b\n") ++ "\x7d"

/-- The declarations of structs, each followed by an empty line. -/
def Schema.listing (structs : List Struct) : String :=
  structs.foldl (fun text s => text ++ s.listing ++ "\n\n") ""

end FieldMap
