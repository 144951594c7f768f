import FieldMap.Text.Quoted

/-!
# What is reported along the way

Reading, compiling and writing report events besides their result.  An event is
kept as data until it is shown, so that what happened can be told from how it is
worded, and so that a reader who asks for the warnings alone pays nothing for the
rest.
-/

namespace FieldMap

/-- How much an event matters; the first level matters most. -/
inductive Level
  | error | warn | info | debug | trace
  deriving DecidableEq, Repr

namespace Level

/-- The place of a level in the order of importance. -/
def rank : Level → Nat
  | error => 1
  | warn => 2
  | info => 3
  | debug => 4
  | trace => 5

/-- The name of a level in front of an event. -/
def label : Level → String
  | error => "ERROR"
  | warn => "WARN"
  | info => "INFO"
  | debug => "DEBUG"
  | trace => "TRACE"

end Level

/-- Something worth reporting. -/
inductive Event
  /-- A struct was read, with so many members. -/
  | structParsed (name : String) (members : Nat)
  /-- A member of the struct just read. -/
  | memberParsed (name typeName : String) (count : Option Nat)
  /-- The body of a struct ends at a line that is neither a field nor a closing brace. -/
  | bodyEndsAtLine (file : String) (line : Nat) (structName text : String) (kept : Nat)
  /-- The body of a struct ends at something else than a field on its own first line. -/
  | bodyEndsAtField (file : String) (line : Nat) (structName text : String)
  /-- The text ends inside the body of a struct. -/
  | bodyNotClosed (file structName : String)
  /-- A primitive was added to a registry. -/
  | primitiveRegistered (name : String) (size : Nat) (file : String)
  /-- A schema file was read. -/
  | schemaLoaded (structs : Nat) (path : String)
  /-- A schema file was named twice. -/
  | schemaSkipped (path : String)
  /-- No struct has the wanted name. -/
  | structNotFound (name : String) (suggestion : Option String)
  /-- A struct is being expanded; the trail leads to it from the target, innermost first. -/
  | expanding (trail : List String)
  /-- A size was appended to the size table. -/
  | leafPlaced (structName member : String) (index size : Nat)
  /-- A target was compiled. -/
  | structCompiled (name : String) (sizes properties : Nat)
  /-- A mapping file was read. -/
  | mappingLoaded (path : String) (bytes : Nat)
  /-- A mapping file was written. -/
  | mappingWritten (bytes : Nat) (path : String)
  /-- The chosen target was compiled within so many milliseconds. -/
  | targetCompiled (name : String) (millis : Nat)
  /-- The run is over after so many milliseconds. -/
  | runFinished (millis : Nat)
  deriving DecidableEq, Repr

namespace Event

/-- How much an event matters. -/
def level : Event → Level
  | bodyEndsAtLine .. | bodyEndsAtField .. | bodyNotClosed .. => .warn
  | schemaLoaded .. | mappingWritten .. | targetCompiled .. => .info
  | leafPlaced .. => .trace
  | structParsed .. | memberParsed .. | primitiveRegistered .. | schemaSkipped ..
  | structNotFound .. | expanding .. | structCompiled .. | mappingLoaded ..
  | runFinished .. => .debug

/-- A repeat count in brackets, or nothing. -/
def showCount : Option Nat → String
  | some count => s!"[{count}]"
  | none => ""

/-- A suggestion as a value that may be absent. -/
def showSuggestion : Option String → String
  | some name => "Some(" ++ Text.quote name ++ ")"
  | none => "None"

/-- The names of a trail, outermost first. -/
def showTrail (trail : List String) : String :=
  " -> ".intercalate trail.reverse

/-- The wording of an event. -/
def message : Event → String
  | structParsed name members => s!"parsed struct {name} ({members} members)"
  | memberParsed name typeName count => s!"\t{name} : {typeName}{showCount count}"
  | bodyEndsAtLine file line structName text kept =>
    s!"{file}:{line}: body of struct '{structName}' ends at unrecognized line '{text}' " ++
      s!"({kept} members kept)"
  | bodyEndsAtField file line structName text =>
    s!"{file}:{line}: body of struct '{structName}' ends at unrecognized field '{text}'"
  | bodyNotClosed file structName =>
    s!"{file}: struct '{structName}' is not closed before end of file"
  | primitiveRegistered name size file => s!"registered primitive {name} ({size} bytes) from {file}"
  | schemaLoaded structs path => s!"loaded {structs} structs from {path}"
  | schemaSkipped path => s!"skipping already loaded schema {path}"
  | structNotFound name suggestion =>
    s!"struct {name} not found, closest match {showSuggestion suggestion}"
  | expanding trail => s!"expanding {showTrail trail}"
  | leafPlaced structName member index size =>
    s!"leaf {structName}.{member} -> #{index} ({size} bytes)"
  | structCompiled name sizes properties =>
    s!"compiled {name}: {sizes} sizes, {properties} top-level properties"
  | mappingLoaded path bytes => s!"loaded mapping {path} ({bytes} bytes)"
  | mappingWritten bytes path => s!"wrote {bytes} bytes to {path}"
  | targetCompiled name millis => s!"compiled {name} in {millis} ms"
  | runFinished millis => s!"marshall-gen finished in {millis} ms"

/-- The event matters at least as much as the level. -/
def isShownAt (level : Level) (event : Event) : Bool :=
  event.level.rank ≤ level.rank

/-- The line that shows an event. -/
def line (event : Event) : String :=
  s!"[{event.level.label}] {event.message}"

end Event
end FieldMap
