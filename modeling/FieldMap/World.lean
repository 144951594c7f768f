import FieldMap.FileTree
import FieldMap.Run

/-!
# A run in memory

A world holds all that a run can read or change: a file tree, the lines of the
standard input, and what has been shown.  Running in it is a pure function, and
no time passes in it.
-/

namespace FieldMap

/-- Something shown on the standard error. -/
inductive Notice
  | event (event : Event)
  | complaint (text : String)
  deriving DecidableEq, Repr

/-- All that a run can read or change. -/
structure World where
  tree : FileTree := {}
  /-- The lines of the standard input that have not been read. -/
  input : List (List UInt8) := []
  /-- The standard output so far. -/
  output : String := ""
  /-- What was shown on the standard error, newest first. -/
  notices : List Notice := []
  deriving DecidableEq, Repr

namespace World

/-- Looks something up in the file tree. -/
def ask {α : Type} (f : FileTree → α) : StateM World α :=
  fun world => (f world.tree, world)

/-- Changes the file tree, or leaves it as it is and fails. -/
def change (f : FileTree → Except OsError FileTree) : ExceptT OsError (StateM World) Unit :=
  ExceptT.mk fun world =>
    match f world.tree with
    | .ok tree => (.ok (), { world with tree })
    | .error e => (.error e, world)

/-- Shows something on the standard error. -/
def notify (notices : List Notice) : StateM World Unit :=
  fun world => ((), { world with notices := notices.reverseAux world.notices })

instance : FileSystem (StateM World) where
  isPresent path := ask (·.isPresent path)
  isDirectory path := ask (·.isDirectory path)
  read path := ExceptT.mk (ask (·.read path))
  makeDirectory path := change (·.makeDirectory path)
  write path bytes := change (·.write path bytes)
  rename source target := change (·.rename source target)
  remove path := change (·.remove path)

instance : Reporting (StateM World) where
  report events := notify (events.map .event)

instance : Terminal (StateM World) where
  print text := fun world => ((), { world with output := world.output ++ text })
  complain text := notify [.complaint text]
  clock := pure 0

/-- Chooses a target by the lines of the standard input. -/
def choose : Chooser (StateM World) := fun scope named =>
  ExceptT.mk fun world =>
    let selection := select scope named world.input
    (selection.result,
      { world with
        input := selection.rest
        output := world.output ++ selection.shown
        notices := selection.events.map Notice.event ++ world.notices })

/-- The events so far, in order. -/
def events (world : World) : List Event :=
  world.notices.reverse.filterMap fun notice =>
    match notice with
    | .event event => some event
    | .complaint _ => none

/-- The lines of the standard error when events are shown up to a level. -/
def errorLines (world : World) (level : Option Level) : List String :=
  world.notices.reverse.filterMap fun notice =>
    match notice, level with
    | .complaint text, _ => some text
    | .event event, some level => if event.isShownAt level then some event.line else none
    | .event _, none => none

/-- A whole run in this world. -/
def execute (options : Options) (world : World) : UInt32 × World :=
  FieldMap.execute choose options world

end World
end FieldMap
