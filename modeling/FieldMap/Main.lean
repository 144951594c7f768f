import FieldMap.Run

/-!
# The program

The real file system, terminal and clock, and the entry point.  The level of
events is taken from the options unless the environment names another.
-/

namespace FieldMap

/-- The actions of the program, given the level up to which events are shown. -/
abbrev Shell := ReaderT (Option Level) IO

namespace Shell

/-- The refusal behind an error of the system. -/
def refusal (e : IO.Error) : OsError :=
  match e with
  | .noFileOrDirectory _ code details => ofCode code details
  | .alreadyExists _ code details => ofCode code details
  | .inappropriateType _ code details => ofCode code details
  | .permissionDenied _ code details => ofCode code details
  | .resourceBusy code details => ofCode code details
  | .invalidArgument _ code details => ofCode code details
  | .resourceExhausted _ code details => ofCode code details
  | .illegalOperation code details => ofCode code details
  | .unsupportedOperation code details => ofCode code details
  | .unsatisfiedConstraints code details => ofCode code details
  | .hardwareFault code details => ofCode code details
  | .otherError code details => ofCode code details
  | e => .other 0 (toString e)
where
  /-- The refusal of an error number, which some layers hand on with its sign changed. -/
  ofCode (code : UInt32) (details : String) : OsError :=
    let number := if code < 0x80000000 then code.toNat else (0 - code).toNat
    match [OsError.noEntry, .alreadyThere, .notDirectory, .isDirectory, .busy, .nameTooLong,
        .tooManyLinks].find? (·.code? == some number) with
    | some known => known
    | none => .other number details

/-- An action of the system with its refusal. -/
def attempt {α : Type} (action : IO α) : ExceptT OsError Shell α :=
  ExceptT.mk do
    try
      let value ← action
      pure (.ok value)
    catch e => pure (.error (refusal e))

/-- An action that answers a question, where a refusal means no.  The questions are
answered by a walk that takes one step after the other, so the length of the whole
path is looked at apart. -/
def question (action : IO Bool) : Shell Bool := do
  try action catch _ => pure false

instance : FileSystem Shell where
  isPresent path := question do
    let _ ← IO.FS.realPath path.text
    pure (path.text.utf8ByteSize ≤ longestPath)
  isDirectory path := question do
    let isDirectory ← (← IO.FS.realPath path.text).isDir
    pure (isDirectory && path.text.utf8ByteSize ≤ longestPath)
  read path := attempt do
    return (← IO.FS.readBinFile path.text).data.toList
  makeDirectory path := attempt (IO.FS.createDir path.text)
  write path bytes := attempt (IO.FS.writeBinFile path.text ⟨bytes.toArray⟩)
  rename source target := attempt (IO.FS.rename source.text target.text)
  remove path := attempt (IO.FS.removeFile path.text)

instance : Reporting Shell where
  report events := do
    match ← read with
    | none => pure ()
    | some level =>
      for event in events do
        if event.isShownAt level then IO.eprintln event.line

instance : Terminal Shell where
  print text := IO.print text
  complain text := IO.eprintln text
  clock := IO.monoMsNow

/-- One line of the standard input with its line feed; empty at the end. -/
partial def readLine (input : IO.FS.Stream) (line : ByteArray := .empty) : IO ByteArray := do
  let bytes ← input.read 1
  if bytes.isEmpty then pure line
  else if bytes.data.contains 10 then pure (line ++ bytes)
  else readLine input (line ++ bytes)

/-- Asks for a target on the terminal. -/
partial def choose : Chooser Shell := fun scope named => do
  ExceptT.lift (Terminal.print prompt)
  let line : ByteArray ← ExceptT.lift (m := Shell) do
    (← IO.getStdout).flush
    readLine (← IO.getStdin)
  if line.isEmpty then throw .noStructSelected
  else
    let (events, answer) := reply scope named line.data.toList
    ExceptT.lift (Reporting.report events)
    match answer with
    | .again text =>
      ExceptT.lift (Terminal.print text)
      choose scope named
    | .chosen target mapping => pure (target, mapping)
    | .failed failure => throw failure

end Shell
end FieldMap

/-- Runs the program and gives its exit code; arguments that are not accepted give 2. -/
def main (arguments : List String) : IO UInt32 := do
  match FieldMap.CommandLine.parse arguments with
  | none =>
    IO.eprintln "error: the arguments are not accepted"
    pure 2
  | some options =>
    let level := options.level.inForce (← IO.getEnv "RUST_LOG")
    FieldMap.execute FieldMap.Shell.choose options level
