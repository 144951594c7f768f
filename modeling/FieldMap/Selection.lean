import FieldMap.Compile
import FieldMap.Failure

/-!
# Choosing a target by name

The name of a struct is asked for until one is given that the schema has.  A blank
line is asked over again, an unknown name is answered with the closest known one,
and the end of the input, or a line that is not text, is a failure.  What is
compiled then is the whole answer: a struct that breaks a rule is not asked for
again.
-/

namespace FieldMap

/-- What is shown before a line is read. -/
def prompt : String := "Struct to parse: "

/-- What becomes of a line. -/
inductive Reply
  /-- The name is asked for again, after this has been shown. -/
  | again (shown : String)
  | chosen (target : String) (mapping : Mapping)
  | failed (failure : Failure)

/-- The reply to one line. -/
def reply (scope : Scope) (named : Bool) (line : List UInt8) : List Event × Reply :=
  match Text.Utf8.decode line with
  | .error _ => ([], .failed (.input .notUtf8))
  | .ok text =>
    let name := String.ofList (Text.trim text.toList)
    if name = "" then ([], .again "")
    else
      let compiled := compile scope name named
      match compiled.result with
      | .ok mapping => (compiled.events, .chosen name mapping)
      | .error (.notFound name suggestion) =>
        (compiled.events, .again ((CompileError.notFound name suggestion).message ++ "\n"))
      | .error e => (compiled.events, .failed (.compile e))

/-- How a choice went. -/
structure Selection where
  /-- All that was shown. -/
  shown : String
  /-- The events, newest first. -/
  events : List Event
  result : Except Failure (String × Mapping)
  /-- The lines that were not read. -/
  rest : List (List UInt8)

/-- A choice that goes on after something was shown and reported. -/
def selectOnto (scope : Scope) (named : Bool) (shown : String) (events : List Event) :
    List (List UInt8) → Selection
  | [] => ⟨shown ++ prompt, events, .error .noStructSelected, []⟩
  | line :: rest =>
    match reply scope named line with
    | (more, .again text) =>
      selectOnto scope named (shown ++ prompt ++ text) (more.reverseAux events) rest
    | (more, .chosen target mapping) =>
      ⟨shown ++ prompt, more.reverseAux events, .ok (target, mapping), rest⟩
    | (more, .failed failure) =>
      ⟨shown ++ prompt, more.reverseAux events, .error failure, rest⟩

/-- The choice that the lines of an input make. -/
def select (scope : Scope) (named : Bool) (lines : List (List UInt8)) : Selection :=
  selectOnto scope named "" [] lines

end FieldMap
