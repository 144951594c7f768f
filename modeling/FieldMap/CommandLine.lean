import FieldMap.Event

/-!
# The command line

Options are recognised by their letter or their long name.  A value stands behind
its option, attached to a letter, or after an equals sign; an option that takes
several values takes all arguments up to the next one that begins with a dash.
Letters of options without a value may be bundled.  Every option but `-v` may be
given once, there are no other arguments, and some options exclude each other.

A single dash counts as a value.  A double dash ends the options, so that nothing
may follow it.
-/

namespace FieldMap

/-- What was asked for. -/
structure Options where
  /-- The schema files, in order. -/
  schemas : Option (List String) := none
  /-- The struct to compile. -/
  target : Option String := none
  /-- Where the mapping goes. -/
  output : Option String := none
  /-- The registry files, in order. -/
  primitives : Option (List String) := none
  /-- The mapping file to show. -/
  view : Option String := none
  /-- Properties get names. -/
  debugNames : Bool := false
  /-- The structs are listed and nothing is compiled. -/
  list : Bool := false
  /-- Only errors are reported. -/
  quiet : Bool := false
  /-- How much more than warnings is reported. -/
  verbose : Nat := 0
  deriving DecidableEq, Repr

namespace CommandLine

/-- The options that take a value. -/
inductive ValueOption
  | schemas | target | output | primitives | view
  deriving DecidableEq, Repr

/-- The options that take none. -/
inductive Switch
  | debugNames | list | quiet | verbose
  deriving DecidableEq, Repr

/-- An option of either kind. -/
inductive Flag
  | value (option : ValueOption)
  | switch (switch : Switch)
  deriving DecidableEq, Repr

/-- The option may have several values. -/
def ValueOption.isMany : ValueOption → Bool
  | schemas | primitives => true
  | target | output | view => false

/-- The option of a letter. -/
def ofLetter? : Char → Option Flag
  | 's' => some (.value .schemas)
  | 't' => some (.value .target)
  | 'o' => some (.value .output)
  | 'p' => some (.value .primitives)
  | 'v' => some (.switch .verbose)
  | 'q' => some (.switch .quiet)
  | _ => none

/-- The option of a long name. -/
def ofName? : String → Option Flag
  | "schema" => some (.value .schemas)
  | "target" => some (.value .target)
  | "out" => some (.value .output)
  | "primitives" => some (.value .primitives)
  | "view-mapping" => some (.value .view)
  | "debug-names" => some (.switch .debugNames)
  | "list" => some (.switch .list)
  | "verbose" => some (.switch .verbose)
  | "quiet" => some (.switch .quiet)
  | _ => none

/-- The values given to an option. -/
def values (options : Options) : ValueOption → Option (List String)
  | .schemas => options.schemas
  | .primitives => options.primitives
  | .target => options.target.map ([·])
  | .output => options.output.map ([·])
  | .view => options.view.map ([·])

/-- Gives an option its values, unless it has some or these are not as many as it
takes. -/
def setValues (options : Options) (option : ValueOption) (given : List String) :
    Option Options :=
  if (values options option).isSome then none
  else
    match option, given with
    | .schemas, _ :: _ => some { options with schemas := some given }
    | .primitives, _ :: _ => some { options with primitives := some given }
    | .target, [value] => some { options with target := some value }
    | .output, [value] => some { options with output := some value }
    | .view, [value] => some { options with view := some value }
    | _, _ => none

/-- Turns a switch on, unless it is on and may be given only once. -/
def turnOn (options : Options) : Switch → Option Options
  | .debugNames => if options.debugNames then none else some { options with debugNames := true }
  | .list => if options.list then none else some { options with list := true }
  | .quiet => if options.quiet then none else some { options with quiet := true }
  | .verbose => some { options with verbose := options.verbose + 1 }

/-- How far the arguments have been read. -/
structure Progress where
  options : Options := {}
  /-- The option whose values are being read, and those read, newest first. -/
  pending : Option (ValueOption × List String) := none
  /-- A double dash was met. -/
  ended : Bool := false
  deriving DecidableEq, Repr

namespace Progress

/-- The pending option gets its values. -/
def settle (progress : Progress) : Option Progress :=
  match progress.pending with
  | none => some progress
  | some (option, given) => do
    let options ← setValues progress.options option given.reverse
    some { progress with options, pending := none }

/-- An option with an attached value, or one whose values come next. -/
def meetValue (progress : Progress) (option : ValueOption) (attached : Option String) :
    Option Progress := do
  let progress ← progress.settle
  match attached with
  | some value => do
    let options ← setValues progress.options option [value]
    some { progress with options }
  | none => some { progress with pending := some (option, []) }

/-- A switch. -/
def meetSwitch (progress : Progress) (switch : Switch) : Option Progress := do
  let progress ← progress.settle
  let options ← turnOn progress.options switch
  some { progress with options }

/-- The letters behind a single dash.  Whatever follows the letter of an option
with a value is that value, with or without an equals sign between them. -/
def meetLetters (progress : Progress) : List Char → Option Progress
  | [] => some progress
  | letter :: rest => do
    match ← ofLetter? letter with
    | .switch switch =>
      let progress ← progress.meetSwitch switch
      meetLetters progress rest
    | .value option =>
      match rest with
      | [] => progress.meetValue option none
      | '=' :: value => progress.meetValue option (some (String.ofList value))
      | value => progress.meetValue option (some (String.ofList value))

/-- The name behind a double dash, and the value behind an equals sign. -/
def meetName (progress : Progress) (text : List Char) : Option Progress := do
  let (name, rest) := text.span (· != '=')
  let attached := match rest with
    | _ :: value => some (String.ofList value)
    | [] => none
  match ← ofName? (String.ofList name) with
  | .value option => progress.meetValue option attached
  | .switch switch => if attached.isSome then none else progress.meetSwitch switch

/-- An argument that is no option.  It is a value of the pending option; an option
with one value has it then. -/
def meetText (progress : Progress) (argument : String) : Option Progress :=
  match progress.pending with
  | none => none
  | some (option, given) =>
    let progress := { progress with pending := some (option, argument :: given) }
    if option.isMany then some progress else progress.settle

/-- One argument. -/
def meet (progress : Progress) (argument : String) : Option Progress :=
  if progress.ended then none
  else
    match argument.toList with
    | ['-', '-'] => some { progress with ended := true }
    | '-' :: '-' :: text => progress.meetName text
    | '-' :: letter :: letters => progress.meetLetters (letter :: letters)
    | _ => progress.meetText argument

end Progress

/-- The options go together: there is exactly one of schemas and a mapping to show,
and neither listing nor showing goes with options that say what to compile. -/
def isConsistent (options : Options) : Bool :=
  (options.schemas.isSome != options.view.isSome) &&
    !(options.list && (options.target.isSome || options.output.isSome)) &&
    !(options.view.isSome &&
      (options.target.isSome || options.output.isSome || options.primitives.isSome ||
        options.list))

/-- The options that the arguments ask for, if they are accepted. -/
def parse (arguments : List String) : Option Options := do
  let progress ← arguments.foldlM Progress.meet {}
  let progress ← progress.settle
  if isConsistent progress.options then some progress.options else none

end CommandLine

namespace Options

/-- The level that the options ask for. -/
def level (options : Options) : Level :=
  if options.quiet then .error
  else
    match options.verbose with
    | 0 => .warn
    | 1 => .info
    | 2 => .debug
    | _ => .trace

end Options

namespace Level

/-- The level that a word names, if it names one: `none` inside for no events at all. -/
def ofWord? (word : String) : Option (Option Level) :=
  match word.toLower with
  | "off" => some none
  | "error" => some (some .error)
  | "warn" => some (some .warn)
  | "info" => some (some .info)
  | "debug" => some (some .debug)
  | "trace" => some (some .trace)
  | _ => none

/-- The level in force: the one that the override names, and else the given one. -/
def inForce (level : Level) (override : Option String) : Option Level :=
  match override.bind ofWord? with
  | some choice => choice
  | none => some level

end Level
end FieldMap
