/-
Module: CallAtlas.Command.Arguments
Purpose: The command that a list of arguments stands for.
Main definitions: AnalyzeOptions, Task, Invocation, parseArguments
-/
import CallAtlas.Command.Switch

namespace CallAtlas.Command

/-- What to analyse, and how. -/
structure AnalyzeOptions where
  path : String
  config : Option String
  format : String
  output : Option String
  skipDirs : List String
  languages : List Language
  threads : Option Nat
  noProgress : Bool
deriving Repr, DecidableEq, Inhabited

/-- The commands. -/
inductive Task where
  | analyze (options : AnalyzeOptions)
  | languages
deriving Repr, DecidableEq, Inhabited

/-- A command, and whether it should say what it does. -/
structure Invocation where
  verbose : Bool
  task : Task
deriving Repr, DecidableEq, Inhabited

/-- What has been read and is checked when the next argument comes. -/
inductive Waiting where
  | none
  /-- A switch, and its value if it has come. -/
  | switch (s : Switch) (value : Option String)
  /-- The path. -/
  | path (value : String)
deriving Repr, DecidableEq, Inhabited

/-- Arguments that are being read. -/
structure Reading where
  /-- The switches so far with their values, the last one first. -/
  switches : List (Switch × String)
  path : Option String
  /-- Whether a path has come, checked or not. -/
  hasPath : Bool
  waiting : Waiting
  /-- Whether two hyphens have come, after which nothing is a switch. -/
  isPlain : Bool
deriving Repr, DecidableEq, Inhabited

/-- Nothing read. -/
def Reading.start : Reading := ⟨[], none, false, .none, false⟩

namespace Reading

/-- Whether a switch has been given. -/
def has (r : Reading) (s : Switch) : Bool := r.switches.any fun (t, _) => t = s

/-- The values of a switch in order. -/
def values (r : Reading) (s : Switch) : List String :=
  (r.switches.filterMap fun (t, value) => if t = s then some value else none).reverse

/-- Takes a switch with its value. -/
def accept (r : Reading) (s : Switch) (value : String) : Except UsageFault Reading :=
  if r.has s && !s.isRepeatable then .error .repeated
  else (s.check value).map fun _ => { r with switches := (s, value) :: r.switches }

/-- Checks what is waiting. -/
def settle (r : Reading) : Except UsageFault Reading :=
  let idle := { r with waiting := .none }
  match r.waiting with
  | .none => .ok r
  | .switch _ none => .error .invalidValue
  | .switch s (some value) => idle.accept s value
  | .path value => if value.isEmpty then .error .invalidValue else .ok { idle with path := some value }

/-- Takes a switch that has no value. -/
def acceptFlag (r : Reading) (s : Switch) : Except UsageFault Reading := do
  let settled ← r.settle
  match s with
  | .help => .error .helpAsked
  | .version => .error .versionAsked
  | _ => settled.accept s ""

/-- Takes a switch of a name, with the value that is attached to it, if any. -/
def takeNamed (r : Reading) (s : Switch) (attached : Option String) : Except UsageFault Reading :=
  if s.takesValue then do
    let settled ← r.settle
    match attached with
    | some value => settled.accept s value
    | none => return { settled with waiting := .switch s none }
  else if attached.isSome then .error .unneededValue
  else r.acceptFlag s

/-- Takes a row of switch letters.  What follows the letter of a switch that takes a value is the
value. -/
def takeLetters (level : Level) (r : Reading) : List Char → Except UsageFault Reading
  | [] => .ok r
  | c :: more =>
    match Switch.ofLetter? level c with
    | none => .error .unknownArgument
    | some s =>
      if s.takesValue then
        match more with
        | [] => r.takeNamed s none
        | '=' :: value => r.takeNamed s (some (String.ofList value))
        | _ => r.takeNamed s (some (String.ofList more))
      else
        match r.acceptFlag s with
        | .ok next => takeLetters level next more
        | .error fault => .error fault

end Reading

/-- The command of a name. -/
def command? (name : String) : Option Level :=
  match name with
  | "analyze" | "scan" => some .analyze
  | "languages" => some .languages
  | _ => none

/-- Whether a name may stand in the place of a command. -/
def isCommandName (name : String) : Bool := (command? name).isSome || name = "help"

/-- Takes an argument that is no switch and no value of one. -/
def Reading.takePlain (level : Level) (r : Reading) (arg : String) : Except UsageFault Reading :=
  match level with
  | .top => .error (if r.isPlain && isCommandName arg then .unknownArgument else .unknownCommand)
  | .languages => .error .unknownArgument
  | .analyze =>
    if r.hasPath then .error .unknownArgument
    else r.settle.map fun settled => { settled with hasPath := true, waiting := .path arg }

/-- Takes one argument at a level. -/
def Reading.take (level : Level) (r : Reading) (arg : String) : Except UsageFault Reading :=
  if r.isPlain then r.takePlain level arg
  else
    match arg.toList with
    | ['-', '-'] => .ok { r with isPlain := true }
    | '-' :: '-' :: long =>
      let name := long.takeWhile fun c => c != '='
      let attached :=
        if name.length < long.length then some (String.ofList (long.drop (name.length + 1)))
        else none
      match Switch.ofName? level (String.ofList name) with
      | some s => r.takeNamed s attached
      | none => .error .unknownArgument
    | '-' :: c :: more => r.takeLetters level (c :: more)
    | _ =>
      match r.waiting with
      | .switch s none => .ok { r with waiting := .switch s (some arg) }
      | _ => r.takePlain level arg

/-- Takes all arguments after a command. -/
def Reading.takeAll (level : Level) : Reading → List String → Except UsageFault Reading
  | r, [] => r.settle
  | r, arg :: more =>
    match r.take level arg with
    | .ok next => Reading.takeAll level next more
    | .error fault => .error fault

/-- What the words after `help` ask for: help on a command, if they name one. -/
def helpOn : List String → UsageFault
  | [] => .helpAsked
  | [name] => if isCommandName name then .helpAsked else .unknownCommand
  | _ => .unknownCommand

/-- The options of the analysis that arguments stand for. -/
def Reading.options (r : Reading) : Except UsageFault AnalyzeOptions :=
  match r.path with
  | none => .error .missingArgument
  | some path =>
    .ok
      { path := path
        config := (r.values .config).head?
        format := (r.values .format).head?.getD "json"
        output := (r.values .output).head?
        skipDirs := r.values .skipDir
        languages := (r.values .language).filterMap Language.ofId?
        threads := (r.values .threads).head?.bind count?
        noProgress := r.has .noProgress }

/-- Reads the arguments after a command. -/
def parseTask (level : Level) (verbose : Bool) (args : List String) :
    Except UsageFault Invocation := do
  let r ← Reading.takeAll level .start args
  let loud := verbose || r.has .verbose
  match level with
  | .analyze => return ⟨loud, .analyze (← r.options)⟩
  | _ => return ⟨loud, .languages⟩

/-- Reads the arguments up to the command, and the command. -/
def parseFrom (r : Reading) : List String → Except UsageFault Invocation
  | [] => .error (if r.has .verbose then .noCommand else .noArguments)
  | arg :: more =>
    if !r.isPlain && arg = "help" then .error (helpOn more)
    else
      match if r.isPlain then none else command? arg with
      | some level => parseTask level (r.has .verbose) more
      | none =>
        match r.take .top arg with
        | .ok next => parseFrom next more
        | .error fault => .error fault

/-- The command that a list of arguments stands for. -/
def parseArguments (args : List String) : Except UsageFault Invocation := parseFrom .start args

end CallAtlas.Command
