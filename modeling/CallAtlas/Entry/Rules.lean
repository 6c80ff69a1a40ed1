/-
Module: CallAtlas.Entry.Rules
Purpose: Which functions of a file are entry points.
Main definitions: entryPoints
-/
import CallAtlas.Language
import CallAtlas.Pattern.Search
import CallAtlas.Pattern.Vocabulary
import CallAtlas.Record.EntryPoint
import CallAtlas.Text.Words

namespace CallAtlas.Entry

open Pattern

/-- The first quoted string in a decorator, for a given set of quotes. -/
def stringArgument? (quotes : String) (decorator : String) : Option String := do
  let t : Text := decorator.toList
  let pattern := anyOf quotes ++ mark .argument (noneOf quotes).star ++ anyOf quotes
  let m ← pattern.find? t
  let span ← m.group? .argument
  some (String.ofList (Text.slice t span))

/-- The quotes that a string argument may stand in. -/
def anyQuotes : String := "\"'`"

/-- The name of a decorator, before its arguments. -/
def decoratorHead (decorator : String) : Text :=
  Text.trim (decorator.toList.takeWhile (· != '('))

/-- The part of a text after its last dot. -/
def afterLastDot (t : Text) : Text := (t.reverse.takeWhile (· != '.')).reverse

/-- A route entry with its decorator noted. -/
def routeOf (f : Function) (decorator : String) : EntryPoint :=
  (EntryPoint.ofFunction f "route").note "decorator" decorator

/-- The entry with a path noted, if there is one. -/
def notePath (e : EntryPoint) (path : Option String) : EntryPoint :=
  match path with
  | some p => e.note "path" p
  | none => e

/-- A scheduled entry with its decorator noted. -/
def scheduledOf (f : Function) (decorator : String) : EntryPoint :=
  (EntryPoint.ofFunction f "scheduled").note "decorator" decorator

/-- The main entry of a function, if it is one. -/
def mainIf (isMain : Bool) (f : Function) : List EntryPoint :=
  if isMain then [EntryPoint.ofFunction f "main_function"] else []

/-- Annotations of Java methods that answer requests. -/
def mappingNames : List String :=
  [ "GetMapping", "PostMapping", "PutMapping", "DeleteMapping", "PatchMapping",
    "RequestMapping", "Path" ]

/-- The entries of a Java function. -/
def ofJava (f : Function) : List EntryPoint :=
  mainIf (f.name = "main" && f.kind = .staticMethod) f ++
    f.decorators.filterMap fun d =>
      let head := String.ofList (afterLastDot (decoratorHead d))
      if mappingNames.contains head then
        some (notePath (routeOf f d) (stringArgument? anyQuotes d))
      else if head = "Scheduled" then some (scheduledOf f d)
      else none

/-- Decorators of script methods that answer requests. -/
def requestNames : List String :=
  ["Get", "Post", "Put", "Delete", "Patch", "All", "Options", "Head"]

/-- The entries of a script function. -/
def ofScript (f : Function) : List EntryPoint :=
  mainIf (f.name = "main" && !f.isMethod) f ++
    f.decorators.filterMap fun d =>
      let head := decoratorHead d
      if requestNames.contains (String.ofList head) then
        some (notePath ((routeOf f d).note "method" (String.ofList head.toUpper))
          (stringArgument? anyQuotes d))
      else none

/-- Whether an attribute makes a method answer requests. -/
def isRouteAttribute (d : String) : Bool :=
  let head := decoratorHead d
  head == "Route".toList || "Http".toList.isPrefixOf head

/-- The entries of a C# function: at most one route, with the first string among the attributes as
its path. -/
def ofCSharp (f : Function) : List EntryPoint :=
  mainIf (f.name = "Main" && f.kind = .staticMethod) f ++
    match f.decorators.find? isRouteAttribute with
    | some d => [notePath (routeOf f d) (f.decorators.findSome? (stringArgument? anyQuotes))]
    | none => []

/-- The entries of a Go function. -/
def ofGo (f : Function) : List EntryPoint :=
  if f.kind = .function then
    if f.name = "main" then [EntryPoint.ofFunction f "main_function"]
    else if f.name = "init" then [EntryPoint.ofFunction f "init_function"]
    else []
  else []

/-- The entries of an ABAP function: every event is one, the start of the selection the first. -/
def ofAbap (f : Function) : List EntryPoint :=
  if f.kind = .event then
    let entry := (EntryPoint.ofFunction f "program_event").note "event" f.name
    if Language.lowered f.name = "start-of-selection" then [entry.note "primary" "true"]
    else [entry]
  else []

/-- A decorator that registers a route. -/
def routeDecorator : Pattern :=
  textStart ++ word.plus ++ (char '.' ++ word.plus).star ++ char '.' ++
    words "route"
      [ "get", "post", "put", "delete", "patch", "head", "options", "api_route", "websocket" ] ++
    gap ++ char '('

/-- A decorator that registers a scheduled job. -/
def scheduledDecorator : Pattern :=
  textStart ++ (word.plus ++ char '.').star ++
    words "scheduled_job" ["periodic_task", "shared_task", "task", "cron"] ++ boundary

/-- The entries of a Python function. -/
def ofPython (f : Function) : List EntryPoint :=
  let topLevel := f.qualifiedName = qualify f.moduleName none f.name
  mainIf (f.name = "main" && f.kind = .function && topLevel) f ++
    f.decorators.filterMap fun d =>
      if routeDecorator.occursIn d.toList then
        some (notePath (routeOf f d) (stringArgument? "\"'" d))
      else if scheduledDecorator.occursIn d.toList then some (scheduledOf f d)
      else none

end CallAtlas.Entry

namespace CallAtlas

/-- The entry points among the functions of a file, in order, with distinct ids where a function
has several entries of one kind. -/
def entryPoints (lang : Language) (functions : List Function) : List EntryPoint :=
  match lang with
  | .java => numberDuplicates (functions.flatMap Entry.ofJava)
  | .javascript | .typescript => numberDuplicates (functions.flatMap Entry.ofScript)
  | .csharp => functions.flatMap Entry.ofCSharp
  | .go => functions.flatMap Entry.ofGo
  | .abap => functions.flatMap Entry.ofAbap
  | .python => numberDuplicates (functions.flatMap Entry.ofPython)

end CallAtlas
