/-
Module: CallAtlas.Record.Function
Purpose: The record of a declared function and the names built for it.
Main definitions: FunctionKind, Function, qualify, functionId, lastSegment
-/
import CallAtlas.Text.Basic

namespace CallAtlas

/-- What kind of declaration a function record stands for. -/
inductive FunctionKind where
  | function
  | method
  | subroutine
  | container
  | event
  | constructor
  | staticMethod
  | abstractMethod
  | arrow
deriving Repr, DecidableEq, Inhabited

namespace FunctionKind

/-- All kinds. -/
def all : List FunctionKind :=
  [function, method, subroutine, container, event, constructor, staticMethod, abstractMethod,
    arrow]

/-- The word a kind is written as. -/
def name : FunctionKind → String
  | function => "function"
  | method => "method"
  | subroutine => "subroutine"
  | container => "class"
  | event => "event"
  | constructor => "constructor"
  | staticMethod => "static_method"
  | abstractMethod => "abstract_method"
  | arrow => "arrow_function"

/-- The kind that is written as a given word. -/
def ofName? (word : String) : Option FunctionKind := all.find? fun kind => kind.name = word

end FunctionKind

/-- A declared function, method, class or event. -/
structure Function where
  id : String
  kind : FunctionKind
  name : String
  qualifiedName : String
  moduleName : String
  filePath : String
  line : Nat
  endLine : Nat
  parameters : List String
  decorators : List String
  isAsync : Bool
  isMethod : Bool
  className : Option String
  docstring : Option String
  complexity : Nat
deriving Repr, DecidableEq, Inhabited

/-- A name behind its module and the path of the classes or functions around it, with dots between
the parts.  Empty parts are left out. -/
def qualify (moduleName : String) (scope : Option String) (name : String) : String :=
  let front := if moduleName.isEmpty then "" else moduleName ++ "."
  let middle :=
    match scope with
    | some path => if path.isEmpty then "" else path ++ "."
    | none => ""
  front ++ middle ++ name

/-- The id of a function: its qualified name and the line of its declaration, which tells overloads
apart. -/
def functionId (qualifiedName : String) (line : Nat) : String :=
  qualifiedName ++ ":" ++ toString line

/-- The separators of a chain of names. -/
def chainSeparators : List Text := [['.'], ['-', '>'], ['=', '>'], [':', ':']]

/-- The part of a chain of names after its last separator. -/
def lastSegment (name : String) : String :=
  let t := name.toList
  let cuts := chainSeparators.map fun separator => (Text.afterLast? separator 0 t).getD 0
  String.ofList (Text.rest t (cuts.foldl max 0))

end CallAtlas
