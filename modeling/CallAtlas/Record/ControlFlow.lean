/-
Module: CallAtlas.Record.ControlFlow
Purpose: The record of a control-flow construct.
Main definitions: FlowKind, ControlFlow, flowId, snippet?
-/
import CallAtlas.Text.Words

namespace CallAtlas

/-- The kinds of control flow. -/
inductive FlowKind where
  | ifElse
  | forLoop
  | whileLoop
  | doWhileLoop
  | tryCatch
  | switch
  | loop
deriving Repr, DecidableEq, Inhabited

namespace FlowKind

/-- All kinds. -/
def all : List FlowKind := [ifElse, forLoop, whileLoop, doWhileLoop, tryCatch, switch, loop]

/-- The word a kind is written as. -/
def name : FlowKind → String
  | ifElse => "if_else"
  | forLoop => "for_loop"
  | whileLoop => "while_loop"
  | doWhileLoop => "do_while_loop"
  | tryCatch => "try_catch"
  | switch => "switch"
  | loop => "loop"

/-- The kind that is written as a given word. -/
def ofName? (word : String) : Option FlowKind := all.find? fun kind => kind.name = word

/-- Whether the code inside runs only under a condition. -/
def isConditional : FlowKind → Bool
  | ifElse | switch => true
  | forLoop | whileLoop | doWhileLoop | tryCatch | loop => false

/-- Whether the code inside may run more than once. -/
def isLoop : FlowKind → Bool
  | forLoop | whileLoop | doWhileLoop | loop => true
  | ifElse | tryCatch | switch => false

end FlowKind

/-- A control-flow construct in the body of a function. -/
structure ControlFlow where
  id : String
  kind : FlowKind
  parentId : String
  filePath : String
  line : Nat
  endLine : Nat
  condition : Option String
  branches : List String
deriving Repr, DecidableEq, Inhabited

/-- The id of the construct with a given number in a file. -/
def flowId (filePath : String) (number : Nat) : String := filePath ++ "#flow" ++ toString number

/-- A condition on one line, cut after `limit` characters.  A condition of blanks is none. -/
def snippet? (raw : Text) (limit : Nat) : Option String :=
  let line := raw.collapse
  if line.isEmpty then none
  else if line.length ≤ limit then some (String.ofList line)
  else some (String.ofList (line.take limit) ++ "...")

end CallAtlas
