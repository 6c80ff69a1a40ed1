/-
Module: CallAtlas.Record.FileRecords
Purpose: All records of one source file.
Main definitions: SourceFile, FileRecords
-/
import CallAtlas.Record.Call
import CallAtlas.Record.ControlFlow
import CallAtlas.Record.EntryPoint

namespace CallAtlas

/-- A source file to be read: its path in the project, its module name and its text. -/
structure SourceFile where
  path : String
  moduleName : String
  text : Text
deriving Repr, DecidableEq, Inhabited

/-- What was found in one file. -/
structure FileRecords where
  path : String
  moduleName : String
  functions : List Function
  calls : List Call
  controlFlows : List ControlFlow
  entryPoints : List EntryPoint
deriving Repr, DecidableEq, Inhabited

namespace FileRecords

/-- Sum of the complexities of all functions. -/
def totalComplexity (r : FileRecords) : Nat :=
  r.functions.foldr (fun f total => f.complexity + total) 0

/-- The calls made by the function with a given id. -/
def callsFrom (r : FileRecords) (id : String) : List Call := r.calls.filter (·.callerId = id)

end FileRecords

end CallAtlas
