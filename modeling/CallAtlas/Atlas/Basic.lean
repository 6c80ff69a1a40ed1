/-
Module: CallAtlas.Atlas.Basic
Purpose: The records of all files of a project.
Main definitions: Module, Atlas, Atlas.add
-/
import CallAtlas.Record.FileRecords

namespace CallAtlas

/-- A source file that was read. -/
structure Module where
  id : String
  name : String
  filePath : String
  functionCount : Nat
deriving Repr, DecidableEq, Inhabited

/-- The id of the module in a file. -/
def moduleId (filePath : String) : String := "module:" ++ filePath

/-- The records of a project, in the order in which its files were added. -/
structure Atlas where
  modules : List Module
  functions : List Function
  calls : List Call
  controlFlows : List ControlFlow
  entryPoints : List EntryPoint
deriving Repr, DecidableEq, Inhabited

/-- The text with the first occurrence of a piece replaced. -/
def replaceFirst (piece replacement : Text) : Text → Text
  | [] => if piece.isEmpty then replacement else []
  | c :: t =>
    if piece.isPrefixOf (c :: t) then replacement ++ (c :: t).drop piece.length
    else c :: replaceFirst piece replacement t

namespace FileRecords

/-- The new id of a function of this file: if an earlier file has taken the id, the path of this
file is put behind it.  Ids that are not of this file stay. -/
def rename (r : FileRecords) (taken : List String) (id : String) : String :=
  if taken.contains id && (r.functions.map (·.id)).contains id then id ++ "@" ++ r.path else id

/-- An entry point that follows the new id of its function. -/
def renameEntry (r : FileRecords) (taken : List String) (e : EntryPoint) : EntryPoint :=
  let id := r.rename taken e.functionId
  if id = e.functionId then e
  else
    { e with
      id := String.ofList (replaceFirst e.functionId.toList id.toList e.id.toList)
      functionId := id }

/-- The records with the ids that earlier files have taken replaced throughout. -/
def renameTaken (r : FileRecords) (taken : List String) : FileRecords :=
  { r with
    functions := r.functions.map fun f => { f with id := r.rename taken f.id }
    calls := r.calls.map fun c => { c with callerId := r.rename taken c.callerId }
    controlFlows := r.controlFlows.map fun c => { c with parentId := r.rename taken c.parentId }
    entryPoints := r.entryPoints.map (r.renameEntry taken) }

/-- The module of a file. -/
def moduleOf (r : FileRecords) : Module :=
  ⟨moduleId r.path, r.moduleName, r.path, r.functions.length⟩

end FileRecords

namespace Atlas

/-- The atlas of no files. -/
def empty : Atlas := ⟨[], [], [], [], []⟩

/-- The ids of all functions. -/
def functionIds (a : Atlas) : List String := a.functions.map (·.id)

/-- Adds the records of one file at the end. -/
def add (a : Atlas) (records : FileRecords) : Atlas :=
  let r := records.renameTaken a.functionIds
  { modules := a.modules ++ [r.moduleOf]
    functions := a.functions ++ r.functions
    calls := a.calls ++ r.calls
    controlFlows := a.controlFlows ++ r.controlFlows
    entryPoints := a.entryPoints ++ r.entryPoints }

/-- The atlas of several files, added in order. -/
def ofFiles (files : List FileRecords) : Atlas := files.foldl add empty

end Atlas

end CallAtlas
