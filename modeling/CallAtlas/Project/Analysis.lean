/-
Module: CallAtlas.Project.Analysis
Purpose: A whole run: from a file tree to the result.
Main definitions: RunFault, DiscoveredFile.extractWith, assembleWith, analyzeWith, analyze,
  findConfig?, loadConfig
-/
import CallAtlas.Atlas.Result
import CallAtlas.Config.Read
import CallAtlas.Extraction
import CallAtlas.Project.Discovery

namespace CallAtlas

/-- Why a run has no result. -/
inductive RunFault where
  | rootNotFound (root : String)
  | notADirectory (root : String)
  | unreadable (root : String) (fault : PathFault)
  | badConfig (fault : ConfigFault)
  | cancelled
deriving Repr, DecidableEq, Inhabited

/-- The text of a fault. -/
def RunFault.message : RunFault → String
  | rootNotFound root => "project root " ++ root ++ " does not exist"
  | notADirectory root => "project root " ++ root ++ " is not a directory"
  | unreadable root fault => "cannot read project root " ++ root ++ ": " ++ fault.message
  | badConfig fault => "invalid configuration: " ++ fault.message
  | cancelled => "analysis cancelled"

/-- A source file that turned out to hold no text. -/
structure BinaryFile where
  path : String
deriving Repr, DecidableEq, Inhabited

/-- The text of the fault. -/
def BinaryFile.message (f : BinaryFile) : String := f.path ++ " looks like a binary file"

/-- The records of a source file.  `parse` gives the tree of a Python text.  Conditions are cut
after `limit` characters. -/
def DiscoveredFile.extractWith (parse : Text → Python.Tree) (f : DiscoveredFile) (limit : Nat) :
    Except BinaryFile FileRecords :=
  match Utf8.decodeSource? f.content with
  | some text => .ok (f.language.extractWith parse ⟨f.path, f.moduleName, text⟩ limit)
  | none => .error ⟨f.path⟩

/-- The records of a source file; a Python text is read as its outline says. -/
def DiscoveredFile.extract (f : DiscoveredFile) (limit : Nat) : Except BinaryFile FileRecords :=
  f.extractWith Python.outline limit

/-- Checks that a root is a directory. -/
def checkRoot (disk : Disk) (root : String) : Except RunFault Unit :=
  match disk.locate root true with
  | .error .notFound => .error (.rootNotFound root)
  | .error fault => .error (.unreadable root fault)
  | .ok found => if found.entry.isDirectory then .ok () else .error (.notADirectory root)

/-- The source files of a project. -/
def discoverFiles (disk : Disk) (config : Config) (root : String) :
    Except RunFault (List DiscoveredFile) :=
  match config.excluded with
  | .error fault => .error (.badConfig fault)
  | .ok excluded =>
    match discover disk config excluded root with
    | .error fault => .error (.unreadable root fault)
    | .ok files => .ok files

/-- The atlas of source files.  Files that hold no text are left out. -/
def assembleWith (parse : Text → Python.Tree) (files : List DiscoveredFile) (limit : Nat) : Atlas :=
  Atlas.ofFiles (files.filterMap fun f => (f.extractWith parse limit).toOption)

/-- Runs on a project: the root is checked first, then the settings.  `parse` gives the tree of a
Python text. -/
def analyzeWith (parse : Text → Python.Tree) (disk : Disk) (config : Config) (isCancelled : Bool)
    (root : String) : Except RunFault AtlasResult := do
  checkRoot disk root
  match config.validate with
  | .error fault => .error (.badConfig fault)
  | .ok () =>
    let files ← discoverFiles disk config root
    if isCancelled then .error .cancelled
    else
      return (assembleWith parse files config.conditionLimit).toResult root config.maxCycles
        config.maxOrphans

/-- Runs on a project; Python texts are read as their outlines say. -/
def analyze (disk : Disk) (config : Config) (isCancelled : Bool) (root : String) :
    Except RunFault AtlasResult :=
  analyzeWith Python.outline disk config isCancelled root

/-- The names of settings files, in the order in which they are looked for. -/
def configNames : List String := ["flowscan.yaml", ".flowscan.yaml"]

/-- The settings file in the root of a project. -/
def findConfig? (disk : Disk) (root : String) : Option String :=
  (configNames.map (joinPath root)).find? disk.isFile

/-- Why a settings file gives no settings. -/
inductive LoadFault where
  | unreadable (fault : PathFault)
  | notText
  | badContent (fault : Value.ReadFault)
deriving Repr, DecidableEq, Inhabited

/-- The text of a fault. -/
def LoadFault.message : LoadFault → String
  | unreadable fault => fault.message
  | notText => "stream did not contain valid UTF-8"
  | badContent fault => fault.message

/-- The settings in a file. -/
def readConfig (disk : Disk) (path : String) : Except LoadFault Config :=
  match disk.read path with
  | .error fault => .error (.unreadable fault)
  | .ok bytes =>
    match Utf8.decode? bytes with
    | none => .error .notText
    | some text =>
      match Config.parse text with
      | .error fault => .error (.badContent fault)
      | .ok config => .ok config

/-- The settings of a project: those of its settings file, or the usual ones.  A fault comes with
the path of the file. -/
def loadConfig (disk : Disk) (root : String) : Except (String × LoadFault) Config :=
  match findConfig? disk root with
  | none => .ok .standard
  | some path =>
    match readConfig disk path with
    | .ok config => .ok config
    | .error fault => .error (path, fault)

end CallAtlas
