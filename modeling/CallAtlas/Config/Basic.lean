/-
Module: CallAtlas.Config.Basic
Purpose: The settings of a run and when they are valid.
Main definitions: Config, ConfigFault, Config.validate, Config.skippedNames, Config.excluded
-/
import CallAtlas.Glob.Parse
import CallAtlas.Language
import CallAtlas.Text.Quoted

namespace CallAtlas

/-- The settings of a run. -/
structure Config where
  /-- Names of directories to leave out, in place of the usual ones. -/
  skipDirs : Option (List String)
  /-- Further names of directories to leave out. -/
  extraSkipDirs : List String
  /-- Globs of paths to leave out. -/
  excludedPaths : List String
  /-- The languages to read; all if there are none. -/
  languages : List Language
  maxCycles : Nat
  maxOrphans : Nat
  /-- Conditions are cut after so many characters. -/
  conditionLimit : Nat
  /-- The number of workers. -/
  threads : Option Nat
  followLinks : Bool
deriving Repr, DecidableEq, Inhabited

/-- Why settings cannot be used. -/
inductive ConfigFault where
  /-- A number that has to be positive is zero. -/
  | zero (field : String)
  /-- A path pattern is no glob. -/
  | badPattern (pattern : String) (fault : GlobFault)
deriving Repr, DecidableEq, Inhabited

/-- The text of a fault. -/
def ConfigFault.message : ConfigFault → String
  | zero field => field ++ " must be at least 1"
  | badPattern pattern fault =>
    "invalid excluded_paths pattern " ++ String.ofList (Text.quoted pattern.toList) ++
      ": error parsing glob '" ++ pattern ++ "': " ++ fault.message

namespace Config

/-- The usual settings. -/
def standard : Config :=
  { skipDirs := none
    extraSkipDirs := []
    excludedPaths := []
    languages := []
    maxCycles := 5
    maxOrphans := 10
    conditionLimit := 100
    threads := none
    followLinks := false }

/-- Names of directories that are usually left out. -/
def usualSkipDirs : List String :=
  [ ".git", ".svn", ".hg", "node_modules", "__pycache__", ".venv", "venv", "env", ".tox",
    ".mypy_cache", ".pytest_cache", "build", "dist", "target", "out", "bin", "obj", "vendor",
    "coverage", ".idea", ".vscode", ".next", ".gradle" ]

/-- The names of all directories to leave out, each once, in increasing order. -/
def skippedNames (c : Config) : List String :=
  ((c.skipDirs.getD usualSkipDirs ++ c.extraSkipDirs).eraseDups).mergeSort fun a b => !(b < a)

/-- The languages to read. -/
def enabledLanguages (c : Config) : List Language :=
  if c.languages.isEmpty then Language.all else c.languages

/-- The globs of several patterns, or the first pattern that is none. -/
def compile : List String → Except ConfigFault (List Glob)
  | [] => .ok []
  | pattern :: more =>
    match Glob.parse pattern with
    | .error fault => .error (.badPattern pattern fault)
    | .ok glob => (compile more).map (glob :: ·)

/-- The globs of the paths to leave out. -/
def excluded (c : Config) : Except ConfigFault (List Glob) := compile c.excludedPaths

/-- Checks the settings.  The numbers come first, in order, then the patterns. -/
def validate (c : Config) : Except ConfigFault Unit :=
  if c.maxCycles = 0 then .error (.zero "max_cycles")
  else if c.maxOrphans = 0 then .error (.zero "max_orphans")
  else if c.conditionLimit = 0 then .error (.zero "condition_max_len")
  else if c.threads = some 0 then .error (.zero "threads")
  else c.excluded.map fun _ => ()

end Config

/-- Whether one of several globs matches a path. -/
def anyMatch (globs : List Glob) (path : String) : Bool := globs.any (·.isMatch path)

end CallAtlas
