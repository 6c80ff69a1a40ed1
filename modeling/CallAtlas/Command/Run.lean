/-
Module: CallAtlas.Command.Run
Purpose: What a command prints and writes.
Main definitions: Outcome, runAnalyze, run
-/
import CallAtlas.Command.Arguments
import CallAtlas.Project.Analysis
import CallAtlas.Report.Summary

namespace CallAtlas.Command

/-- What a command leaves behind. -/
structure Outcome where
  /-- The exit code, or the text of the fault that ended the command. -/
  exit : Except String Nat
  stdout : String
  stderr : String
  /-- The files afterwards. -/
  disk : Disk
deriving Inhabited

/-- The exit code of a command that did its work. -/
def exitSuccess : Nat := 0

/-- The exit code of a command that could not. -/
def exitError : Nat := 2

/-- The outcome of a command that stops with a message. -/
def stopped (disk : Disk) (message : String) : Outcome :=
  ⟨.ok exitError, "", "Error: " ++ message ++ "\n", disk⟩

/-- The settings that arguments ask for: those of a file, changed by the switches.  A fault is given
as its text. -/
def effectiveConfig (disk : Disk) (o : AnalyzeOptions) : Except String Config := do
  let base ←
    match o.config with
    | some path =>
      match readConfig disk path with
      | .ok config => .ok config
      | .error fault => .error ("parsing config " ++ path ++ ": " ++ fault.message)
    | none =>
      match loadConfig disk o.path with
      | .ok config => .ok config
      | .error (path, fault) => .error ("loading " ++ path ++ ": " ++ fault.message)
  return { base with
    extraSkipDirs := base.extraSkipDirs ++ o.skipDirs
    languages := if o.languages.isEmpty then base.languages else o.languages
    threads := o.threads <|> base.threads }

/-- Writes a result to a file.  A fault is given as its text. -/
def writeResult (disk : Disk) (path : String) (r : AtlasResult) : Except String Disk :=
  match disk.write path (Utf8.encode (r.toJson.render ++ "\n").toList) with
  | .ok next => .ok next
  | .error fault => .error ("writing " ++ path ++ ": " ++ fault.message)

/-- The outcome of a run that has a result. -/
def present (disk : Disk) (o : AnalyzeOptions) (coloured : Bool) (r : AtlasResult) : Outcome :=
  let isPretty := o.format = "pretty"
  let shown := if isPretty then Report.summary coloured r else ""
  match o.output with
  | none =>
    ⟨.ok exitSuccess, if isPretty then shown else r.toJson.render ++ "\n", "", disk⟩
  | some path =>
    match writeResult disk path r with
    | .error message => ⟨.error message, shown, "", disk⟩
    | .ok next =>
      let note := if isPretty then "  Wrote " ++ path ++ "\n" else ""
      ⟨.ok exitSuccess, shown ++ note, "", next⟩

/-- Analyses a project. -/
def runAnalyze (disk : Disk) (o : AnalyzeOptions) (coloured : Bool) : Outcome :=
  if o.format ≠ "json" ∧ o.format ≠ "pretty" then
    stopped disk
      ("invalid format " ++ String.ofList (Text.quoted o.format.toList) ++
        ", must be 'json' or 'pretty'")
  else
    match effectiveConfig disk o with
    | .error message => stopped disk message
    | .ok config =>
      match analyze disk config false o.path with
      | .error fault => stopped disk fault.message
      | .ok r => present disk o coloured r

/-- Runs a command on the files of a disk. -/
def run (disk : Disk) (task : Task) (coloured : Bool) : Outcome :=
  match task with
  | .analyze options => runAnalyze disk options coloured
  | .languages => ⟨.ok exitSuccess, Report.languageList, "", disk⟩

end CallAtlas.Command
