/-
Module: CallAtlas.Report.Summary
Purpose: The result of a run as a summary for a terminal.
Main definitions: summary, languageList
-/
import CallAtlas.Document.Records
import CallAtlas.Language
import CallAtlas.Report.Style

namespace CallAtlas.Report

/-- Several lines, each with its line break. -/
def unlines (lines : List String) : String := String.join (lines.map (· ++ "\n"))

/-- Where a record is. -/
def location (filePath : String) (line : Nat) : String := filePath ++ ":" ++ toString line

/-- The lines at the top. -/
def heading (coloured : Bool) (r : AtlasResult) : List String :=
  [ "", "  " ++ paint coloured .boldCyan "flowscan" ++ " v" ++ version, "",
    "  " ++ paint coloured .dimmed "Scanning: " ++ r.projectPath, "" ]

/-- The lines of the totals. -/
def totals (coloured : Bool) (r : AtlasResult) : List String :=
  let rows :=
    [ ("Modules", r.atlas.modules.length), ("Functions", r.statistics.totalFunctions),
      ("Calls", r.statistics.totalCalls), ("Control flows", r.statistics.totalControlFlows),
      ("Entry points", r.atlas.entryPoints.length), ("Max call depth", r.statistics.maxCallDepth) ]
  rows.map fun (label, value) =>
    "  " ++ paint coloured .dimmed (padRight 16 label) ++ paint coloured .bold (toString value)

/-- The style of a complexity. -/
def complexityStyle (complexity : Nat) : Style :=
  if complexity ≤ 5 then .green else if complexity ≤ 10 then .yellow else .boldRed

/-- The number of functions listed by complexity. -/
def topCount : Nat := 10

/-- The lines of the most complex functions. -/
def mostComplex (coloured : Bool) (r : AtlasResult) : List String :=
  let row := fun f : Function =>
    "    " ++ paint coloured (complexityStyle f.complexity) (padLeft 4 (toString f.complexity)) ++
      "  " ++ f.qualifiedName ++ "  " ++ paint coloured .dimmed (location f.filePath f.line)
  ("  " ++ paint coloured .bold "Most complex") :: (r.mostComplex topCount).map row

/-- The lines of the entry points. -/
def entries (coloured : Bool) (r : AtlasResult) : List String :=
  let row := fun e : EntryPoint =>
    "    " ++ paint coloured .cyan (padRight 16 e.kind) ++ e.functionId ++ "  " ++
      paint coloured .dimmed (location e.filePath e.line)
  ("  " ++ paint coloured .bold "Entry points") :: r.atlas.entryPoints.map row

/-- A cycle as a chain that comes back to its start. -/
def chain (cycle : List String) : String := " → ".intercalate (cycle ++ cycle.head?.toList)

/-- The lines of the cycles. -/
def cycles (coloured : Bool) (found : List (List String)) : List String :=
  if found.isEmpty then ["  " ++ paint coloured .green "✓ No circular calls"]
  else
    ("  " ++ paint coloured .red ("✗ " ++ toString found.length ++ " circular call chain(s)")) ::
      found.map fun cycle => "    " ++ chain cycle

/-- The lines of the functions that are never called. -/
def orphans (coloured : Bool) (ids : List String) : List String :=
  let note := "(first " ++ toString ids.length ++ ")"
  ("  " ++ paint coloured .bold "Never called" ++ "  " ++ paint coloured .dimmed note) ::
    ids.map fun id => "    " ++ paint coloured .yellow id

/-- A section and the blank line after it, unless there is nothing to show. -/
def sectionIf (shown : Bool) (lines : List String) : List String :=
  if shown then lines ++ [""] else []

/-- The summary of a result. -/
def summary (coloured : Bool) (r : AtlasResult) : String :=
  unlines
    (heading coloured r ++ sectionIf true (totals coloured r) ++
      sectionIf (!r.atlas.functions.isEmpty) (mostComplex coloured r) ++
      sectionIf (!r.atlas.entryPoints.isEmpty) (entries coloured r) ++
      sectionIf true (cycles coloured r.statistics.cycles) ++
      sectionIf (!r.statistics.orphans.isEmpty) (orphans coloured r.statistics.orphans))

/-- How a language is read, in words. -/
def readingName : Reading → String
  | .outline => "syntax tree"
  | .patterns => "pattern scan"

/-- The list of the languages with their file extensions. -/
def languageList : String :=
  let row := fun lang : Language =>
    "  " ++ padRight 12 lang.id ++ " " ++ padRight 14 (readingName lang.reading) ++ " " ++
      " ".intercalate (lang.extensions.map ("." ++ ·))
  unlines (["Supported languages:", ""] ++ Language.all.map row)

end CallAtlas.Report
