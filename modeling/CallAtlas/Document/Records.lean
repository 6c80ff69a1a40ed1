/-
Module: CallAtlas.Document.Records
Purpose: Records and results as JSON values.
Main definitions: Function.toJson, Call.toJson, ControlFlow.toJson, EntryPoint.toJson,
  AtlasResult.toJson
-/
import CallAtlas.Atlas.Result
import CallAtlas.Document.Json

namespace CallAtlas

/-- A function as a value. -/
def Function.toJson (f : Function) : Json :=
  .object
    [ ("id", .string f.id), ("type", .string f.kind.name), ("name", .string f.name),
      ("qualified_name", .string f.qualifiedName), ("module", .string f.moduleName),
      ("file_path", .string f.filePath), ("line_number", .number f.line),
      ("end_line", .number f.endLine), ("parameters", .strings f.parameters),
      ("decorators", .strings f.decorators), ("is_async", .bool f.isAsync),
      ("is_method", .bool f.isMethod), ("class_name", .string? f.className),
      ("docstring", .string? f.docstring), ("complexity", .number f.complexity) ]

/-- A call as a value. -/
def Call.toJson (c : Call) : Json :=
  .object
    [ ("id", .string c.id), ("caller_id", .string c.callerId),
      ("callee_name", .string c.calleeName), ("callee_id", .string? c.calleeId),
      ("call_type", .string? (c.callType.map (·.name))), ("file_path", .string c.filePath),
      ("line_number", .number c.line), ("is_conditional", .bool c.isConditional),
      ("is_loop", .bool c.isLoop) ]

/-- A control-flow construct as a value. -/
def ControlFlow.toJson (c : ControlFlow) : Json :=
  .object
    [ ("id", .string c.id), ("flow_type", .string c.kind.name),
      ("parent_function_id", .string c.parentId), ("file_path", .string c.filePath),
      ("line_number", .number c.line), ("end_line", .number c.endLine),
      ("condition", .string? c.condition), ("branches", .strings c.branches) ]

/-- An entry point as a value.  Notes are left out when there are none. -/
def EntryPoint.toJson (e : EntryPoint) : Json :=
  let notes : List (String × Json) :=
    if e.metadata.isEmpty then []
    else [("metadata", .object (e.metadata.map fun (key, value) => (key, .string value)))]
  .object
    ([ ("id", .string e.id), ("type", .string e.kind), ("function_id", .string e.functionId),
       ("file_path", .string e.filePath), ("line_number", .number e.line) ] ++ notes)

/-- A module as a value. -/
def Module.toJson (m : Module) : Json :=
  .object
    [ ("id", .string m.id), ("name", .string m.name), ("file_path", .string m.filePath),
      ("function_count", .number m.functionCount) ]

/-- Statistics as a value. -/
def Statistics.toJson (s : Statistics) : Json :=
  .object
    [ ("total_functions", .number s.totalFunctions), ("total_calls", .number s.totalCalls),
      ("total_control_flows", .number s.totalControlFlows),
      ("max_call_depth", .number s.maxCallDepth),
      ("circular_dependencies", .array (s.cycles.map .strings)),
      ("orphan_functions", .strings s.orphans) ]

/-- The name of the kind of analysis. -/
def analysisType : String := "runtime_flow"

/-- The version that reports carry. -/
def version : String := "0.1.0"

/-- The result of a run as a value. -/
def AtlasResult.toJson (r : AtlasResult) : Json :=
  .object
    [ ("analysis_type", .string analysisType), ("version", .string version),
      ("project_path", .string r.projectPath),
      ("modules", .array (r.atlas.modules.map (·.toJson))),
      ("functions", .array (r.atlas.functions.map (·.toJson))),
      ("calls", .array (r.atlas.calls.map (·.toJson))),
      ("control_flows", .array (r.atlas.controlFlows.map (·.toJson))),
      ("entry_points", .array (r.atlas.entryPoints.map (·.toJson))),
      ("statistics", r.statistics.toJson) ]

end CallAtlas
