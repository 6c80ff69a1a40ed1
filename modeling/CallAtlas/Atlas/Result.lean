/-
Module: CallAtlas.Atlas.Result
Purpose: The resolved atlas of a project with its statistics.
Main definitions: Statistics, AtlasResult, Atlas.resolve, Atlas.statistics, Atlas.toResult
-/
import CallAtlas.Atlas.Basic
import CallAtlas.Atlas.Resolution
import CallAtlas.Graph.Cycle
import CallAtlas.Graph.Depth

namespace CallAtlas

/-- Totals and measures of the call graph. -/
structure Statistics where
  totalFunctions : Nat
  totalCalls : Nat
  totalControlFlows : Nat
  maxCallDepth : Nat
  /-- Cycles of calls, as lists of function ids. -/
  cycles : List (List String)
  /-- Ids of functions that no direct call reaches. -/
  orphans : List String
deriving Repr, DecidableEq, Inhabited

/-- What a run reports. -/
structure AtlasResult where
  projectPath : String
  atlas : Atlas
  statistics : Statistics
deriving Repr, DecidableEq, Inhabited

namespace Atlas

/-- The atlas with every call resolved against all of its functions. -/
def resolve (a : Atlas) : Atlas :=
  { a with calls := (Resolver.ofFunctions a.functions).apply a.calls }

/-- The graph of the direct calls. -/
def graph (a : Atlas) : CallGraph := .ofCalls a.functionIds a.calls

/-- The statistics of a resolved atlas, with at most so many cycles and orphans listed. -/
def statistics (a : Atlas) (maxCycles maxOrphans : Nat) : Statistics :=
  { totalFunctions := a.functions.length
    totalCalls := a.calls.length
    totalControlFlows := a.controlFlows.length
    maxCallDepth := a.graph.maxDepth
    cycles := a.graph.cycles maxCycles
    orphans := a.graph.orphans maxOrphans }

/-- The result of a run: calls resolved, statistics computed. -/
def toResult (a : Atlas) (projectPath : String) (maxCycles maxOrphans : Nat) : AtlasResult :=
  let resolved := a.resolve
  ⟨projectPath, resolved, resolved.statistics maxCycles maxOrphans⟩

end Atlas

namespace AtlasResult

/-- The first function with a qualified name. -/
def findFunction? (r : AtlasResult) (qualifiedName : String) : Option Function :=
  r.atlas.functions.find? (·.qualifiedName = qualifiedName)

/-- The `limit` most complex functions, the most complex first, equals in order. -/
def mostComplex (r : AtlasResult) (limit : Nat) : List Function :=
  (r.atlas.functions.mergeSort fun a b => b.complexity ≤ a.complexity).take limit

end AtlasResult

end CallAtlas
