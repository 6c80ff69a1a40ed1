/-
Module: CallAtlas.Graph.Basic
Purpose: The graph of direct calls between functions.
Main definitions: CallGraph, CallGraph.ofCalls, CallGraph.callees, CallGraph.orphans
-/
import CallAtlas.Record.Call

namespace CallAtlas

/-!
Nodes are places in the list of functions, so that two functions with one id are two nodes.  A call
is counted for the last function with the id it names.
-/

/-- The graph of direct calls. -/
structure CallGraph where
  /-- The ids of the functions; a node is a place in this list. -/
  ids : List String
  /-- The edges from caller to callee, without repetition, in the order of the calls. -/
  edges : List (Nat × Nat)
  /-- The nodes that some direct call reaches, also one whose caller is unknown. -/
  called : List Nat
deriving Repr, DecidableEq, Inhabited

/-- The last place of an id in a list; `place` is the place of the head. -/
def lastPlaceFrom? (id : String) (place : Nat) : List String → Option Nat
  | [] => none
  | x :: more =>
    match lastPlaceFrom? id (place + 1) more with
    | some n => some n
    | none => if x = id then some place else none

/-- The last place of an id in a list. -/
def lastPlace? (ids : List String) (id : String) : Option Nat := lastPlaceFrom? id 0 ids

/-- The node that a call reaches, if the call is direct and its callee known. -/
def Call.target? (ids : List String) (call : Call) : Option Nat :=
  if call.callType = some .direct then call.calleeId.bind (lastPlace? ids) else none

/-- The edge of a call, if the call is direct and both ends are known. -/
def Call.edge? (ids : List String) (call : Call) : Option (Nat × Nat) := do
  let callee ← call.target? ids
  let caller ← lastPlace? ids call.callerId
  return (caller, callee)

namespace CallGraph

/-- The graph of the direct calls between the functions with the given ids. -/
def ofCalls (ids : List String) (calls : List Call) : CallGraph :=
  { ids := ids
    edges := (calls.filterMap (·.edge? ids)).eraseDups
    called := calls.filterMap (·.target? ids) }

/-- Number of nodes. -/
def size (g : CallGraph) : Nat := g.ids.length

/-- The id of a node. -/
def idOf (g : CallGraph) (node : Nat) : String := g.ids.getD node ""

/-- The nodes a node calls, without repetition, in the order of the calls. -/
def successors (g : CallGraph) (node : Nat) : List Nat :=
  (g.edges.filter (·.1 = node)).map (·.2)

/-- The ids called by the first function with a given id; none if the id is unknown. -/
def callees (g : CallGraph) (id : String) : List String :=
  match g.ids.idxOf? id with
  | some node => (g.successors node).map g.idOf
  | none => []

/-- The first `limit` ids, in the order of the functions, that no direct call reaches. -/
def orphans (g : CallGraph) (limit : Nat) : List String :=
  ((g.ids.zipIdx.filter fun (_, node) => !g.called.contains node).map (·.1)).take limit

end CallGraph

end CallAtlas
