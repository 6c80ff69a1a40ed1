/-
Module: CallAtlas.Graph.Depth
Purpose: The longest chain of calls without a repeated function.
Main definitions: DepthFrame, DepthSearch, DepthSearch.step, DepthSearch.run, CallGraph.depthFrom,
  CallGraph.maxDepth
-/
import CallAtlas.Graph.Basic

namespace CallAtlas

/-!
The search goes through all paths without a repeated node.  It keeps the current path as a stack of
frames and marks the nodes on it, so that a long chain of calls needs no deep recursion.  A node is
entered again whenever another path leads to it; what ends the search is a matter of proof.
-/

/-- A node of the path, the callees still to be tried and the depth of the deepest one tried. -/
structure DepthFrame where
  node : Nat
  pending : List Nat
  deepest : Nat
deriving Repr, DecidableEq, Inhabited

/-- A search: its path, from the end backwards, the marks of the nodes on it, and the depth of the
first node once that node was left. -/
structure DepthSearch where
  stack : List DepthFrame
  onPath : Array Bool
  depth : Nat
deriving Repr, DecidableEq, Inhabited

/-- A node with none of its callees tried. -/
def CallGraph.openFrame (g : CallGraph) (node : Nat) : DepthFrame := ⟨node, g.successors node, 0⟩

namespace DepthSearch

/-- The search that has entered its first node. -/
def start (g : CallGraph) (root : Nat) : DepthSearch :=
  { stack := [g.openFrame root]
    onPath := (Array.replicate g.size false).setIfInBounds root true
    depth := 0 }

/-- One step of a search.  The end of the path tries its next callee, which is passed over if it is
on the path.  With no callee left it hands its depth to the node before it and is taken off the
path.  A search with an empty path is over. -/
def step (g : CallGraph) (s : DepthSearch) : Option DepthSearch :=
  match s.stack with
  | [] => none
  | top :: below =>
    match top.pending with
    | child :: pending =>
      let tried := { top with pending := pending }
      if s.onPath.getD child false then some { s with stack := tried :: below }
      else
        some { s with
          stack := g.openFrame child :: tried :: below
          onPath := s.onPath.setIfInBounds child true }
    | [] =>
      let depth := 1 + top.deepest
      let onPath := s.onPath.setIfInBounds top.node false
      match below with
      | parent :: rest =>
        some { s with
          stack := { parent with deepest := max parent.deepest depth } :: rest
          onPath := onPath }
      | [] => some ⟨[], onPath, depth⟩

/-- Steps until the search is over, and then gives its depth.  A search that is never over gives
nothing. -/
def run (g : CallGraph) (s : DepthSearch) : Option Nat :=
  match s.step g with
  | some next => next |>.run g
  | none => some s.depth
partial_fixpoint

end DepthSearch

namespace CallGraph

/-- Number of nodes of the longest path from a node that repeats no node. -/
def depthFrom (g : CallGraph) (root : Nat) : Option Nat := (DepthSearch.start g root).run g

/-- Number of nodes of the longest chain of calls that repeats no node. -/
def maxDepth (g : CallGraph) : Nat :=
  ((List.range g.size).map fun root => (g.depthFrom root).getD 0).foldl max 0

end CallGraph

end CallAtlas
