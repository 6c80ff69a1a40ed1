/-
Module: CallAtlas.Graph.Cycle
Purpose: Cycles of calls, found as edges back to the path of a depth-first search.
Main definitions: canonicalRotation, CycleFrame, CycleSearch, CycleSearch.step, CycleSearch.run,
  CallGraph.cycleNodes, CallGraph.cycles
-/
import CallAtlas.Graph.Basic

namespace CallAtlas

/-!
The search starts at every node that was not reached before, in order.  It keeps the current path as
a stack of frames, marks the nodes on it and notes where on the path each of them stands.  An edge
to a marked node closes a cycle: the part of the path from the place of that node on.  Rotations of
one cycle are one cycle.  Not every cycle of the graph is listed, but each one has an edge that
closes a listed one.
-/

/-- A cycle turned so that its least node comes first. -/
def canonicalRotation (cycle : List Nat) : List Nat :=
  match cycle.min? with
  | none => cycle
  | some least =>
    cycle.dropWhile (· != least) ++ cycle.takeWhile (· != least)

/-- A node of the path and its callees still to be tried. -/
structure CycleFrame where
  node : Nat
  pending : List Nat
deriving Repr, DecidableEq, Inhabited

/-- A search.  Marks and places outlive the path they were made for: when a search starts again at
another node, only the stack is empty. -/
structure CycleSearch where
  /-- The path, from its end backwards. -/
  stack : List CycleFrame
  /-- The nodes that were entered at some time. -/
  visited : Array Bool
  onPath : Array Bool
  /-- How many nodes stood before a node on the path when the node was entered. -/
  pathPos : Array Nat
  /-- The canonical rotations of the cycles. -/
  seen : List (List Nat)
  /-- The cycles, in the order in which they were found. -/
  found : List (List Nat)
deriving Repr, DecidableEq, Inhabited

namespace CycleSearch

/-- The search that has entered no node. -/
def start (g : CallGraph) : CycleSearch :=
  { stack := []
    visited := Array.replicate g.size false
    onPath := Array.replicate g.size false
    pathPos := Array.replicate g.size 0
    seen := []
    found := [] }

/-- Puts a node at the end of the path, with none of its callees tried. -/
def enter (g : CallGraph) (s : CycleSearch) (node : Nat) : CycleSearch :=
  { s with
    stack := ⟨node, g.successors node⟩ :: s.stack
    visited := s.visited.setIfInBounds node true
    onPath := s.onPath.setIfInBounds node true
    pathPos := s.pathPos.setIfInBounds node s.stack.length }

/-- The nodes of the path, from its end backwards. -/
def path (s : CycleSearch) : List Nat := s.stack.map (·.node)

/-- The nodes of the path from the place of a node on. -/
def cycleFrom (s : CycleSearch) (node : Nat) : List Nat :=
  s.path.reverse.drop (s.pathPos.getD node 0)

/-- Adds a cycle, unless a rotation of it is there already. -/
def record (s : CycleSearch) (cycle : List Nat) : CycleSearch :=
  if s.seen.contains (canonicalRotation cycle) then s
  else
    { s with
      seen := canonicalRotation cycle :: s.seen
      found := s.found ++ [cycle] }

/-- Whether as many cycles were found as are wanted. -/
def isFull (s : CycleSearch) (limit : Nat) : Bool := limit ≤ s.found.length

/-- One step of a search.  The end of the path tries its next callee.  With no callee left it is
taken off the path.  A search with an empty path or with all the cycles that are wanted is over. -/
def step (g : CallGraph) (limit : Nat) (s : CycleSearch) : Option CycleSearch :=
  if s.isFull limit then none
  else
    match s.stack with
    | [] => none
    | top :: below =>
      match top.pending with
      | child :: pending =>
        let tried := { s with stack := { top with pending := pending } :: below }
        if s.onPath.getD child false then some (tried.record (s.cycleFrom child))
        else if s.visited.getD child false then some tried
        else some (tried.enter g child)
      | [] =>
        some { s with
          stack := below
          onPath := s.onPath.setIfInBounds top.node false }

/-- Steps until the search is over.  A search that is never over gives nothing. -/
def run (g : CallGraph) (limit : Nat) (s : CycleSearch) : Option CycleSearch :=
  match s.step g limit with
  | some next => next |>.run g limit
  | none => some s
partial_fixpoint

/-- Searches from a node, unless the node was reached before or all cycles that are wanted were
found. -/
def searchFrom (g : CallGraph) (limit : Nat) (s : CycleSearch) (root : Nat) : Option CycleSearch :=
  if s.isFull limit || s.visited.getD root false then some s
  else (s.enter g root).run g limit

end CycleSearch

namespace CallGraph

/-- The search from all nodes. -/
def searchCycles (g : CallGraph) (limit : Nat) : Option CycleSearch :=
  (List.range g.size).foldlM (CycleSearch.searchFrom g limit) (.start g)

/-- The nodes of the first `limit` cycles. -/
def cycleNodes (g : CallGraph) (limit : Nat) : List (List Nat) :=
  ((g.searchCycles limit).map (·.found)).getD []

/-- The first `limit` cycles, each from the node it re-enters to the node that closes it. -/
def cycles (g : CallGraph) (limit : Nat) : List (List String) :=
  (g.cycleNodes limit).map fun cycle => cycle.map g.idOf

end CallGraph

end CallAtlas
