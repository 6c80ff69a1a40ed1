/-
Module: CallAtlas.Proofs.CycleExploration
Purpose: A search for cycles by recursion on the path, without a stack, marks or places, and what it
  keeps true.  The nodes of a path are reached in the order of the path, so both the path and every
  cycle cut out of it are sublists of the nodes in the order of their discovery.  This order is what
  the search preserves from callee to callee; it makes cycles free of repetition, and it tells two
  rotations of one cycle apart.
Main definitions: Exploration, cycleOf, CallGraph.explore, CallGraph.exploredCycles,
  Exploration.Extends, Exploration.Valid, OnPath, FoundCycle
Main results: CallGraph.explore_extends, CallGraph.explore_valid, CallGraph.exploredCycles_found
-/
import CallAtlas.Graph.Cycle
import CallAtlas.Proofs.CallGraph

namespace CallAtlas

/-! ### The search by recursion -/

/-- What a search has reached, in the reverse order of discovery, and found. -/
structure Exploration where
  visited : List Nat
  found : List (List Nat)

namespace Exploration

/-- Adds a cycle, unless a rotation of it is there already. -/
def record (s : Exploration) (cycle : List Nat) : Exploration :=
  if (s.found.map canonicalRotation).contains (canonicalRotation cycle) then s
  else { s with found := s.found ++ [cycle] }

/-- Marks a node as reached. -/
def reach (s : Exploration) (node : Nat) : Exploration := { s with visited := node :: s.visited }

/-- Whether as many cycles were found as are wanted. -/
def isFull (s : Exploration) (limit : Nat) : Bool := limit ≤ s.found.length

end Exploration

/-- The part of a path from a node on it to its end.  The path is given from its end backwards. -/
def cycleOf (path : List Nat) (node : Nat) : List Nat :=
  node :: (path.takeWhile (· != node)).reverse

namespace CallGraph

/-- Searches on from the end of a path, which is given from its end backwards.  Paths do not repeat
nodes, so `fuel` need not exceed the number of nodes. -/
def explore (g : CallGraph) (limit : Nat) : Nat → List Nat → Exploration → Exploration
  | 0, _, s => s
  | _ + 1, [], s => s
  | fuel + 1, node :: path, s =>
    (g.successors node).foldl
      (fun s child =>
        if s.isFull limit then s
        else if (node :: path).contains child then s.record (cycleOf (node :: path) child)
        else if s.visited.contains child then s
        else explore g limit fuel (child :: node :: path) (s.reach child))
      s

/-- Searches from a node, unless it was reached before. -/
def exploreFrom (g : CallGraph) (limit : Nat) (s : Exploration) (root : Nat) : Exploration :=
  if s.isFull limit || s.visited.contains root then s
  else g.explore limit g.size [root] (s.reach root)

/-- The nodes of the first `limit` cycles that the search by recursion finds. -/
def exploredCycles (g : CallGraph) (limit : Nat) : List (List Nat) :=
  ((List.range g.size).foldl (g.exploreFrom limit) ⟨[], []⟩).found

end CallGraph

/-! ### Cutting a cycle out of a path -/

/-- The cycle that an edge back to a node of the path closes is the end of the path. -/
theorem cycleOf_ends_path {path : List Nat} {node : Nat} (onPath : node ∈ path) :
    (cycleOf path node).reverse <+: path := by
  induction path with
  | nil => cases onPath
  | cons x rest ih =>
      by_cases same : x = node
      · subst same
        simp [cycleOf]
      · have behind : node ∈ rest := by
          rcases List.mem_cons.1 onPath with rfl | behind
          · exact absurd rfl same
          · exact behind
        have longer : (cycleOf (x :: rest) node).reverse = x :: (cycleOf rest node).reverse := by
          simp [cycleOf, same]
        rw [longer, List.cons_prefix_cons]
        exact ⟨rfl, ih behind⟩

theorem head?_cycleOf (path : List Nat) (node : Nat) : (cycleOf path node).head? = some node := rfl

/-- A cycle ends at the end of the path. -/
theorem getLast?_cycleOf {path : List Nat} {last node : Nat} (onPath : node ∈ last :: path) :
    (cycleOf (last :: path) node).getLast? = some last := by
  rw [← List.head?_reverse]
  obtain ⟨rest, split⟩ := cycleOf_ends_path onPath
  have notEmpty : (cycleOf (last :: path) node).reverse ≠ [] := by simp [cycleOf]
  obtain ⟨x, more, cut⟩ := List.exists_cons_of_ne_nil notEmpty
  rw [cut, List.cons_append, List.cons.injEq] at split
  rw [cut, List.head?_cons, split.1]

/-! ### Growth of a search -/

namespace Exploration

/-- A later state of a search: nodes are added in front of those reached, cycles behind those
found. -/
structure Extends (s t : Exploration) : Prop where
  visited : s.visited <:+ t.visited
  found : s.found <+: t.found

theorem Extends.refl (s : Exploration) : s.Extends s :=
  ⟨List.suffix_rfl, List.prefix_rfl⟩

theorem Extends.trans {s t u : Exploration} (first : s.Extends t) (second : t.Extends u) :
    s.Extends u :=
  ⟨first.visited.trans second.visited, first.found.trans second.found⟩

/-- A search that ends with room for more cycles had room at every time before. -/
theorem Extends.length_lt {s t : Exploration} {limit : Nat} (later : s.Extends t)
    (room : t.found.length < limit) : s.found.length < limit :=
  Nat.lt_of_le_of_lt later.found.length_le room

theorem isFull_eq_false_iff {s : Exploration} {limit : Nat} :
    s.isFull limit = false ↔ s.found.length < limit := by
  simp [isFull]

theorem isFull_of_le {limit : Nat} {s : Exploration} (full : limit ≤ s.found.length) :
    s.isFull limit = true := by
  simpa [isFull] using full

theorem extends_reach (s : Exploration) (node : Nat) : s.Extends (s.reach node) :=
  ⟨List.suffix_cons _ _, List.prefix_rfl⟩

theorem extends_record (s : Exploration) (cycle : List Nat) : s.Extends (s.record cycle) := by
  unfold record
  split
  · exact .refl s
  · exact ⟨List.suffix_rfl, List.prefix_append _ _⟩

end Exploration

namespace CallGraph

/-- What a search does with one callee of the end of a path. -/
def visitChild (g : CallGraph) (limit fuel : Nat) (path : List Nat) (s : Exploration)
    (child : Nat) : Exploration :=
  if s.isFull limit then s
  else if path.contains child then s.record (cycleOf path child)
  else if s.visited.contains child then s
  else g.explore limit fuel (child :: path) (s.reach child)

/-- To search on from the end of a path is to visit its callees in order. -/
theorem explore_succ (g : CallGraph) (limit fuel node : Nat) (path : List Nat) (s : Exploration) :
    g.explore limit (fuel + 1) (node :: path) s =
      (g.successors node).foldl (g.visitChild limit fuel (node :: path)) s := rfl

/-- No callee is visited once the list is full. -/
theorem foldl_visitChild_of_full {g : CallGraph} {limit fuel : Nat} {path : List Nat}
    {s : Exploration} (full : limit ≤ s.found.length) (children : List Nat) :
    children.foldl (g.visitChild limit fuel path) s = s := by
  induction children with
  | nil => rfl
  | cons child more ih =>
      have still : g.visitChild limit fuel path s child = s := by
        rw [visitChild, Exploration.isFull_of_le full, if_pos rfl]
      rw [List.foldl_cons, still, ih]

/-- A callee is skipped, closes a cycle, or is searched from. -/
theorem visitChild_cases (g : CallGraph) (limit fuel : Nat) (path : List Nat) (s : Exploration)
    (child : Nat) :
    (limit ≤ s.found.length ∧ g.visitChild limit fuel path s child = s) ∨
    (child ∈ path ∧ g.visitChild limit fuel path s child = s.record (cycleOf path child)) ∨
    (child ∉ path ∧ child ∈ s.visited ∧ g.visitChild limit fuel path s child = s) ∨
    (child ∉ path ∧ child ∉ s.visited ∧
      g.visitChild limit fuel path s child =
        g.explore limit fuel (child :: path) (s.reach child)) := by
  unfold visitChild
  split
  · next full => exact .inl ⟨by simpa [Exploration.isFull] using full, rfl⟩
  · split
    · next onPath => exact .inr (.inl ⟨List.contains_iff_mem.1 onPath, rfl⟩)
    · next offPath =>
        have offPath : child ∉ path := fun onPath => offPath (List.contains_iff_mem.2 onPath)
        split
        · next reached =>
            exact .inr (.inr (.inl ⟨offPath, List.contains_iff_mem.1 reached, rfl⟩))
        · next fresh =>
            exact .inr (.inr (.inr ⟨offPath,
              fun reached => fresh (List.contains_iff_mem.2 reached), rfl⟩))

private theorem visitChild_extends_of {g : CallGraph} {limit fuel : Nat}
    (deeper : ∀ path s, Exploration.Extends s (g.explore limit fuel path s)) (path : List Nat)
    (s : Exploration) (child : Nat) : s.Extends (g.visitChild limit fuel path s child) := by
  rcases g.visitChild_cases limit fuel path s child with
    ⟨_, same⟩ | ⟨_, closed⟩ | ⟨_, _, same⟩ | ⟨_, _, entered⟩
  · rw [same]
    exact .refl s
  · rw [closed]
    exact s.extends_record _
  · rw [same]
    exact .refl s
  · rw [entered]
    exact (s.extends_reach child).trans (deeper _ _)

/-- To search on from a path only adds to what was reached and found. -/
theorem explore_extends (g : CallGraph) (limit fuel : Nat) (path : List Nat) (s : Exploration) :
    s.Extends (g.explore limit fuel path s) := by
  induction fuel generalizing path s with
  | zero => exact .refl s
  | succ fuel ih =>
      cases path with
      | nil => exact .refl s
      | cons node path =>
          rw [explore_succ]
          refine List.foldlRecOn (motive := s.Extends) _ _ (.refl s) ?_
          intro t grown child _
          exact grown.trans (visitChild_extends_of ih _ t child)

theorem visitChild_extends (g : CallGraph) (limit fuel : Nat) (path : List Nat) (s : Exploration)
    (child : Nat) : s.Extends (g.visitChild limit fuel path s child) :=
  visitChild_extends_of (g.explore_extends limit fuel) path s child

end CallGraph

/-! ### What a search keeps true -/

/-- A path of a search, given from its end backwards: it follows edges, and its nodes were reached
in the order of the path. -/
structure OnPath (g : CallGraph) (visited path : List Nat) : Prop where
  chain : path.IsChain fun later earlier => g.Calls earlier later
  ordered : path.Sublist visited

/-- A cycle of a search: it follows edges, an edge closes it, and its nodes were reached in the
order of the cycle. -/
structure FoundCycle (g : CallGraph) (visited cycle : List Nat) : Prop where
  chain : cycle.IsChain g.Calls
  closed : ∃ last first, cycle.getLast? = some last ∧ cycle.head? = some first ∧
    g.Calls last first
  ordered : cycle.reverse.Sublist visited

/-- A state in which no node was reached twice, only nodes of the graph were reached, and all cycles
are cycles of the search. -/
structure Exploration.Valid (g : CallGraph) (s : Exploration) : Prop where
  nodup : s.visited.Nodup
  bounded : ∀ node ∈ s.visited, node < g.size
  cycles : ∀ cycle ∈ s.found, FoundCycle g s.visited cycle

theorem OnPath.mono {g : CallGraph} {visited later path : List Nat} (grown : visited <:+ later)
    (onPath : OnPath g visited path) : OnPath g later path :=
  ⟨onPath.chain, onPath.ordered.trans grown.sublist⟩

/-- A path grows by a callee of its end that was just reached. -/
theorem OnPath.cons {g : CallGraph} {visited path : List Nat} {node child : Nat}
    (onPath : OnPath g visited (node :: path)) (edge : g.Calls node child) :
    OnPath g (child :: visited) (child :: node :: path) :=
  ⟨onPath.chain.cons_cons edge, onPath.ordered.cons_cons child⟩

theorem OnPath.singleton (g : CallGraph) (visited : List Nat) (root : Nat) :
    OnPath g (root :: visited) [root] :=
  ⟨.singleton root, by simp⟩

/-- An edge from the end of a path back to the path closes a cycle of the search. -/
theorem OnPath.foundCycle {g : CallGraph} {visited path : List Nat} {node child : Nat}
    (onPath : OnPath g visited (node :: path)) (edge : g.Calls node child)
    (back : child ∈ node :: path) : FoundCycle g visited (cycleOf (node :: path) child) where
  chain := by
    -- a path is kept from its end backwards, a cycle from its start
    have cut := List.IsChain.prefix onPath.chain (cycleOf_ends_path back)
    rwa [← List.isChain_reverse, List.reverse_reverse] at cut
  closed := ⟨node, child, getLast?_cycleOf back, head?_cycleOf _ _, edge⟩
  ordered := (cycleOf_ends_path back).sublist.trans onPath.ordered

namespace Exploration

theorem Valid.reach {g : CallGraph} {s : Exploration} {node : Nat} (valid : s.Valid g)
    (bound : node < g.size) (fresh : node ∉ s.visited) : (s.reach node).Valid g where
  nodup := List.nodup_cons.2 ⟨fresh, valid.nodup⟩
  bounded := by
    intro x reached
    rcases List.mem_cons.1 reached with rfl | before
    · exact bound
    · exact valid.bounded x before
  cycles := by
    intro cycle found
    have before := valid.cycles cycle found
    exact ⟨before.chain, before.closed, before.ordered.cons node⟩

theorem Valid.record {g : CallGraph} {s : Exploration} {cycle : List Nat} (valid : s.Valid g)
    (real : FoundCycle g s.visited cycle) : (s.record cycle).Valid g := by
  unfold Exploration.record
  split
  · exact valid
  · refine ⟨valid.nodup, valid.bounded, ?_⟩
    intro other found
    rcases List.mem_append.1 found with before | new
    · exact valid.cycles other before
    · rw [List.mem_singleton] at new
      rw [new]
      exact real

end Exploration

namespace CallGraph

variable {g : CallGraph} {limit : Nat}

private theorem visitChild_valid_of {fuel : Nat} (bounded : g.Bounded)
    (deeper : ∀ path s, OnPath g s.visited path → s.Valid g → (g.explore limit fuel path s).Valid g)
    {node child : Nat} {path : List Nat} {s : Exploration} (edge : g.Calls node child)
    (onPath : OnPath g s.visited (node :: path)) (valid : s.Valid g) :
    (g.visitChild limit fuel (node :: path) s child).Valid g := by
  rcases g.visitChild_cases limit fuel (node :: path) s child with
    ⟨_, same⟩ | ⟨back, closed⟩ | ⟨_, _, same⟩ | ⟨_, fresh, entered⟩
  · rw [same]
    exact valid
  · rw [closed]
    exact valid.record (onPath.foundCycle edge back)
  · rw [same]
    exact valid
  · rw [entered]
    exact deeper _ _ (onPath.cons edge) (valid.reach (bounded _ _ edge) fresh)

/-- To search on from a path keeps a state valid. -/
theorem explore_valid (bounded : g.Bounded) {fuel : Nat} {path : List Nat} {s : Exploration}
    (onPath : OnPath g s.visited path) (valid : s.Valid g) :
    (g.explore limit fuel path s).Valid g := by
  induction fuel generalizing path s with
  | zero => exact valid
  | succ fuel ih =>
      cases path with
      | nil => exact valid
      | cons node path =>
          rw [explore_succ]
          -- the path stays a path of the search while its callees are visited
          refine (List.foldlRecOn (motive := fun t => s.Extends t ∧ t.Valid g) _ _
            ⟨.refl s, valid⟩ ?_).2
          rintro t ⟨grown, valid⟩ child listed
          exact ⟨grown.trans (g.visitChild_extends ..),
            visitChild_valid_of bounded (fun _ _ => ih) (mem_successors.1 listed)
              (onPath.mono grown.visited) valid⟩

theorem visitChild_valid (bounded : g.Bounded) {fuel node child : Nat} {path : List Nat}
    {s : Exploration} (edge : g.Calls node child) (onPath : OnPath g s.visited (node :: path))
    (valid : s.Valid g) : (g.visitChild limit fuel (node :: path) s child).Valid g :=
  visitChild_valid_of bounded (fun _ _ => explore_valid bounded) edge onPath valid

theorem exploreFrom_extends (g : CallGraph) (limit : Nat) (s : Exploration) (root : Nat) :
    s.Extends (g.exploreFrom limit s root) := by
  unfold exploreFrom
  split
  · exact .refl s
  · exact (s.extends_reach root).trans (g.explore_extends ..)

theorem exploreFrom_valid (bounded : g.Bounded) {s : Exploration} {root : Nat}
    (valid : s.Valid g) (bound : root < g.size) : (g.exploreFrom limit s root).Valid g := by
  unfold exploreFrom
  split
  · exact valid
  · next unskipped =>
      have fresh : root ∉ s.visited := by
        intro reached
        simp [reached] at unskipped
      exact explore_valid bounded (.singleton g s.visited root) (valid.reach bound fresh)

/-- Every cycle that is listed is a cycle of the whole search. -/
theorem exploredCycles_found (bounded : g.Bounded) {cycle : List Nat}
    (listed : cycle ∈ g.exploredCycles limit) :
    ∃ visited, visited.Nodup ∧ FoundCycle g visited cycle := by
  have valid : ((List.range g.size).foldl (g.exploreFrom limit) ⟨[], []⟩).Valid g := by
    refine List.foldlRecOn (motive := Exploration.Valid g) _ _ ⟨by simp, by simp, by simp⟩ ?_
    intro s valid root inRange
    exact exploreFrom_valid bounded valid (List.mem_range.1 inRange)
  exact ⟨_, valid.nodup, valid.cycles cycle listed⟩

end CallGraph

theorem FoundCycle.closedWalk {g : CallGraph} {visited cycle : List Nat}
    (found : FoundCycle g visited cycle) : ClosedWalk g.Calls cycle := by
  obtain ⟨last, first, atLast, atFirst, closing⟩ := found.closed
  exact .of_isChain found.chain atFirst atLast closing

end CallAtlas
