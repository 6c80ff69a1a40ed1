/-
Module: CallAtlas.Proofs.CycleCoverage
Purpose: Every cycle of direct calls shows in the list of cycles, as long as the list is not full.
  An edge is open if it closes no listed cycle.  A node that the search has left is finished: no
  endless walk along open edges starts at it.  When the search is over every node is finished, so a
  closed walk cannot consist of open edges only.
Main definitions: Closes, CallGraph.Finished, Settled
Main results: mem_found_record, CallGraph.explore_settled, CallGraph.closedWalk_closes_cycle,
  cycles_cover_closed_walks
-/
import CallAtlas.Proofs.CycleSearch

namespace CallAtlas

/-! ### Rotations of one cycle -/

theorem canonicalRotation_perm (cycle : List Nat) : (canonicalRotation cycle).Perm cycle := by
  unfold canonicalRotation
  split
  · exact .refl _
  · next least _ =>
      have swapped : (cycle.dropWhile (· != least) ++ cycle.takeWhile (· != least)).Perm
          (cycle.takeWhile (· != least) ++ cycle.dropWhile (· != least)) := List.perm_append_comm
      rwa [List.takeWhile_append_dropWhile] at swapped

/-- A cycle of the search is in the list after it was recorded: no other cycle of the search is a
rotation of it, because the nodes of both are in the order of their discovery. -/
theorem mem_found_record {g : CallGraph} {s : Exploration} {cycle : List Nat}
    (valid : s.Valid g) (real : FoundCycle g s.visited cycle) :
    cycle ∈ (s.record cycle).found := by
  unfold Exploration.record
  split
  · next seen =>
      obtain ⟨other, found, same⟩ := List.mem_map.1 (List.contains_iff_mem.1 seen)
      have perm : other.Perm cycle :=
        (canonicalRotation_perm other).symm.trans (same ▸ canonicalRotation_perm cycle)
      -- both cycles are in the order of discovery, so the same nodes make the same list
      have equal : other.reverse = cycle.reverse := by
        rw [← valid.nodup.perm_iff_eq_of_sublist (valid.cycles other found).ordered real.ordered]
        exact (List.reverse_perm other).trans (perm.trans (List.reverse_perm cycle).symm)
      rw [List.reverse_inj] at equal
      rwa [← equal]
  · exact List.mem_append_right _ List.mem_cons_self

/-! ### Finished nodes -/

/-- An edge closes one of several cycles: it leads from the last node of it to the first one. -/
def Closes (found : List (List Nat)) (x y : Nat) : Prop :=
  ∃ cycle ∈ found, cycle.getLast? = some x ∧ cycle.head? = some y

theorem Closes.mono {found later : List (List Nat)} {x y : Nat} (grown : found <+: later)
    (closes : Closes found x y) : Closes later x y := by
  obtain ⟨cycle, listed, ends⟩ := closes
  exact ⟨cycle, grown.subset listed, ends⟩

/-- No endless walk along edges that close no cycle starts at the node. -/
def CallGraph.Finished (g : CallGraph) (found : List (List Nat)) (node : Nat) : Prop :=
  Acc (fun y x => g.Calls x y ∧ ¬ Closes found x y) node

namespace CallGraph

variable {g : CallGraph}

theorem Finished.mono {found later : List (List Nat)} {node : Nat} (grown : found <+: later)
    (finished : g.Finished found node) : g.Finished later node :=
  Subrelation.accessible
    (fun {_ _} step => ⟨step.1, fun closes => step.2 (closes.mono grown)⟩) finished

/-- A node is finished once each of its edges closes a cycle or leads to a finished node. -/
theorem Finished.of_successors {found : List (List Nat)} {node : Nat}
    (left : ∀ child ∈ g.successors node, Closes found node child ∨ g.Finished found child) :
    g.Finished found node := by
  refine Acc.intro node ?_
  rintro child ⟨edge, opened⟩
  exact (left child (mem_successors.2 edge)).resolve_left opened

end CallGraph

/-- Every node that was reached is on the path or finished. -/
def Settled (g : CallGraph) (s : Exploration) (path : List Nat) : Prop :=
  ∀ node ∈ s.visited, node ∈ path ∨ g.Finished s.found node

theorem Settled.record {g : CallGraph} {s : Exploration} {path cycle : List Nat}
    (settled : Settled g s path) : Settled g (s.record cycle) path := by
  intro node reached
  have unchanged : (s.record cycle).visited = s.visited := by
    unfold Exploration.record
    split <;> rfl
  rw [unchanged] at reached
  rcases settled node reached with onPath | finished
  · exact .inl onPath
  · exact .inr (finished.mono (s.extends_record cycle).found)

theorem Settled.reach {g : CallGraph} {s : Exploration} {path : List Nat}
    (settled : Settled g s path) (child : Nat) : Settled g (s.reach child) (child :: path) := by
  intro node reached
  rcases List.mem_cons.1 reached with rfl | before
  · exact .inl List.mem_cons_self
  · rcases settled node before with onPath | finished
    · exact .inl (List.mem_cons_of_mem child onPath)
    · exact .inr finished

/-! ### A search finishes the nodes it leaves -/

namespace CallGraph

variable {g : CallGraph} {limit : Nat}

/-- A search from a callee that was not reached, put at the end of the path, settles the callee. -/
def SettlesCallees (g : CallGraph) (limit fuel node : Nat) (path : List Nat) : Prop :=
  ∀ (child : Nat) (s : Exploration), g.Calls node child → OnPath g s.visited (node :: path) →
    s.Valid g → Settled g s (node :: path) → child ∉ s.visited →
    (g.explore limit fuel (child :: node :: path) (s.reach child)).found.length < limit →
    Settled g (g.explore limit fuel (child :: node :: path) (s.reach child)) (node :: path)

/-- To visit a callee leaves the search settled, and the edge to the callee closes a cycle or the
callee is finished. -/
theorem visitChild_settled {fuel node child : Nat} {path : List Nat} {s : Exploration}
    (deeper : g.SettlesCallees limit fuel node path) (edge : g.Calls node child)
    (onPath : OnPath g s.visited (node :: path)) (valid : s.Valid g)
    (settled : Settled g s (node :: path))
    (room : (g.visitChild limit fuel (node :: path) s child).found.length < limit) :
    Settled g (g.visitChild limit fuel (node :: path) s child) (node :: path) ∧
      (Closes (g.visitChild limit fuel (node :: path) s child).found node child ∨
        g.Finished (g.visitChild limit fuel (node :: path) s child).found child) := by
  rcases g.visitChild_cases limit fuel (node :: path) s child with
    ⟨full, same⟩ | ⟨back, closed⟩ | ⟨offPath, reached, same⟩ | ⟨offPath, fresh, entered⟩
  · -- a full list contradicts the room that is left
    rw [same] at room
    omega
  · rw [closed]
    have listed := mem_found_record valid (onPath.foundCycle edge back)
    exact ⟨settled.record, .inl ⟨_, listed, getLast?_cycleOf back, head?_cycleOf _ _⟩⟩
  · rw [same]
    exact ⟨settled, .inr ((settled child reached).resolve_left offPath)⟩
  · rw [entered] at room ⊢
    have after := deeper child s edge onPath valid settled fresh room
    have reached : child ∈ (g.explore limit fuel (child :: node :: path) (s.reach child)).visited :=
      (g.explore_extends ..).visited.subset List.mem_cons_self
    exact ⟨after, .inr ((after child reached).resolve_left offPath)⟩

/-- To visit several callees in order leaves the search settled, and each of their edges closes a
cycle or leads to a finished node. -/
theorem foldl_visitChild_settled (bounded : g.Bounded) {fuel node : Nat} {path : List Nat}
    (deeper : g.SettlesCallees limit fuel node path)
    {children : List Nat} {s : Exploration} (edges : ∀ child ∈ children, g.Calls node child)
    (onPath : OnPath g s.visited (node :: path)) (valid : s.Valid g)
    (settled : Settled g s (node :: path))
    (room : (children.foldl (g.visitChild limit fuel (node :: path)) s).found.length < limit) :
    Settled g (children.foldl (g.visitChild limit fuel (node :: path)) s) (node :: path) ∧
      ∀ child ∈ children,
        Closes (children.foldl (g.visitChild limit fuel (node :: path)) s).found node child ∨
          g.Finished (children.foldl (g.visitChild limit fuel (node :: path)) s).found child := by
  induction children generalizing s with
  | nil => exact ⟨settled, by simp⟩
  | cons child more ih =>
      rw [List.foldl_cons] at room ⊢
      have edge := edges child List.mem_cons_self
      have grown := g.visitChild_extends limit fuel (node :: path) s child
      have rest : (g.visitChild limit fuel (node :: path) s child).Extends
          (more.foldl (g.visitChild limit fuel (node :: path))
            (g.visitChild limit fuel (node :: path) s child)) :=
        List.foldlRecOn (motive := Exploration.Extends _) _ _ (.refl _)
          fun _ before _ _ => before.trans (g.visitChild_extends ..)
      obtain ⟨settledHere, leftHere⟩ :=
        visitChild_settled deeper edge onPath valid settled (rest.length_lt room)
      obtain ⟨settledAfter, leftAfter⟩ :=
        ih (fun other listed => edges other (List.mem_cons_of_mem child listed))
          (onPath.mono grown.visited) (visitChild_valid bounded edge onPath valid) settledHere room
      refine ⟨settledAfter, ?_⟩
      intro other listed
      rcases List.mem_cons.1 listed with rfl | behind
      · -- what holds after the first callee still holds after the others
        rcases leftHere with closes | finished
        · exact .inl (closes.mono rest.found)
        · exact .inr (finished.mono rest.found)
      · exact leftAfter other behind

/-- When the search from the end of a path is over, that node is finished as well.  The fuel is
enough for paths that do not repeat a node. -/
theorem explore_settled (bounded : g.Bounded) {fuel node : Nat} {path : List Nat}
    {s : Exploration} (enough : g.size ≤ fuel + path.length)
    (onPath : OnPath g s.visited (node :: path)) (valid : s.Valid g)
    (settled : Settled g s (node :: path))
    (room : (g.explore limit fuel (node :: path) s).found.length < limit) :
    Settled g (g.explore limit fuel (node :: path) s) path := by
  induction fuel generalizing node path s with
  | zero =>
      -- without fuel the path would have more nodes than the graph
      have short : (node :: path).length ≤ g.size :=
        length_le_size (valid.nodup.sublist onPath.ordered)
          fun other listed => valid.bounded other (onPath.ordered.subset listed)
      rw [List.length_cons] at short
      omega
  | succ fuel ih =>
      rw [explore_succ] at room ⊢
      have deeper : g.SettlesCallees limit fuel node path := by
        intro child t edge onPath valid settled fresh room
        have enough : g.size ≤ fuel + (node :: path).length := by
          rw [List.length_cons]
          omega
        exact ih enough (onPath.cons edge) (valid.reach (bounded _ _ edge) fresh)
          (settled.reach child) room
      obtain ⟨settledAfter, left⟩ := foldl_visitChild_settled bounded deeper
        (fun child listed => mem_successors.1 listed) onPath valid settled room
      -- only the end of the path changes its standing: from here on it is finished
      intro other reached
      rcases settledAfter other reached with listed | finished
      · rcases List.mem_cons.1 listed with rfl | behind
        · exact .inr (.of_successors left)
        · exact .inl behind
      · exact .inr finished

/-- A search from a root finishes every node it reaches, and it reaches the root. -/
theorem exploreFrom_settled (bounded : g.Bounded) {s : Exploration} {root : Nat}
    (bound : root < g.size) (valid : s.Valid g) (settled : Settled g s [])
    (room : (g.exploreFrom limit s root).found.length < limit) :
    Settled g (g.exploreFrom limit s root) [] ∧ root ∈ (g.exploreFrom limit s root).visited := by
  have roomBefore := (g.exploreFrom_extends limit s root).length_lt room
  rw [← Exploration.isFull_eq_false_iff] at roomBefore
  by_cases reached : s.visited.contains root
  · have skipped : g.exploreFrom limit s root = s := by
      rw [exploreFrom, reached, Bool.or_true, if_pos rfl]
    rw [skipped]
    exact ⟨settled, List.contains_iff_mem.1 reached⟩
  · have entered : g.exploreFrom limit s root = g.explore limit g.size [root] (s.reach root) := by
      rw [exploreFrom, roomBefore, Bool.false_or, if_neg reached]
    rw [entered] at room ⊢
    have fresh : root ∉ s.visited := fun listed => reached (List.contains_iff_mem.2 listed)
    refine ⟨?_, (g.explore_extends ..).visited.subset List.mem_cons_self⟩
    exact explore_settled bounded (by simp) (.singleton g s.visited root)
      (valid.reach bound fresh) (settled.reach root) room

/-- A search from several roots finishes every node it reaches, and it reaches every root. -/
theorem foldl_exploreFrom_settled (bounded : g.Bounded) {roots : List Nat} {s : Exploration}
    (inside : ∀ root ∈ roots, root < g.size) (valid : s.Valid g) (settled : Settled g s [])
    (room : (roots.foldl (g.exploreFrom limit) s).found.length < limit) :
    Settled g (roots.foldl (g.exploreFrom limit) s) [] ∧
      ∀ root ∈ roots, root ∈ (roots.foldl (g.exploreFrom limit) s).visited := by
  induction roots generalizing s with
  | nil => exact ⟨settled, by simp⟩
  | cons root more ih =>
      rw [List.foldl_cons] at room ⊢
      have bound := inside root List.mem_cons_self
      have rest : (g.exploreFrom limit s root).Extends
          (more.foldl (g.exploreFrom limit) (g.exploreFrom limit s root)) :=
        List.foldlRecOn (motive := Exploration.Extends _) _ _ (.refl _)
          fun _ before _ _ => before.trans (g.exploreFrom_extends ..)
      obtain ⟨settledHere, reachedHere⟩ :=
        exploreFrom_settled bounded bound valid settled (rest.length_lt room)
      obtain ⟨settledAfter, reachedAfter⟩ :=
        ih (fun other listed => inside other (List.mem_cons_of_mem root listed))
          (exploreFrom_valid bounded valid bound) settledHere room
      refine ⟨settledAfter, ?_⟩
      intro other listed
      rcases List.mem_cons.1 listed with rfl | behind
      · exact rest.visited.subset reachedHere
      · exact reachedAfter other behind

/-- If the list of cycles is not full, every node is finished at the end. -/
theorem cycleNodes_finished (bounded : g.Bounded) (room : (g.cycleNodes limit).length < limit)
    {node : Nat} (bound : node < g.size) : g.Finished (g.cycleNodes limit) node := by
  rw [cycleNodes_eq_exploredCycles bounded] at room ⊢
  obtain ⟨settled, reached⟩ := foldl_exploreFrom_settled bounded
    (fun root listed => List.mem_range.1 listed)
    (Exploration.Valid.mk (by simp) (by simp) (by simp)) (by simp [Settled]) room
  exact (settled node (reached node (List.mem_range.2 bound))).resolve_left (by simp)

/-- If the list of cycles is not full, every closed walk takes an edge that closes one of them. -/
theorem closedWalk_closes_cycle (bounded : g.Bounded) (room : (g.cycleNodes limit).length < limit)
    {walk : List Nat} (closed : ClosedWalk g.Calls walk) :
    ∃ x y, NextInCycle walk x y ∧ Closes (g.cycleNodes limit) x y := by
  by_contra none
  push Not at none
  -- along the walk a finished node would lead to finished nodes without end
  have endless : ∀ node, g.Finished (g.cycleNodes limit) node → node ∉ walk := by
    intro node finished
    induction finished with
    | intro node _ ih =>
        intro listed
        obtain ⟨next, step⟩ := NextInCycle.exists_of_mem listed
        exact ih next ⟨closed.2 _ _ step, none _ _ step⟩ step.mem_right
  obtain ⟨first, rest, rfl⟩ := List.exists_cons_of_ne_nil closed.1
  obtain ⟨next, step⟩ := NextInCycle.exists_of_mem (List.mem_cons_self (a := first) (l := rest))
  exact endless next
    (cycleNodes_finished bounded room (bounded _ _ (closed.2 _ _ step))) step.mem_right

end CallGraph

/-! ### Cycles of direct calls -/

/-- If fewer cycles are listed than asked for, every closed walk of direct calls takes the step from
the last to the first id of a listed cycle. -/
theorem CallGraph.closedWalk_takes_closing_call {ids : List String} {calls : List Call}
    {limit : Nat} (room : ((ofCalls ids calls).cycles limit).length < limit) {walk : List String}
    (closed : ClosedWalk (DirectlyCalls ids calls) walk) :
    ∃ cycle ∈ (ofCalls ids calls).cycles limit, ∃ last first,
      cycle.getLast? = some last ∧ cycle.head? = some first ∧ NextInCycle walk last first := by
  have roomNodes : ((ofCalls ids calls).cycleNodes limit).length < limit := by
    simpa [cycles] using room
  have closedNodes : ClosedWalk (ofCalls ids calls).Calls (walk.map (nodeOf ids)) :=
    closed.map fun _ _ direct => calls_nodeOf direct
  obtain ⟨x, y, next, nodes, listed, atLast, atFirst⟩ :=
    closedWalk_closes_cycle ofCalls_bounded roomNodes closedNodes
  obtain ⟨last, first, step, rfl, rfl⟩ := next.of_map
  have direct := closed.2 _ _ step
  refine ⟨nodes.map (ofCalls ids calls).idOf, List.mem_map_of_mem listed, last, first, ?_, ?_,
    step⟩
  · simp [atLast, idOf_nodeOf direct.1]
  · simp [atFirst, idOf_nodeOf direct.2.1]

/-- If fewer cycles are listed than asked for, every closed walk of direct calls between known
functions, whether or not it repeats an id, takes the step from the last to the first id of a listed
cycle.  No cycle is listed exactly if the graph of direct calls has none. -/
theorem cycles_cover_closed_walks (functions : List Function) (calls : List Call) (limit : Nat)
    (positive : 1 ≤ limit) :
    (((CallGraph.ofCalls (functions.map (·.id)) calls).cycles limit).length < limit →
      ∀ walk, ClosedWalk (DirectlyCalls (functions.map (·.id)) calls) walk →
        ∃ cycle ∈ (CallGraph.ofCalls (functions.map (·.id)) calls).cycles limit, ∃ last first,
          cycle.getLast? = some last ∧ cycle.head? = some first ∧
            NextInCycle walk last first) ∧
    ((CallGraph.ofCalls (functions.map (·.id)) calls).cycles limit = [] ↔
      ¬ ∃ walk, walk.Nodup ∧ ClosedWalk (DirectlyCalls (functions.map (·.id)) calls) walk) := by
  refine ⟨fun room walk closed => CallGraph.closedWalk_takes_closing_call room closed, ?_, ?_⟩
  · rintro none ⟨walk, _, closed⟩
    have room : ((CallGraph.ofCalls (functions.map (·.id)) calls).cycles limit).length < limit := by
      rw [none]
      exact positive
    obtain ⟨cycle, listed, _⟩ := CallGraph.closedWalk_takes_closing_call room closed
    rw [none] at listed
    cases listed
  · intro acyclic
    rw [List.eq_nil_iff_forall_not_mem]
    intro cycle listed
    exact acyclic ⟨cycle, CallGraph.cycles_closedWalk listed⟩

/-- Three functions in a ring with a step back: the list has two cycles, and the walk around the
ring closes the first of them. -/
theorem cycles_cover_closed_walks_ring :
    let functions := ["a", "b", "c"].map Function.withId
    let calls := [Call.direct "a" "b", Call.direct "b" "c", Call.direct "c" "a",
      Call.direct "b" "a"]
    1 ≤ 5 ∧ ((CallGraph.ofCalls (functions.map (·.id)) calls).cycles 5).length < 5 ∧
      ClosedWalk (DirectlyCalls (functions.map (·.id)) calls) ["b", "c", "a"] ∧
      ∃ cycle ∈ (CallGraph.ofCalls (functions.map (·.id)) calls).cycles 5, ∃ last first,
        cycle.getLast? = some last ∧ cycle.head? = some first ∧
          NextInCycle ["b", "c", "a"] last first := by
  intro functions calls
  have room : ((CallGraph.ofCalls (functions.map (·.id)) calls).cycles 5).length < 5 := by
    rw [CallGraph.cycles_eq_exploredCycles]
    decide
  have closed : ClosedWalk (DirectlyCalls (functions.map (·.id)) calls) ["b", "c", "a"] :=
    .of_isChain (by decide) rfl rfl (by decide)
  exact ⟨by decide, room, closed,
    (cycles_cover_closed_walks functions calls 5 (by decide)).1 room _ closed⟩

end CallAtlas
