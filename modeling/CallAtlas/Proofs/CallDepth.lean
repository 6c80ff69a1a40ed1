/-
Module: CallAtlas.Proofs.CallDepth
Purpose: The search for the longest chain of calls ends, and it finds the longest one.  A search
  enters a node again and again, so neither nodes nor edges are used up by it.  What carries the
  proof is the path: the search between entering and leaving a node is a run of its own, it gives
  the path back as it was, and it can only put nodes on the path that are not there yet.
Main definitions: DepthSearch.Steps, Trail, DeepestBelow, SimpleCallPath
Main results: DepthSearch.steps_through_callees, CallGraph.depthFrom_eq,
  maxDepth_is_longest_simple_path
-/
import CallAtlas.Graph.Depth
import CallAtlas.Proofs.CallGraph
import Mathlib.Logic.Relation
import Mathlib.Order.Bounds.Basic

namespace CallAtlas

namespace DepthSearch

/-! ### Runs of a search -/

/-- One state of a search leads to another one in any number of steps. -/
def Steps (g : CallGraph) : DepthSearch → DepthSearch → Prop :=
  Relation.ReflTransGen fun s t => s.step g = some t

/-- All states that a search passes through give the same result. -/
theorem Steps.run_eq {g : CallGraph} {s t : DepthSearch} (steps : Steps g s t) :
    s.run g = t.run g := by
  induction steps with
  | refl => rfl
  | tail _ step ih =>
      rw [ih, run, step]

theorem run_of_ended {g : CallGraph} {s : DepthSearch} (ended : s.step g = none) :
    s.run g = some s.depth := by
  rw [run, ended]

/-! ### The steps -/

variable {g : CallGraph} {node child depth deepest : Nat} {pending : List Nat}
  {below : List DepthFrame} {onPath : Array Bool}

/-- A callee on the path is passed over. -/
theorem step_skip (marked : onPath.getD child false = true) :
    step g ⟨⟨node, child :: pending, deepest⟩ :: below, onPath, depth⟩ =
      some ⟨⟨node, pending, deepest⟩ :: below, onPath, depth⟩ := by
  simp only [step, if_pos marked]

/-- A callee that is not on the path is entered. -/
theorem step_enter (unmarked : onPath.getD child false = false) :
    step g ⟨⟨node, child :: pending, deepest⟩ :: below, onPath, depth⟩ =
      some ⟨g.openFrame child :: ⟨node, pending, deepest⟩ :: below,
        onPath.setIfInBounds child true, depth⟩ := by
  simp only [step, unmarked, Bool.false_eq_true, if_false]

/-- A node without callees left is taken off the path, and the node before it learns its depth. -/
theorem step_leave {parent : DepthFrame} :
    step g ⟨⟨node, [], deepest⟩ :: parent :: below, onPath, depth⟩ =
      some ⟨{ parent with deepest := max parent.deepest (1 + deepest) } :: below,
        onPath.setIfInBounds node false, depth⟩ := rfl

/-- The first node of the path leaves its depth behind as the depth of the search. -/
theorem step_leave_root :
    step g ⟨[⟨node, [], deepest⟩], onPath, depth⟩ =
      some ⟨[], onPath.setIfInBounds node false, 1 + deepest⟩ := rfl

end DepthSearch

/-! ### Paths -/

/-- A path that repeats no node, given from its end backwards. -/
structure Trail (g : CallGraph) (path : List Nat) : Prop where
  nodup : path.Nodup
  bounded : ∀ node ∈ path, node < g.size
  chain : path.IsChain fun later earlier => g.Calls earlier later

theorem Trail.singleton {g : CallGraph} {root : Nat} (bound : root < g.size) :
    Trail g [root] :=
  ⟨by simp, by simpa using bound, .singleton root⟩

/-- A path grows by a callee of its end that is not on it. -/
theorem Trail.cons {g : CallGraph} {path : List Nat} {node child : Nat}
    (trail : Trail g (node :: path)) (bounded : g.Bounded) (edge : g.Calls node child)
    (fresh : child ∉ node :: path) : Trail g (child :: node :: path) where
  nodup := List.nodup_cons.2 ⟨fresh, trail.nodup⟩
  bounded := by
    intro x listed
    rcases List.mem_cons.1 listed with rfl | before
    · exact bounded _ _ edge
    · exact trail.bounded x before
  chain := trail.chain.cons_cons edge

/-- A path is followed along edges, so it can be cut between any two nodes. -/
theorem Trail.calls {g : CallGraph} {front path : List Nat} {node child : Nat}
    (trail : Trail g (front ++ child :: node :: path)) : g.Calls node child :=
  trail.chain.right_of_append.rel

/-! ### What the callees of a node add to the depth -/

/-- The depth a node knows after it tried some of its callees: the longest way on through one of
them, or what it knew before. -/
structure DeepestBelow (g : CallGraph) (path tried : List Nat) (before after : Nat) : Prop where
  kept : before ≤ after
  covers : ∀ child ∈ tried, ∀ way, Trail g (way ++ child :: path) → way.length + 1 ≤ after
  attained : after = before ∨
    ∃ child ∈ tried, ∃ way, Trail g (way ++ child :: path) ∧ way.length + 1 = after

/-- The numbers of nodes by which a path can be made longer. -/
def continuations (g : CallGraph) (path : List Nat) : Set Nat :=
  { n | ∃ way, Trail g (way ++ path) ∧ way.length = n }

/-- Once a node has tried all of its callees it knows the longest way on from it. -/
theorem DeepestBelow.isGreatest {g : CallGraph} {path : List Nat} {node deepest : Nat}
    (trail : Trail g (node :: path))
    (below : DeepestBelow g (node :: path) (g.successors node) 0 deepest) :
    IsGreatest (continuations g (node :: path)) deepest := by
  constructor
  · rcases below.attained with none | ⟨child, _, way, longer, length⟩
    · exact ⟨[], trail, none.symm⟩
    · exact ⟨way ++ [child], by simpa using longer, by simpa using length⟩
  · rintro _ ⟨way, longer, rfl⟩
    -- the way on is empty or goes through one of the callees
    rcases List.eq_nil_or_concat way with rfl | ⟨front, child, rfl⟩
    · exact Nat.zero_le _
    · rw [List.concat_append] at longer
      rw [List.length_concat]
      exact below.covers child (CallGraph.mem_successors.2 longer.calls) front longer

theorem DeepestBelow.nil {g : CallGraph} {path : List Nat} (deepest : Nat) :
    DeepestBelow g path [] deepest deepest :=
  ⟨Nat.le_refl _, by simp, .inl rfl⟩

/-- A callee on the path adds nothing. -/
theorem DeepestBelow.cons_of_mem {g : CallGraph} {path tried : List Nat}
    {child before after : Nat} (onPath : child ∈ path)
    (rest : DeepestBelow g path tried before after) :
    DeepestBelow g path (child :: tried) before after where
  kept := rest.kept
  covers := by
    intro other listed way longer
    rcases List.mem_cons.1 listed with rfl | behind
    · exact absurd onPath (List.nodup_cons.1 (longer.nodup.of_append_right)).1
    · exact rest.covers other behind way longer
  attained := by
    rcases rest.attained with same | ⟨other, listed, longest⟩
    · exact .inl same
    · exact .inr ⟨other, List.mem_cons_of_mem child listed, longest⟩

/-- A callee that is not on the path adds the longest way on from it. -/
theorem DeepestBelow.cons_of_isGreatest {g : CallGraph} {path tried : List Nat}
    {child before after depth : Nat} (longest : IsGreatest (continuations g (child :: path)) depth)
    (rest : DeepestBelow g path tried (max before (1 + depth)) after) :
    DeepestBelow g path (child :: tried) before after where
  kept := Nat.le_trans (Nat.le_max_left _ _) rest.kept
  covers := by
    intro other listed way longer
    rcases List.mem_cons.1 listed with rfl | behind
    · have short : way.length ≤ depth := longest.2 ⟨way, longer, rfl⟩
      have known := Nat.le_trans (Nat.le_max_right _ _) rest.kept
      omega
    · exact rest.covers other behind way longer
  attained := by
    rcases rest.attained with same | ⟨other, listed, attained⟩
    · -- the callee alone decides: either it is no deeper than what was known, or it is the deepest
      rcases Nat.le_total (1 + depth) before with shorter | longer
      · exact .inl (by rw [same, Nat.max_eq_left shorter])
      · obtain ⟨way, trail, length⟩ := longest.1
        refine .inr ⟨child, List.mem_cons_self, way, trail, ?_⟩
        rw [same, Nat.max_eq_right longer]
        omega
    · exact .inr ⟨other, List.mem_cons_of_mem child listed, attained⟩

/-! ### A search through the callees of a node -/

namespace DepthSearch

variable {g : CallGraph}

/-- The nodes of a stack of frames. -/
def nodesOf (stack : List DepthFrame) : List Nat := stack.map (·.node)

/-- The search between entering a callee and leaving it again. -/
theorem steps_over_callee {node child depth deepest : Nat} {pending : List Nat}
    {below : List DepthFrame} {onPath : Array Bool} (bounded : g.Bounded)
    (edge : g.Calls node child) (trail : Trail g (node :: nodesOf below))
    (marks : NodeMarks g onPath (node :: nodesOf below)) (fresh : child ∉ node :: nodesOf below)
    (inner : ∃ after marks, Steps g
        ⟨g.openFrame child :: ⟨node, pending, deepest⟩ :: below,
          onPath.setIfInBounds child true, depth⟩
        ⟨⟨child, [], after⟩ :: ⟨node, pending, deepest⟩ :: below, marks, depth⟩ ∧
      NodeMarks g marks (child :: node :: nodesOf below) ∧
      DeepestBelow g (child :: node :: nodesOf below) (g.successors child) 0 after) :
    ∃ after marks, Steps g ⟨⟨node, child :: pending, deepest⟩ :: below, onPath, depth⟩
        ⟨⟨node, pending, max deepest (1 + after)⟩ :: below, marks, depth⟩ ∧
      NodeMarks g marks (node :: nodesOf below) ∧
      IsGreatest (continuations g (child :: node :: nodesOf below)) after := by
  obtain ⟨after, marked, steps, marksInner, deepestInner⟩ := inner
  have unmarked : onPath.getD child false = false := marks.unmarked.2 fresh
  have entered := trail.cons bounded edge fresh
  refine ⟨after, marked.setIfInBounds child false, ?_,
    marksInner.pop fresh, deepestInner.isGreatest entered⟩
  -- enter the callee, search through its own callees, leave it
  exact Relation.ReflTransGen.head (step_enter unmarked) (steps.tail step_leave)

/-- A search tries all callees of the end of its path and comes back to the same path, with the same
nodes marked.  The induction is on the number of nodes that are not on the path, and within it on
the callees that are left. -/
theorem steps_through_callees (bounded : g.Bounded) (free : Nat) :
    ∀ {node deepest depth : Nat} {pending : List Nat} {below : List DepthFrame}
      {onPath : Array Bool},
      g.size ≤ free + (node :: nodesOf below).length → Trail g (node :: nodesOf below) →
      NodeMarks g onPath (node :: nodesOf below) → (∀ child ∈ pending, g.Calls node child) →
      ∃ after marks, Steps g ⟨⟨node, pending, deepest⟩ :: below, onPath, depth⟩
          ⟨⟨node, [], after⟩ :: below, marks, depth⟩ ∧
        NodeMarks g marks (node :: nodesOf below) ∧
        DeepestBelow g (node :: nodesOf below) pending deepest after := by
  induction free using Nat.strongRecOn with
  | ind free ih =>
      intro node deepest depth pending below onPath enough trail marks edges
      induction pending generalizing deepest onPath with
      | nil => exact ⟨deepest, onPath, .refl, marks, .nil deepest⟩
      | cons child rest ihRest =>
          have edge := edges child List.mem_cons_self
          have edgesRest : ∀ other ∈ rest, g.Calls node other := fun other listed =>
            edges other (List.mem_cons_of_mem child listed)
          by_cases onIt : child ∈ node :: nodesOf below
          · obtain ⟨after, marked, steps, marksAfter, deepestAfter⟩ :=
              @ihRest deepest onPath marks edgesRest
            exact ⟨after, marked, steps.head (step_skip ((marks.marked child).2 onIt)),
              marksAfter, deepestAfter.cons_of_mem onIt⟩
          · -- the callee is a node that was not on the path, so one more node is taken
            have entered := trail.cons bounded edge onIt
            have taken := CallGraph.length_le_size entered.nodup entered.bounded
            rw [List.length_cons] at taken
            have fewer : g.size ≤ free - 1 + (child :: node :: nodesOf below).length := by
              rw [List.length_cons]
              omega
            have inner := @ih (free - 1) (by omega) child 0 depth (g.successors child)
              (⟨node, rest, deepest⟩ :: below) _ fewer entered (marks.push (bounded _ _ edge))
              fun other listed => CallGraph.mem_successors.1 listed
            obtain ⟨depthOfChild, marked, steps, marksBack, longest⟩ :=
              steps_over_callee bounded edge trail marks onIt inner
            obtain ⟨after, markedAfter, stepsRest, marksAfter, deepestAfter⟩ :=
              ihRest marksBack edgesRest
            exact ⟨after, markedAfter, steps.trans stepsRest, marksAfter,
              deepestAfter.cons_of_isGreatest longest⟩

theorem marks_start {root : Nat} (bound : root < g.size) :
    NodeMarks g (start g root).onPath [root] :=
  (NodeMarks.empty g).push bound

/-- A search ends, with the depth of its first node. -/
theorem exists_steps_ended (bounded : g.Bounded) {root : Nat} (bound : root < g.size) :
    ∃ final after, Steps g (start g root) final ∧ final.step g = none ∧
      final.depth = 1 + after ∧ IsGreatest (continuations g [root]) after := by
  have trail := Trail.singleton bound
  obtain ⟨after, marks, steps, _, deepest⟩ := @steps_through_callees g bounded g.size root 0 0
    (g.successors root) [] _ (by simp) trail (marks_start bound)
    fun child listed => CallGraph.mem_successors.1 listed
  exact ⟨_, after, steps.tail step_leave_root, rfl, rfl, deepest.isGreatest trail⟩

end DepthSearch

namespace CallGraph

variable {g : CallGraph}

/-- The search from a node gives the depth of the state in which it is over. -/
theorem depthFrom_of_steps {root : Nat} {final : DepthSearch}
    (steps : DepthSearch.Steps g (.start g root) final) (ended : final.step g = none) :
    g.depthFrom root = some final.depth := by
  rw [depthFrom, steps.run_eq, DepthSearch.run_of_ended ended]

/-- The depth from a node is one more than the number of nodes of the longest way on. -/
theorem depthFrom_eq (bounded : g.Bounded) {root : Nat} (bound : root < g.size) :
    ∃ after, g.depthFrom root = some (1 + after) ∧ IsGreatest (continuations g [root]) after := by
  obtain ⟨final, after, steps, ended, depth, longest⟩ :=
    DepthSearch.exists_steps_ended bounded bound
  exact ⟨after, by rw [depthFrom_of_steps steps ended, depth], longest⟩

/-- The depth of a graph is the number of nodes of its longest path. -/
theorem maxDepth_isGreatest (bounded : g.Bounded) :
    IsGreatest (continuations g []) g.maxDepth := by
  have greatest : (0 :: (List.range g.size).map fun root => (g.depthFrom root).getD 0).max? =
      some g.maxDepth := List.max?_cons'
  obtain ⟨attained, covers⟩ := List.max?_eq_some_iff.1 greatest
  constructor
  · rcases List.mem_cons.1 attained with none | deepest
    · exact ⟨[], ⟨by simp, by simp, by simp⟩, none.symm⟩
    · obtain ⟨root, listed, depth⟩ := List.mem_map.1 deepest
      obtain ⟨after, depthEq, ⟨way, trail, length⟩, _⟩ :=
        depthFrom_eq bounded (List.mem_range.1 listed)
      rw [depthEq, Option.getD_some] at depth
      refine ⟨way ++ [root], by simpa using trail, ?_⟩
      rw [← depth, List.length_append, List.length_singleton, length, Nat.add_comm]
  · rintro _ ⟨path, trail, rfl⟩
    rw [List.append_nil] at trail
    rcases List.eq_nil_or_concat path with rfl | ⟨way, root, rfl⟩
    · exact Nat.zero_le _
    · rw [List.concat_eq_append] at trail
      have bound : root < g.size := trail.bounded root (by simp)
      obtain ⟨after, depthEq, _, longest⟩ := depthFrom_eq bounded bound
      have short : way.length ≤ after := longest ⟨way, trail, rfl⟩
      have counted := covers (1 + after) (List.mem_cons_of_mem _
        (List.mem_map.2 ⟨root, List.mem_range.2 bound, by rw [depthEq, Option.getD_some]⟩))
      rw [List.length_concat]
      omega

end CallGraph

/-! ### Paths of direct calls -/

/-- A path along direct calls between known functions that repeats no id. -/
structure SimpleCallPath (ids : List String) (calls : List Call) (path : List String) : Prop where
  distinct : path.Nodup
  known : ∀ id ∈ path, id ∈ ids
  chain : path.IsChain (DirectlyCalls ids calls)

variable {ids : List String} {calls : List Call}

theorem SimpleCallPath.trail {path : List String} (simple : SimpleCallPath ids calls path) :
    Trail (.ofCalls ids calls) (path.map (nodeOf ids)).reverse where
  nodup := by
    rw [List.nodup_reverse]
    refine simple.distinct.map_on ?_
    have back : ∀ id ∈ path, (CallGraph.ofCalls ids calls).idOf (nodeOf ids id) = id :=
      fun id listed => CallGraph.idOf_nodeOf (simple.known id listed)
    intro x listedX y listedY same
    rw [← back x listedX, same, back y listedY]
  bounded := by
    intro node listed
    obtain ⟨id, onPath, rfl⟩ := List.mem_map.1 (List.mem_reverse.1 listed)
    exact CallGraph.nodeOf_lt_size (simple.known id onPath)
  chain := by
    rw [List.isChain_reverse, List.isChain_map]
    exact simple.chain.imp fun _ _ direct => CallGraph.calls_nodeOf direct

/-- Every element of a chain of two or more is related to its neighbour. -/
theorem exists_related_of_isChain {α : Type} {related : α → α → Prop} {first second : α}
    {rest : List α} (chain : (first :: second :: rest).IsChain related) :
    ∀ x ∈ first :: second :: rest, ∃ y, related x y ∨ related y x := by
  induction rest generalizing first second with
  | nil =>
      intro x listed
      rcases List.mem_pair.1 listed with rfl | rfl
      · exact ⟨second, .inl chain.rel⟩
      · exact ⟨first, .inr chain.rel⟩
  | cons third rest ih =>
      intro x listed
      rcases List.mem_cons.1 listed with rfl | behind
      · exact ⟨second, .inl chain.rel⟩
      · exact ih chain.tail x behind

/-- Two nodes of a path with the same id are the same node: if the path has several nodes, each of
them has an edge. -/
theorem Trail.eq_of_idOf_eq {path : List Nat} (trail : Trail (.ofCalls ids calls) path)
    {x y : Nat} (listedX : x ∈ path) (listedY : y ∈ path)
    (same : (CallGraph.ofCalls ids calls).idOf x = (CallGraph.ofCalls ids calls).idOf y) :
    x = y := by
  match path, trail with
  | [node], _ =>
      rw [List.mem_singleton.1 listedX, List.mem_singleton.1 listedY]
  | first :: second :: rest, trail =>
      have hasNode : ∀ node ∈ first :: second :: rest,
          nodeOf ids ((CallGraph.ofCalls ids calls).idOf node) = node := by
        intro node listed
        obtain ⟨other, edge | edge⟩ := exists_related_of_isChain trail.chain node listed
        · exact edge.nodeOf_idOf.2
        · exact edge.nodeOf_idOf.1
      rw [← hasNode x listedX, same, hasNode y listedY]

theorem Trail.simpleCallPath {path : List Nat} (trail : Trail (.ofCalls ids calls) path) :
    SimpleCallPath ids calls (path.reverse.map (CallGraph.ofCalls ids calls).idOf) where
  distinct := by
    refine (List.nodup_reverse.2 trail.nodup).map_on ?_
    intro x listedX y listedY same
    exact trail.eq_of_idOf_eq (List.mem_reverse.1 listedX) (List.mem_reverse.1 listedY) same
  known := by
    intro id listed
    obtain ⟨node, onPath, rfl⟩ := List.mem_map.1 listed
    exact CallGraph.idOf_mem (trail.bounded node (List.mem_reverse.1 onPath))
  chain := by
    rw [List.isChain_map, List.isChain_reverse]
    exact trail.chain.imp fun _ _ edge => edge.directlyCalls

/-- The depth of a graph is the number of ids on a longest path of direct calls. -/
theorem CallGraph.maxDepth_isGreatest_ids (ids : List String) (calls : List Call) :
    IsGreatest { n | ∃ path, SimpleCallPath ids calls path ∧ path.length = n }
      (ofCalls ids calls).maxDepth := by
  have bounded : (ofCalls ids calls).Bounded := ofCalls_bounded
  obtain ⟨⟨way, trail, length⟩, covers⟩ := maxDepth_isGreatest bounded
  rw [List.append_nil] at trail
  refine ⟨⟨_, trail.simpleCallPath, by simpa using length⟩, ?_⟩
  rintro _ ⟨path, simple, rfl⟩
  exact covers ⟨_, by simpa using simple.trail, by simp⟩

/-- For any functions and calls, also with cycles, every search for the longest path ends: it
reaches a state without a next step and gives the depth of that state.  The depth of the graph is
the number of functions on a longest path of direct calls that repeats none, and it is zero exactly
if there are no functions. -/
theorem maxDepth_is_longest_simple_path (functions : List Function) (calls : List Call) :
    (∀ root < (CallGraph.ofCalls (functions.map (·.id)) calls).size, ∃ final,
      DepthSearch.Steps (.ofCalls (functions.map (·.id)) calls)
        (.start (.ofCalls (functions.map (·.id)) calls) root) final ∧
      final.step (.ofCalls (functions.map (·.id)) calls) = none ∧
      (CallGraph.ofCalls (functions.map (·.id)) calls).depthFrom root = some final.depth) ∧
    IsGreatest { n | ∃ path, SimpleCallPath (functions.map (·.id)) calls path ∧ path.length = n }
      (CallGraph.ofCalls (functions.map (·.id)) calls).maxDepth ∧
    ((CallGraph.ofCalls (functions.map (·.id)) calls).maxDepth = 0 ↔ functions = []) := by
  have longest := CallGraph.maxDepth_isGreatest_ids (functions.map (·.id)) calls
  refine ⟨?_, longest, ?_, ?_⟩
  · intro root bound
    obtain ⟨final, _, steps, ended, _⟩ :=
      DepthSearch.exists_steps_ended CallGraph.ofCalls_bounded bound
    exact ⟨final, steps, ended, CallGraph.depthFrom_of_steps steps ended⟩
  · intro zero
    rw [List.eq_nil_iff_forall_not_mem]
    intro f listed
    -- a function alone is a path of one
    have one : 1 ≤ (CallGraph.ofCalls (functions.map (·.id)) calls).maxDepth :=
      longest.2 ⟨[f.id], ⟨by simp, by simpa using ⟨f, listed, rfl⟩, .singleton _⟩, rfl⟩
    omega
  · rintro rfl
    obtain ⟨path, simple, length⟩ := longest.1
    rw [← length, List.length_eq_zero_iff, List.eq_nil_iff_forall_not_mem]
    exact fun id listed => List.not_mem_nil (simple.known id listed)

end CallAtlas
