/-
Module: CallAtlas.Proofs.CycleSearch
Purpose: The loop that searches for cycles.  Its stack, its marks and its places are three records
  of one path: exactly the nodes on the stack are marked, and the place of a node on the stack is
  the number of nodes below it.  Every step keeps them together, through all roots, although marks
  and places are never cleared as a whole.  So the loop cuts out of its stack what the search by
  recursion cuts out of its path, it ends, and it finds the same cycles in the same order.
Main definitions: CycleSearch.Move, CycleSearch.Steps, CycleSearch.Consistent, CycleSearch.Mirrors
Main results: CycleSearch.step_eq_some_iff, CycleSearch.Steps.consistent,
  CycleSearch.cycleFrom_eq_cycleOf, CycleSearch.steps_through_callees,
  CallGraph.cycleNodes_eq_exploredCycles, cycles_are_closed_walks_of_direct_calls
-/
import CallAtlas.Proofs.CycleExploration
import Mathlib.Logic.Relation

namespace CallAtlas

namespace CycleSearch

variable {g : CallGraph} {limit : Nat} {s t : CycleSearch}

/-! ### The steps -/

/-- What a step of the search can do, whatever the limit is. -/
inductive Move (g : CallGraph) : CycleSearch → CycleSearch → Prop
  /-- A callee on the path closes a cycle. -/
  | close {s : CycleSearch} {node child : Nat} {pending : List Nat} {below : List CycleFrame}
      (atTop : s.stack = ⟨node, child :: pending⟩ :: below)
      (marked : s.onPath.getD child false = true) :
      Move g s (record { s with stack := ⟨node, pending⟩ :: below } (s.cycleFrom child))
  /-- A callee that was left before is passed over. -/
  | pass {s : CycleSearch} {node child : Nat} {pending : List Nat} {below : List CycleFrame}
      (atTop : s.stack = ⟨node, child :: pending⟩ :: below)
      (unmarked : s.onPath.getD child false = false)
      (reached : s.visited.getD child false = true) :
      Move g s { s with stack := ⟨node, pending⟩ :: below }
  /-- A callee that was not reached before is entered. -/
  | enter {s : CycleSearch} {node child : Nat} {pending : List Nat} {below : List CycleFrame}
      (atTop : s.stack = ⟨node, child :: pending⟩ :: below)
      (unmarked : s.onPath.getD child false = false)
      (fresh : s.visited.getD child false = false) :
      Move g s (enter g { s with stack := ⟨node, pending⟩ :: below } child)
  /-- A node with no callee left is taken off the path. -/
  | leave {s : CycleSearch} {node : Nat} {below : List CycleFrame}
      (atTop : s.stack = ⟨node, []⟩ :: below) :
      Move g s { s with stack := below, onPath := s.onPath.setIfInBounds node false }

theorem isFull_iff : s.isFull limit = true ↔ limit ≤ s.found.length := by
  simp [isFull]

/-- A search takes a step exactly if it has room for another cycle and can move. -/
theorem step_eq_some_iff : s.step g limit = some t ↔ s.found.length < limit ∧ Move g s t := by
  constructor
  · intro stepped
    unfold step at stepped
    split at stepped
    · cases stepped
    · next room =>
        rw [isFull_iff, Nat.not_le] at room
        refine ⟨room, ?_⟩
        split at stepped
        · cases stepped
        · next top below atStack =>
            obtain ⟨node, pending⟩ := top
            split at stepped
            · next child pending atPending =>
                obtain rfl : _ = child :: pending := atPending
                split at stepped
                · next marked =>
                    obtain rfl := Option.some.inj stepped
                    exact .close atStack marked
                · next unmarked =>
                    rw [Bool.not_eq_true] at unmarked
                    split at stepped
                    · next reached =>
                        obtain rfl := Option.some.inj stepped
                        exact .pass atStack unmarked reached
                    · next fresh =>
                        rw [Bool.not_eq_true] at fresh
                        obtain rfl := Option.some.inj stepped
                        exact .enter atStack unmarked fresh
            · next atPending =>
                obtain rfl : _ = [] := atPending
                obtain rfl := Option.some.inj stepped
                exact .leave atStack
  · rintro ⟨room, move⟩
    have notFull : ¬ s.isFull limit = true := by
      rw [isFull_iff, Nat.not_le]
      exact room
    unfold step
    rw [if_neg notFull]
    cases move with
    | close atTop marked => simp [atTop, marked]
    | pass atTop unmarked reached => simp [atTop, unmarked, reached]
    | enter atTop unmarked fresh => simp [atTop, unmarked, fresh]
    | leave atTop => simp [atTop]

/-! ### Runs of a search -/

/-- One state of a search leads to another one in any number of steps. -/
def Steps (g : CallGraph) (limit : Nat) : CycleSearch → CycleSearch → Prop :=
  Relation.ReflTransGen fun s t => s.step g limit = some t

/-- All states that a search passes through give the same result. -/
theorem Steps.run_eq (steps : Steps g limit s t) : s.run g limit = t.run g limit := by
  induction steps with
  | refl => rfl
  | tail _ step ih => rw [ih, run, step]

theorem run_of_ended (ended : s.step g limit = none) : s.run g limit = some s := by
  rw [run, ended]

theorem step_of_full (full : limit ≤ s.found.length) : s.step g limit = none := by
  rw [step, if_pos (isFull_iff.2 full)]

theorem step_of_empty (empty : s.stack = []) : s.step g limit = none := by
  simp [step, empty]

/-! ### Stack, marks and places -/

/-- The stack, the marks and the places of a search tell of one path, and the callees that its nodes
have still to try are callees of theirs. -/
structure Consistent (g : CallGraph) (s : CycleSearch) : Prop where
  onPath : NodeMarks g s.onPath s.path
  size_eq : s.pathPos.size = g.size
  place : ∀ front node below, s.path = front ++ node :: below →
    s.pathPos.getD node 0 = below.length
  edges : ∀ frame ∈ s.stack, ∀ child ∈ frame.pending, g.Calls frame.node child

namespace Consistent

/-- The path repeats no node, because the places of its nodes are different. -/
theorem nodup (consistent : Consistent g s) : s.path.Nodup := by
  rw [List.Nodup, List.pairwise_iff_forall_sublist]
  intro node other twice same
  subst same
  -- the node stands twice on the path, with different numbers of nodes below
  obtain ⟨front, rest, split, inFront, inRest⟩ := List.cons_sublist_iff.1 twice
  obtain ⟨before, middle, rfl⟩ := List.append_of_mem inFront
  obtain ⟨between, below, rfl⟩ := List.append_of_mem (List.singleton_sublist.1 inRest)
  have first := consistent.place before node (middle ++ (between ++ node :: below))
    (by simp [split])
  have second := consistent.place (before ++ node :: (middle ++ between)) node below
    (by simp [split])
  rw [first] at second
  simp only [List.length_append, List.length_cons] at second
  omega

theorem lt_size (consistent : Consistent g s) {node : Nat} (listed : node ∈ s.path) :
    node < g.size :=
  consistent.onPath.lt_size listed

theorem start (g : CallGraph) : Consistent g (.start g) where
  onPath := .empty g
  size_eq := Array.size_replicate
  place := by
    intro front node below split
    simp [CycleSearch.start, path] at split
  edges := by simp [CycleSearch.start]

/-- A node that is not on the path can be put at its end, be it a callee or a new root. -/
theorem enter (consistent : Consistent g s) {node : Nat} (bound : node < g.size)
    (fresh : node ∉ s.path) : Consistent g (s.enter g node) where
  onPath := consistent.onPath.push bound
  size_eq := by simpa [CycleSearch.enter] using consistent.size_eq
  place := by
    intro front other below split
    have inside : node < s.pathPos.size := consistent.size_eq ▸ bound
    rw [CycleSearch.enter, getD_setIfInBounds inside]
    have split : node :: s.path = front ++ other :: below := split
    rcases List.cons_eq_append_iff.1 split with ⟨_, atEnd⟩ | ⟨rest, _, split⟩
    · -- the node at the end: all others stand below it
      obtain ⟨rfl, rfl⟩ := List.cons.inj atEnd
      rw [if_pos rfl, path, List.length_map]
    · have differ : node ≠ other := by
        rintro rfl
        exact fresh (by simp [split])
      rw [if_neg differ]
      exact consistent.place rest other below split
  edges := by
    intro frame listed child pending
    rcases List.mem_cons.1 listed with rfl | before
    · exact CallGraph.mem_successors.1 pending
    · exact consistent.edges frame before child pending

/-- The end of the path takes up its next callee. -/
theorem tryNext (consistent : Consistent g s) {node child : Nat} {pending : List Nat}
    {below : List CycleFrame} (atTop : s.stack = ⟨node, child :: pending⟩ :: below) :
    Consistent g { s with stack := ⟨node, pending⟩ :: below } := by
  have samePath : path { s with stack := ⟨node, pending⟩ :: below } = s.path := by
    simp [path, atTop]
  refine ⟨samePath ▸ consistent.onPath, consistent.size_eq, ?_, ?_⟩
  · intro front other rest split
    exact consistent.place front other rest (samePath ▸ split)
  · intro frame listed other left
    rcases List.mem_cons.1 listed with rfl | behind
    · exact consistent.edges ⟨node, child :: pending⟩ (atTop ▸ List.mem_cons_self) other
        (List.mem_cons_of_mem child left)
    · exact consistent.edges frame (atTop ▸ List.mem_cons_of_mem _ behind) other left

/-- The end of the path is taken off it. -/
theorem leave (consistent : Consistent g s) {node : Nat} {pending : List Nat}
    {below : List CycleFrame} (atTop : s.stack = ⟨node, pending⟩ :: below) :
    Consistent g { s with stack := below, onPath := s.onPath.setIfInBounds node false } := by
  have atEnd : s.path = node :: below.map (·.node) := by simp [path, atTop]
  have single : node ∉ below.map (·.node) := (List.nodup_cons.1 (atEnd ▸ consistent.nodup)).1
  refine ⟨(atEnd ▸ consistent.onPath).pop single, consistent.size_eq, ?_, ?_⟩
  · intro front other rest split
    have split : below.map (·.node) = front ++ other :: rest := split
    exact consistent.place (node :: front) other rest (by rw [atEnd, split, List.cons_append])
  · intro frame listed
    exact consistent.edges frame (atTop ▸ List.mem_cons_of_mem _ listed)

theorem record (consistent : Consistent g s) (cycle : List Nat) :
    Consistent g (s.record cycle) := by
  unfold CycleSearch.record
  split
  · exact consistent
  · exact ⟨consistent.onPath, consistent.size_eq, consistent.place, consistent.edges⟩

/-- Every move keeps stack, marks and places together. -/
theorem move (bounded : g.Bounded) (consistent : Consistent g s) (moved : Move g s t) :
    Consistent g t := by
  cases moved with
  | close atTop marked => exact (consistent.tryNext atTop).record _
  | pass atTop unmarked reached => exact consistent.tryNext atTop
  | @enter node child pending below atTop unmarked fresh =>
      have edge : g.Calls node child :=
        consistent.edges _ (atTop ▸ List.mem_cons_self) child List.mem_cons_self
      have tried := consistent.tryNext atTop
      exact tried.enter (bounded _ _ edge) (tried.onPath.unmarked.1 unmarked)
  | leave atTop => exact consistent.leave atTop

end Consistent

/-- Stack, marks and places stay together through a whole run. -/
theorem Steps.consistent (bounded : g.Bounded) (steps : Steps g limit s t)
    (consistent : Consistent g s) : Consistent g t := by
  induction steps with
  | refl => exact consistent
  | tail _ stepped ih => exact ih.move bounded (step_eq_some_iff.1 stepped).2

/-- What the loop cuts out of its stack, by the place of a node, is the part of the path from that
node on. -/
theorem cycleFrom_eq_cycleOf (consistent : Consistent g s) {node : Nat} (onPath : node ∈ s.path) :
    s.cycleFrom node = cycleOf s.path node := by
  obtain ⟨front, below, split, notBefore⟩ := List.eq_append_cons_of_mem onPath
  have passed : ∀ other ∈ front, (other != node) = true := by
    intro other listed
    rw [bne_iff_ne]
    rintro rfl
    exact notBefore listed
  have cut : s.path.takeWhile (· != node) = front := by
    rw [split, List.takeWhile_append_of_pos passed, List.takeWhile_cons_of_neg (by simp),
      List.append_nil]
  rw [cycleFrom, consistent.place front node below split, cycleOf, cut, split, List.reverse_append,
    List.reverse_cons, List.append_assoc, List.drop_left' List.length_reverse]
  rfl

/-! ### The loop beside the recursion -/

/-- The loop has reached and found what the recursion has. -/
structure Mirrors (g : CallGraph) (s : CycleSearch) (e : Exploration) : Prop where
  visited : NodeMarks g s.visited e.visited
  seen : ∀ rotation, rotation ∈ s.seen ↔ rotation ∈ s.found.map canonicalRotation
  found : s.found = e.found

namespace Mirrors

variable {e : Exploration}

theorem start (g : CallGraph) : Mirrors g (.start g) ⟨[], []⟩ :=
  ⟨.empty g, by simp [CycleSearch.start], rfl⟩

theorem enter (mirrors : Mirrors g s e) {node : Nat} (bound : node < g.size) :
    Mirrors g (s.enter g node) (e.reach node) :=
  ⟨mirrors.visited.push bound, mirrors.seen, mirrors.found⟩

theorem record (mirrors : Mirrors g s e) (cycle : List Nat) :
    Mirrors g (s.record cycle) (e.record cycle) := by
  have sameTest : s.seen.contains (canonicalRotation cycle) =
      (e.found.map canonicalRotation).contains (canonicalRotation cycle) := by
    rw [Bool.eq_iff_iff, List.contains_iff_mem, List.contains_iff_mem, mirrors.seen, mirrors.found]
  unfold CycleSearch.record Exploration.record
  rw [sameTest]
  split
  · exact mirrors
  · refine ⟨mirrors.visited, ?_, by rw [mirrors.found]⟩
    intro rotation
    rw [List.mem_cons, mirrors.seen, List.map_append, List.mem_append, or_comm]
    simp

end Mirrors

/-- A state in which the loop stands once the recursion is done with a part of its work: the loop
has found the same cycles, and if it has room for more it has the given stack. -/
structure Arrives (g : CallGraph) (limit : Nat) (t : CycleSearch) (stack : List CycleFrame)
    (e : Exploration) : Prop where
  found : t.found = e.found
  stack_eq : e.found.length < limit → t.stack = stack
  mirrors : e.found.length < limit → Mirrors g t e

variable {e : Exploration}

theorem Arrives.of_mirrors {stack : List CycleFrame} (mirrors : Mirrors g t e)
    (stack_eq : t.stack = stack) : Arrives g limit t stack e :=
  ⟨mirrors.found, fun _ => stack_eq, fun _ => mirrors⟩

/-- With a full list it does not matter where the loop stands. -/
theorem Arrives.of_full {stack : List CycleFrame} (found : t.found = e.found)
    (full : limit ≤ e.found.length) : Arrives g limit t stack e :=
  ⟨found, fun room => absurd full (Nat.not_le.2 room), fun room => absurd full (Nat.not_le.2 room)⟩

/-- Once all callees of the end of the path are tried, that node is taken off the path. -/
theorem Arrives.leave {node : Nat} {below : List CycleFrame} (steps : Steps g limit s t)
    (arrives : Arrives g limit t (⟨node, []⟩ :: below) e) :
    ∃ u, Steps g limit s u ∧ Arrives g limit u below e := by
  rcases Nat.lt_or_ge e.found.length limit with room | full
  · have mirrors := arrives.mirrors room
    have moved := Move.leave (g := g) (arrives.stack_eq room)
    refine ⟨_, steps.tail (step_eq_some_iff.2 ⟨arrives.found ▸ room, moved⟩), .of_mirrors ?_ rfl⟩
    exact ⟨mirrors.visited, mirrors.seen, mirrors.found⟩
  · exact ⟨t, steps, .of_full arrives.found full⟩

theorem record_stack (s : CycleSearch) (cycle : List Nat) : (s.record cycle).stack = s.stack := by
  unfold record
  split <;> rfl

/-- The loop tries the callees that the end of its path has left as the recursion visits them. -/
def TriesCallees (g : CallGraph) (limit fuel : Nat) : Prop :=
  ∀ (s : CycleSearch) (e : Exploration) (node : Nat) (pending : List Nat) (below : List CycleFrame),
    g.size ≤ fuel + s.path.length → s.stack = ⟨node, pending⟩ :: below → Consistent g s →
    Mirrors g s e →
    ∃ t, Steps g limit s t ∧
      Arrives g limit t (⟨node, []⟩ :: below) (pending.foldl (g.visitChild limit fuel s.path) e)

/-- The loop enters a callee, tries the callees of that one and takes it off the path again. -/
theorem steps_into_callee (bounded : g.Bounded) {fuel node child : Nat} {pending : List Nat}
    {below : List CycleFrame} (deeper : TriesCallees g limit fuel)
    (enough : g.size ≤ fuel + 1 + s.path.length)
    (atTop : s.stack = ⟨node, child :: pending⟩ :: below) (consistent : Consistent g s)
    (mirrors : Mirrors g s e) (room : s.found.length < limit) (offPath : child ∉ s.path)
    (fresh : child ∉ e.visited) :
    ∃ t, Steps g limit s t ∧ Arrives g limit t (⟨node, pending⟩ :: below)
      (g.explore limit (fuel + 1) (child :: s.path) (e.reach child)) := by
  have moved : Move g s (enter g { s with stack := ⟨node, pending⟩ :: below } child) :=
    .enter atTop (consistent.onPath.unmarked.2 offPath) (mirrors.visited.unmarked.2 fresh)
  have entered := consistent.move bounded moved
  have path_eq : path (enter g { s with stack := ⟨node, pending⟩ :: below } child) =
      child :: s.path := by
    simp [path, enter, atTop]
  have bound : child < g.size := entered.lt_size (path_eq ▸ List.mem_cons_self)
  have tried : Mirrors g { s with stack := ⟨node, pending⟩ :: below } e :=
    ⟨mirrors.visited, mirrors.seen, mirrors.found⟩
  obtain ⟨t, steps, arrives⟩ := deeper _ (e.reach child) child (g.successors child)
    (⟨node, pending⟩ :: below) (by rw [path_eq, List.length_cons]; omega) rfl entered
    (tried.enter bound)
  rw [path_eq, ← CallGraph.explore_succ] at arrives
  have stepsInto : Steps g limit s t := .head (step_eq_some_iff.2 ⟨room, moved⟩) steps
  exact arrives.leave stepsInto

/-- The loop does with one callee of the end of its path what the recursion does with it. -/
theorem steps_over_callee (bounded : g.Bounded) {fuel node child : Nat} {pending : List Nat}
    {below : List CycleFrame} (deeper : ∀ fewer, fuel = fewer + 1 → TriesCallees g limit fewer)
    (enough : g.size ≤ fuel + s.path.length)
    (atTop : s.stack = ⟨node, child :: pending⟩ :: below) (consistent : Consistent g s)
    (mirrors : Mirrors g s e) (room : e.found.length < limit) :
    ∃ t, Steps g limit s t ∧
      Arrives g limit t (⟨node, pending⟩ :: below) (g.visitChild limit fuel s.path e child) := by
  have roomHere : s.found.length < limit := mirrors.found ▸ room
  have tried : Mirrors g { s with stack := ⟨node, pending⟩ :: below } e :=
    ⟨mirrors.visited, mirrors.seen, mirrors.found⟩
  rcases g.visitChild_cases limit fuel s.path e child with
    ⟨full, _⟩ | ⟨back, closed⟩ | ⟨offPath, reached, same⟩ | ⟨offPath, fresh, entered⟩
  · exact absurd full (Nat.not_le.2 room)
  · rw [closed, ← cycleFrom_eq_cycleOf consistent back]
    have moved := Move.close (g := g) atTop ((consistent.onPath.marked child).2 back)
    exact ⟨_, .single (step_eq_some_iff.2 ⟨roomHere, moved⟩),
      .of_mirrors (tried.record _) (record_stack _ _)⟩
  · rw [same]
    have moved := Move.pass (g := g) atTop (consistent.onPath.unmarked.2 offPath)
      ((mirrors.visited.marked child).2 reached)
    exact ⟨_, .single (step_eq_some_iff.2 ⟨roomHere, moved⟩), .of_mirrors tried rfl⟩
  · rw [entered]
    -- the callee is not on the path, so the path does not hold all nodes yet and fuel is left
    have edge : g.Calls node child :=
      consistent.edges _ (atTop ▸ List.mem_cons_self) child List.mem_cons_self
    have longer : (child :: s.path).length ≤ g.size := by
      refine CallGraph.length_le_size (List.nodup_cons.2 ⟨offPath, consistent.nodup⟩) ?_
      intro other listed
      rcases List.mem_cons.1 listed with rfl | onPath
      · exact bounded _ _ edge
      · exact consistent.lt_size onPath
    rw [List.length_cons] at longer
    obtain ⟨fewer, rfl⟩ : ∃ fewer, fuel = fewer + 1 := ⟨fuel - 1, by omega⟩
    exact steps_into_callee bounded (deeper fewer rfl) enough atTop consistent mirrors roomHere
      offPath fresh

/-- The loop goes through all callees of a node as the recursion does.  The induction is on the
fuel of the recursion, and within it on the callees that are left. -/
theorem steps_through_callees (bounded : g.Bounded) (limit fuel : Nat) :
    TriesCallees g limit fuel := by
  induction fuel using Nat.strongRecOn with
  | ind fuel ih =>
      intro s e node pending
      induction pending generalizing s e with
      | nil =>
          intro below _ atTop _ mirrors
          exact ⟨s, .refl, .of_mirrors mirrors atTop⟩
      | cons child rest ihRest =>
          intro below enough atTop consistent mirrors
          rcases Nat.lt_or_ge e.found.length limit with room | full
          · rw [List.foldl_cons]
            have deeper : ∀ fewer, fuel = fewer + 1 → TriesCallees g limit fewer :=
              fun fewer less => ih fewer (by omega)
            obtain ⟨t, steps, arrives⟩ :=
              steps_over_callee bounded deeper enough atTop consistent mirrors room
            rcases Nat.lt_or_ge (g.visitChild limit fuel s.path e child).found.length limit with
              roomAfter | full
            · have path_eq : t.path = s.path := by
                simp [path, arrives.stack_eq roomAfter, atTop]
              obtain ⟨u, stepsRest, arrivesRest⟩ := ihRest t _ below (path_eq ▸ enough)
                (arrives.stack_eq roomAfter) (steps.consistent bounded consistent)
                (arrives.mirrors roomAfter)
              exact ⟨u, steps.trans stepsRest, path_eq ▸ arrivesRest⟩
            · rw [CallGraph.foldl_visitChild_of_full full]
              exact ⟨t, steps, .of_full arrives.found full⟩
          · rw [CallGraph.foldl_visitChild_of_full full]
            exact ⟨s, .refl, .of_full mirrors.found full⟩

/-! ### The search from all roots -/

/-- A run ends at a state that has an empty path or a full list. -/
theorem run_of_arrives (steps : Steps g limit s t) (arrives : Arrives g limit t [] e) :
    s.run g limit = some t := by
  rw [steps.run_eq]
  rcases Nat.lt_or_ge e.found.length limit with room | full
  · exact run_of_ended (step_of_empty (arrives.stack_eq room))
  · exact run_of_ended (step_of_full (arrives.found ▸ full))

/-- From an empty path the loop enters a root, searches as the recursion does and leaves the root
again. -/
theorem steps_from_root (bounded : g.Bounded) (limit : Nat) {root : Nat} (bound : root < g.size)
    (consistent : Consistent g s) (mirrors : Mirrors g s e) (empty : s.stack = []) :
    ∃ t, Steps g limit (s.enter g root) t ∧
      Arrives g limit t [] (g.explore limit g.size [root] (e.reach root)) := by
  have path_eq : (s.enter g root).path = [root] := by simp [path, enter, empty]
  have entered : Consistent g (s.enter g root) := consistent.enter bound (by simp [path, empty])
  obtain ⟨fuel, size_eq⟩ : ∃ fuel, g.size = fuel + 1 := ⟨g.size - 1, by omega⟩
  obtain ⟨t, steps, arrives⟩ := steps_through_callees bounded limit fuel
    (s.enter g root) (e.reach root) root (g.successors root) [] (by simp [path_eq, size_eq])
    (by simp [enter, empty]) entered (mirrors.enter bound)
  rw [path_eq, ← CallGraph.explore_succ, ← size_eq] at arrives
  exact arrives.leave steps

/-- From a root the loop finds what the recursion finds. -/
theorem searchFrom_arrives (bounded : g.Bounded) {root : Nat} (bound : root < g.size)
    (consistent : Consistent g s) (arrives : Arrives g limit s [] e) :
    ∃ t, s.searchFrom g limit root = some t ∧ Consistent g t ∧
      Arrives g limit t [] (g.exploreFrom limit e root) := by
  have sameFull : s.isFull limit = e.isFull limit := by
    rw [isFull, Exploration.isFull, arrives.found]
  rw [searchFrom, CallGraph.exploreFrom, sameFull]
  by_cases full : e.isFull limit
  · rw [full, Bool.true_or, if_pos rfl, Bool.true_or, if_pos rfl]
    exact ⟨s, rfl, consistent, arrives⟩
  · rw [Bool.not_eq_true] at full
    have room : e.found.length < limit := Exploration.isFull_eq_false_iff.1 full
    have mirrors := arrives.mirrors room
    have sameReached : s.visited.getD root false = e.visited.contains root := by
      rw [Bool.eq_iff_iff, mirrors.visited.marked, List.contains_iff_mem]
    rw [full, Bool.false_or, Bool.false_or, sameReached]
    split
    · exact ⟨s, rfl, consistent, arrives⟩
    · have empty := arrives.stack_eq room
      obtain ⟨t, steps, arrivesAfter⟩ :=
        steps_from_root bounded limit bound consistent mirrors empty
      have entered := consistent.enter bound (by simp [path, empty])
      exact ⟨t, run_of_arrives steps arrivesAfter, steps.consistent bounded entered, arrivesAfter⟩

/-- From several roots the loop finds what the recursion finds. -/
theorem foldlM_searchFrom_arrives (bounded : g.Bounded) {roots : List Nat}
    (inside : ∀ root ∈ roots, root < g.size) (consistent : Consistent g s)
    (arrives : Arrives g limit s [] e) :
    ∃ t, roots.foldlM (searchFrom g limit) s = some t ∧ Consistent g t ∧
      Arrives g limit t [] (roots.foldl (g.exploreFrom limit) e) := by
  induction roots generalizing s e with
  | nil => exact ⟨s, rfl, consistent, arrives⟩
  | cons root more ih =>
      obtain ⟨t, searched, consistentHere, arrivesHere⟩ :=
        searchFrom_arrives bounded (inside root List.mem_cons_self) consistent arrives
      rw [List.foldlM_cons, searched, Option.bind_eq_bind, Option.bind_some]
      exact ih (fun other listed => inside other (List.mem_cons_of_mem root listed))
        consistentHere arrivesHere

end CycleSearch

namespace CallGraph

variable {g : CallGraph} {limit : Nat}

/-- The loop ends, with its stack, marks and places in agreement, and it finds the cycles that the
recursion finds. -/
theorem exists_searchCycles_eq (bounded : g.Bounded) (limit : Nat) :
    ∃ final, g.searchCycles limit = some final ∧ CycleSearch.Consistent g final ∧
      final.found = g.exploredCycles limit := by
  have started : CycleSearch.Arrives g limit (.start g) [] ⟨[], []⟩ :=
    .of_mirrors (.start g) rfl
  obtain ⟨final, searched, consistent, arrives⟩ := CycleSearch.foldlM_searchFrom_arrives bounded
    (fun root listed => List.mem_range.1 listed) (.start g) started
  exact ⟨final, searched, consistent, arrives.found⟩

theorem cycleNodes_eq_exploredCycles (bounded : g.Bounded) (limit : Nat) :
    g.cycleNodes limit = g.exploredCycles limit := by
  obtain ⟨final, searched, _, found⟩ := exists_searchCycles_eq bounded limit
  rw [cycleNodes, searched, Option.map_some, Option.getD_some, found]

/-- Every cycle that is listed is a cycle of the whole search. -/
theorem cycleNodes_found (bounded : g.Bounded) {cycle : List Nat}
    (listed : cycle ∈ g.cycleNodes limit) :
    ∃ visited, visited.Nodup ∧ FoundCycle g visited cycle :=
  exploredCycles_found bounded (cycleNodes_eq_exploredCycles bounded limit ▸ listed)

theorem cycles_eq_exploredCycles (ids : List String) (calls : List Call) (limit : Nat) :
    (ofCalls ids calls).cycles limit =
      ((ofCalls ids calls).exploredCycles limit).map fun cycle =>
        cycle.map (ofCalls ids calls).idOf := by
  rw [cycles, cycleNodes_eq_exploredCycles ofCalls_bounded]

end CallGraph

/-! ### Listed cycles are cycles of direct calls -/

/-- A listed cycle is a closed walk of direct calls that repeats no id. -/
theorem CallGraph.cycles_closedWalk {ids : List String} {calls : List Call} {limit : Nat}
    {cycle : List String} (listed : cycle ∈ (ofCalls ids calls).cycles limit) :
    cycle.Nodup ∧ ClosedWalk (DirectlyCalls ids calls) cycle := by
  obtain ⟨nodes, listedNodes, rfl⟩ := List.mem_map.1 listed
  obtain ⟨visited, distinct, found⟩ := cycleNodes_found ofCalls_bounded listedNodes
  have closed := found.closedWalk
  refine ⟨?_, closed.map fun _ _ edge => edge.directlyCalls⟩
  have nodup : nodes.Nodup := List.nodup_reverse.1 (distinct.sublist found.ordered)
  refine nodup.map_on ?_
  -- a node of a cycle has an edge, so it is the only node of the cycle with its id
  intro x listedX y listedY sameId
  obtain ⟨_, stepX⟩ := NextInCycle.exists_of_mem listedX
  obtain ⟨_, stepY⟩ := NextInCycle.exists_of_mem listedY
  rw [← (closed.2 _ _ stepX).nodeOf_idOf.1, ← (closed.2 _ _ stepY).nodeOf_idOf.1, sameId]

/-- Every cycle that is listed, for any functions, calls and limit, is a non-empty list of distinct
ids of functions in which each id is followed by one that it calls directly, the last by the first
one.  Ids may belong to several functions. -/
theorem cycles_are_closed_walks_of_direct_calls (functions : List Function) (calls : List Call)
    (limit : Nat) (cycle : List String)
    (listed : cycle ∈ (CallGraph.ofCalls (functions.map (·.id)) calls).cycles limit) :
    cycle ≠ [] ∧ cycle.Nodup ∧ (∀ id ∈ cycle, ∃ f ∈ functions, f.id = id) ∧
      ∀ x y, NextInCycle cycle x y →
        ∃ call ∈ calls, call.callType = some .direct ∧ call.callerId = x ∧
          call.calleeId = some y := by
  obtain ⟨distinct, closed⟩ := CallGraph.cycles_closedWalk listed
  refine ⟨closed.1, distinct, ?_, ?_⟩
  · intro id listedId
    obtain ⟨_, step⟩ := NextInCycle.exists_of_mem listedId
    exact List.mem_map.1 (closed.2 _ _ step).1
  · intro x y next
    exact (closed.2 x y next).2.2

/-- Two functions have the id `a`; the later one calls `b`, which calls it back. -/
theorem cycles_are_closed_walks_of_direct_calls_mutual :
    let functions := ["a", "b", "a"].map Function.withId
    let calls := [Call.direct "a" "b", Call.direct "b" "a", Call.direct "b" "b"]
    ["b", "a"] ∈ (CallGraph.ofCalls (functions.map (·.id)) calls).cycles 5 ∧
      ["b", "a"].Nodup ∧
      ∀ x y, NextInCycle ["b", "a"] x y →
        ∃ call ∈ calls, call.callType = some .direct ∧ call.callerId = x ∧
          call.calleeId = some y := by
  intro functions calls
  have listed : ["b", "a"] ∈ (CallGraph.ofCalls (functions.map (·.id)) calls).cycles 5 := by
    rw [CallGraph.cycles_eq_exploredCycles]
    decide
  have sound := cycles_are_closed_walks_of_direct_calls functions calls 5 ["b", "a"] listed
  exact ⟨listed, sound.2.1, sound.2.2.2⟩

end CallAtlas
