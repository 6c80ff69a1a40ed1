/-
Module: CallAtlas.Proofs.CallGraph
Purpose: What the nodes and edges of a call graph say about functions and calls.  The graph names
  its nodes by places in a list; the relation `DirectlyCalls` names them by ids.  Here the two are
  tied together, so that walks and paths can be carried over in both directions.
Main definitions: DirectlyCalls, NextInCycle, ClosedWalk, nodeOf, CallGraph.Calls, NodeMarks
Main results: CallGraph.calls_ofCalls_iff, CallGraph.calls_nodeOf, CallGraph.Calls.directlyCalls
-/
import CallAtlas.Graph.Basic
import Mathlib.Data.List.Chain
import Mathlib.Data.List.Nodup
import Mathlib.Data.List.Perm.Subperm

namespace CallAtlas

/-! ### The graph by ids -/

/-- A function calls another one: both ids are known, and some direct call leads from the one to the
other. -/
def DirectlyCalls (ids : List String) (calls : List Call) (caller callee : String) : Prop :=
  caller ∈ ids ∧ callee ∈ ids ∧
    ∃ call ∈ calls, call.callType = some .direct ∧ call.callerId = caller ∧
      call.calleeId = some callee

instance (ids : List String) (calls : List Call) (caller callee : String) :
    Decidable (DirectlyCalls ids calls caller callee) :=
  inferInstanceAs (Decidable (_ ∧ _ ∧ ∃ call ∈ calls, _))

/-- One element comes directly after another one in a list that is read as a ring: after the last
element comes the first one. -/
def NextInCycle {α : Type} (ring : List α) (x y : α) : Prop :=
  ∃ i, ring[i]? = some x ∧ ring[(i + 1) % ring.length]? = some y

/-- A walk along a relation that ends where it began.  It may pass an element several times. -/
def ClosedWalk {α : Type} (related : α → α → Prop) (walk : List α) : Prop :=
  walk ≠ [] ∧ ∀ x y, NextInCycle walk x y → related x y

theorem NextInCycle.exists_of_mem {α : Type} {ring : List α} {x : α} (listed : x ∈ ring) :
    ∃ y, NextInCycle ring x y := by
  obtain ⟨i, bound, rfl⟩ := List.getElem_of_mem listed
  have wrapped : (i + 1) % ring.length < ring.length := Nat.mod_lt _ (by omega)
  exact ⟨_, i, List.getElem?_eq_getElem bound, List.getElem?_eq_getElem wrapped⟩

theorem NextInCycle.mem_right {α : Type} {ring : List α} {x y : α} (next : NextInCycle ring x y) :
    y ∈ ring := by
  obtain ⟨i, _, atY⟩ := next
  exact List.mem_of_getElem? atY

/-- What follows in a list that is mapped comes from what follows in the list. -/
theorem NextInCycle.of_map {α β : Type} {f : α → β} {ring : List α} {x y : β}
    (next : NextInCycle (ring.map f) x y) :
    ∃ a b, NextInCycle ring a b ∧ f a = x ∧ f b = y := by
  obtain ⟨i, atX, atY⟩ := next
  rw [List.length_map] at atY
  obtain ⟨a, atA, rfl⟩ := by simpa using atX
  obtain ⟨b, atB, rfl⟩ := by simpa using atY
  exact ⟨a, b, ⟨i, atA, atB⟩, rfl, rfl⟩

/-- A function that keeps a relation carries closed walks over. -/
theorem ClosedWalk.map {α β : Type} {related : α → α → Prop} {image : β → β → Prop} {f : α → β}
    {walk : List α} (closed : ClosedWalk related walk)
    (kept : ∀ x y, related x y → image (f x) (f y)) : ClosedWalk image (walk.map f) := by
  refine ⟨by simpa using closed.1, ?_⟩
  intro x y next
  obtain ⟨a, b, step, rfl, rfl⟩ := next.of_map
  exact kept a b (closed.2 a b step)

/-- A chain whose last element is related to its first one is a closed walk. -/
theorem ClosedWalk.of_isChain {α : Type} {related : α → α → Prop} {first last : α}
    {walk : List α} (chain : walk.IsChain related) (atFirst : walk.head? = some first)
    (atLast : walk.getLast? = some last) (closing : related last first) :
    ClosedWalk related walk := by
  refine ⟨by rintro rfl; simp at atFirst, ?_⟩
  rintro x y ⟨i, atX, atY⟩
  obtain ⟨bound, rfl⟩ := List.getElem?_eq_some_iff.1 atX
  by_cases inside : i + 1 < walk.length
  · -- an inner step is a step of the chain
    rw [Nat.mod_eq_of_lt inside, List.getElem?_eq_getElem inside, Option.some.injEq] at atY
    subst atY
    exact List.isChain_iff_getElem.1 chain i inside
  · -- the step that wraps around leads from the last element to the first one
    have wraps : i + 1 = walk.length := by omega
    rw [wraps, Nat.mod_self, ← List.head?_eq_getElem?, atFirst, Option.some.injEq] at atY
    have ends : i = walk.length - 1 := by omega
    rw [List.getLast?_eq_getElem?, ← ends, List.getElem?_eq_getElem bound,
      Option.some.injEq] at atLast
    rw [← atY, atLast]
    exact closing

/-! ### Small graphs -/

/-- A function of which only the id matters. -/
def Function.withId (id : String) : Function := { (default : Function) with id := id }

/-- A direct call of which only the two ends matter. -/
def Call.direct (caller callee : String) : Call :=
  { (default : Call) with callerId := caller, calleeId := some callee, callType := some .direct }

/-! ### Places of ids -/

/-- The last place of an id, counted from the place of the head, holds the id. -/
theorem getElem?_of_lastPlaceFrom? {id : String} {ids : List String} {place node : Nat}
    (found : lastPlaceFrom? id place ids = some node) :
    ∃ i, node = place + i ∧ ids[i]? = some id := by
  induction ids generalizing place with
  | nil => simp [lastPlaceFrom?] at found
  | cons x more ih =>
      rw [lastPlaceFrom?] at found
      split at found
      · next later =>
          injection found with same
          subst same
          obtain ⟨i, rfl, holds⟩ := ih later
          exact ⟨i + 1, by omega, by simpa using holds⟩
      · split at found
        · next same =>
            injection found with here
            exact ⟨0, by omega, by simp [same]⟩
        · cases found

theorem getElem?_of_lastPlace? {ids : List String} {id : String} {node : Nat}
    (found : lastPlace? ids id = some node) : ids[node]? = some id := by
  obtain ⟨i, rfl, holds⟩ := getElem?_of_lastPlaceFrom? found
  simpa using holds

theorem lastPlaceFrom?_isSome {id : String} {ids : List String} (known : id ∈ ids) (place : Nat) :
    ∃ node, lastPlaceFrom? id place ids = some node := by
  induction ids generalizing place with
  | nil => cases known
  | cons x more ih =>
      rw [lastPlaceFrom?]
      cases later : lastPlaceFrom? id (place + 1) more with
      | some node => exact ⟨node, rfl⟩
      | none =>
          rcases List.mem_cons.1 known with rfl | behind
          · exact ⟨place, if_pos rfl⟩
          · obtain ⟨node, found⟩ := ih behind (place + 1)
            rw [later] at found
            cases found

/-- The node that stands for a known id. -/
def nodeOf (ids : List String) (id : String) : Nat := (lastPlace? ids id).getD 0

theorem lastPlace?_eq_nodeOf {ids : List String} {id : String} (known : id ∈ ids) :
    lastPlace? ids id = some (nodeOf ids id) := by
  obtain ⟨node, found⟩ := lastPlaceFrom?_isSome known 0
  have found : lastPlace? ids id = some node := found
  simp [nodeOf, found]

namespace CallGraph

/-! ### The graph by nodes -/

/-- There is an edge from one node to another. -/
def Calls (g : CallGraph) (caller callee : Nat) : Prop := (caller, callee) ∈ g.edges

/-- The successors of a node are the nodes it has an edge to. -/
theorem mem_successors {g : CallGraph} {caller callee : Nat} :
    callee ∈ g.successors caller ↔ g.Calls caller callee := by
  simp only [successors, Calls, List.mem_map, List.mem_filter, decide_eq_true_eq]
  constructor
  · rintro ⟨edge, ⟨listed, rfl⟩, rfl⟩
    exact listed
  · intro listed
    exact ⟨(caller, callee), ⟨listed, rfl⟩, rfl⟩

variable {ids : List String} {calls : List Call}

/-- An edge joins the last places of the two ends of a direct call. -/
theorem calls_ofCalls_iff {x y : Nat} :
    (ofCalls ids calls).Calls x y ↔
      ∃ caller callee, DirectlyCalls ids calls caller callee ∧
        lastPlace? ids caller = some x ∧ lastPlace? ids callee = some y := by
  simp only [Calls, ofCalls, List.mem_eraseDups, List.mem_filterMap, Call.edge?, Call.target?,
    Option.bind_eq_bind, Option.bind_eq_some_iff, Option.pure_def, Option.some.injEq,
    Prod.mk.injEq]
  constructor
  · rintro ⟨call, listed, y, reached, x, atCaller, rfl, rfl⟩
    split at reached
    · next direct =>
        obtain ⟨callee, named, atCallee⟩ := Option.bind_eq_some_iff.1 reached
        exact ⟨call.callerId, callee,
          ⟨List.mem_of_getElem? (getElem?_of_lastPlace? atCaller),
            List.mem_of_getElem? (getElem?_of_lastPlace? atCallee),
            call, listed, direct, rfl, named⟩,
          atCaller, atCallee⟩
    · cases reached
  · rintro ⟨_, callee, ⟨_, _, call, listed, direct, rfl, named⟩, atCaller, atCallee⟩
    exact ⟨call, listed, y, by simp [direct, named, atCallee], x, atCaller, rfl, rfl⟩

theorem idOf_of_lastPlace? {id : String} {node : Nat} (found : lastPlace? ids id = some node) :
    (ofCalls ids calls).idOf node = id := by
  simp [idOf, ofCalls, List.getD_eq_getElem?_getD, getElem?_of_lastPlace? found]

theorem idOf_nodeOf {id : String} (known : id ∈ ids) :
    (ofCalls ids calls).idOf (nodeOf ids id) = id :=
  idOf_of_lastPlace? (lastPlace?_eq_nodeOf known)

theorem nodeOf_lt_size {id : String} (known : id ∈ ids) :
    nodeOf ids id < (ofCalls ids calls).size :=
  (List.getElem?_eq_some_iff.1 (getElem?_of_lastPlace? (lastPlace?_eq_nodeOf known))).1

theorem idOf_mem {node : Nat} (bound : node < (ofCalls ids calls).size) :
    (ofCalls ids calls).idOf node ∈ ids := by
  have bound : node < ids.length := bound
  simp [idOf, ofCalls, List.getD_eq_getElem?_getD, bound]

/-- A direct call is an edge between the nodes of its two ids. -/
theorem calls_nodeOf {caller callee : String} (direct : DirectlyCalls ids calls caller callee) :
    (ofCalls ids calls).Calls (nodeOf ids caller) (nodeOf ids callee) :=
  calls_ofCalls_iff.2 ⟨caller, callee, direct, lastPlace?_eq_nodeOf direct.1,
    lastPlace?_eq_nodeOf direct.2.1⟩

/-- An edge of the graph stands for a direct call between the ids of its ends. -/
theorem Calls.directlyCalls {x y : Nat} (edge : (ofCalls ids calls).Calls x y) :
    DirectlyCalls ids calls ((ofCalls ids calls).idOf x) ((ofCalls ids calls).idOf y) := by
  obtain ⟨caller, callee, direct, atCaller, atCallee⟩ := calls_ofCalls_iff.1 edge
  rw [idOf_of_lastPlace? atCaller, idOf_of_lastPlace? atCallee]
  exact direct

/-- The ends of an edge are the nodes of their own ids.  Of several functions with one id only the
last one has edges. -/
theorem Calls.nodeOf_idOf {x y : Nat} (edge : (ofCalls ids calls).Calls x y) :
    nodeOf ids ((ofCalls ids calls).idOf x) = x ∧ nodeOf ids ((ofCalls ids calls).idOf y) = y := by
  obtain ⟨caller, callee, _, atCaller, atCallee⟩ := calls_ofCalls_iff.1 edge
  rw [idOf_of_lastPlace? atCaller, idOf_of_lastPlace? atCallee]
  exact ⟨by simp [nodeOf, atCaller], by simp [nodeOf, atCallee]⟩

/-- As many different nodes as a list holds, the graph has at least. -/
theorem length_le_size {g : CallGraph} {path : List Nat} (distinct : path.Nodup)
    (inside : ∀ node ∈ path, node < g.size) : path.length ≤ g.size := by
  have listed : path ⊆ List.range g.size := fun node onPath =>
    List.mem_range.2 (inside node onPath)
  simpa using (distinct.subperm listed).length_le

/-- Edges lead to nodes of the graph only. -/
def Bounded (g : CallGraph) : Prop := ∀ x y, g.Calls x y → y < g.size

theorem ofCalls_bounded : (ofCalls ids calls).Bounded := by
  intro x y edge
  rw [← edge.nodeOf_idOf.2]
  exact nodeOf_lt_size edge.directlyCalls.2.1

end CallGraph

/-! ### Marked nodes -/

theorem getD_setIfInBounds {α : Type} {values : Array α} {place : Nat}
    (inside : place < values.size) (value fallback : α) (other : Nat) :
    (values.setIfInBounds place value).getD other fallback =
      if place = other then value else values.getD other fallback := by
  rw [Array.getD_eq_getD_getElem?, Array.getD_eq_getD_getElem?, Array.getElem?_setIfInBounds]
  by_cases same : place = other
  · subst same
    simp [inside]
  · simp [same]

/-- The nodes that are marked are those of a list. -/
structure NodeMarks (g : CallGraph) (marks : Array Bool) (nodes : List Nat) : Prop where
  size_eq : marks.size = g.size
  marked : ∀ node, marks.getD node false = true ↔ node ∈ nodes

namespace NodeMarks

variable {g : CallGraph} {marks : Array Bool} {nodes : List Nat} {node : Nat}

theorem empty (g : CallGraph) : NodeMarks g (Array.replicate g.size false) [] := by
  refine ⟨Array.size_replicate, ?_⟩
  intro node
  by_cases inside : node < g.size <;> simp [inside]

theorem unmarked (agree : NodeMarks g marks nodes) :
    marks.getD node false = false ↔ node ∉ nodes := by
  rw [← Bool.not_eq_true, agree.marked]

/-- Only nodes of the graph can be marked. -/
theorem lt_size (agree : NodeMarks g marks nodes) (listed : node ∈ nodes) : node < g.size := by
  by_contra outside
  have marked := (agree.marked node).2 listed
  rw [← agree.size_eq] at outside
  simp [Array.getD, outside] at marked

theorem push (agree : NodeMarks g marks nodes) (bound : node < g.size) :
    NodeMarks g (marks.setIfInBounds node true) (node :: nodes) where
  size_eq := by simpa using agree.size_eq
  marked := by
    intro other
    rw [getD_setIfInBounds (agree.size_eq ▸ bound), List.mem_cons]
    by_cases same : node = other
    · simp [same]
    · rw [if_neg same, agree.marked]
      exact ⟨.inr, fun listed => listed.resolve_left fun back => same back.symm⟩

theorem pop (agree : NodeMarks g marks (node :: nodes)) (single : node ∉ nodes) :
    NodeMarks g (marks.setIfInBounds node false) nodes where
  size_eq := by simpa using agree.size_eq
  marked := by
    intro other
    have bound : node < g.size := agree.lt_size List.mem_cons_self
    rw [getD_setIfInBounds (agree.size_eq ▸ bound)]
    by_cases same : node = other
    · subst same
      simp [single]
    · rw [if_neg same, agree.marked, List.mem_cons]
      exact ⟨fun listed => listed.resolve_left fun back => same back.symm, .inr⟩

end NodeMarks

end CallAtlas
