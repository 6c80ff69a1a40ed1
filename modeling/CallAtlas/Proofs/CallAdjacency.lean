/-
Module: CallAtlas.Proofs.CallAdjacency
Purpose: Which functions are orphans, and which functions a function calls.  Both are said by ids
  and by the list of calls alone.  Where ids are distinct a node of the graph is the place of an id,
  so what the graph keeps by nodes can be read back: no call is lost, and repeated calls leave the
  order in which callees are named first.
Main definitions: OccursBefore, FirstOccurrences, Call.NamesDirectly, directCallees
Main results: eraseDups_firstOccurrences, FirstOccurrences.unique, CallGraph.orphans_eq,
  CallGraph.callees_firstOccurrences, orphans_and_callees_are_exact
-/
import CallAtlas.Proofs.CallGraph

namespace CallAtlas

/-! ### First occurrences -/

/-- One element is met in a list before another one. -/
def OccursBefore {α : Type} (all : List α) (x y : α) : Prop :=
  ∃ before after, all = before ++ x :: after ∧ y ≠ x ∧ y ∉ before

/-- The elements of a list, each of them once, in the order in which they are met first. -/
structure FirstOccurrences {α : Type} (all listed : List α) : Prop where
  nodup : listed.Nodup
  mem_iff : ∀ x, x ∈ listed ↔ x ∈ all
  ordered : listed.Pairwise (OccursBefore all)

namespace OccursBefore

variable {α : Type} {all : List α} {x y : α}

theorem cons {a : α} (before : OccursBefore all x y) (differs : y ≠ a) :
    OccursBefore (a :: all) x y := by
  obtain ⟨front, back, rfl, other, notBefore⟩ := before
  exact ⟨a :: front, back, rfl, other, by simp [differs, notBefore]⟩

/-- Elements that are left out come between others without changing their order. -/
theorem of_filter {p : α → Bool} (before : OccursBefore (all.filter p) x y) (kept : p y) :
    OccursBefore all x y := by
  obtain ⟨front, back, split, other, notBefore⟩ := before
  obtain ⟨front', rest, rfl, rfl, splitRest⟩ := List.filter_eq_append_iff.1 split
  obtain ⟨skipped, back', rfl, dropped, _, _⟩ := List.filter_eq_cons_iff.1 splitRest
  refine ⟨front' ++ skipped, back', by simp, other, ?_⟩
  intro listed
  rcases List.mem_append.1 listed with inFront | inSkipped
  · exact notBefore (List.mem_filter.2 ⟨inFront, kept⟩)
  · exact dropped y inSkipped kept

/-- A partial function that tells the elements of a list apart keeps their order. -/
theorem filterMap {β : Type} {f : α → Option β} {b c : β} (before : OccursBefore all x y)
    (listed : y ∈ all) (apart : ∀ u ∈ all, ∀ v ∈ all, ∀ d, f u = some d → f v = some d → u = v)
    (atX : f x = some b) (atY : f y = some c) : OccursBefore (all.filterMap f) b c := by
  obtain ⟨front, back, rfl, other, notBefore⟩ := before
  refine ⟨front.filterMap f, back.filterMap f, by simp [atX], ?_, ?_⟩
  · rintro rfl
    exact other (apart y listed x (by simp) _ atY atX)
  · intro met
    obtain ⟨z, inFront, atZ⟩ := List.mem_filterMap.1 met
    obtain rfl := apart z (by simp [inFront]) y listed _ atZ atY
    exact notBefore inFront

theorem asymm (before : OccursBefore all x y) : ¬ OccursBefore all y x := by
  rintro ⟨front', back', split', _, notBefore'⟩
  obtain ⟨front, back, rfl, other, notBefore⟩ := before
  -- one of the two splits cuts the list first, and the later front holds what it cuts at
  rcases List.append_eq_append_iff.1 split' with ⟨rest, rfl, same⟩ | ⟨rest, rfl, same⟩
  · cases rest with
    | nil =>
        injection same with same _
        exact other same.symm
    | cons z rest =>
        injection same with same _
        exact notBefore' (by simp [same])
  · cases rest with
    | nil =>
        injection same with same _
        exact other same
    | cons z rest =>
        injection same with same _
        exact notBefore (by simp [same])

end OccursBefore

namespace FirstOccurrences

variable {α : Type} {all listed : List α}

theorem filterMap {β : Type} {f : α → Option β} (first : FirstOccurrences all listed)
    (apart : ∀ u ∈ all, ∀ v ∈ all, ∀ d, f u = some d → f v = some d → u = v) :
    FirstOccurrences (all.filterMap f) (listed.filterMap f) where
  nodup := by
    refine List.pairwise_filterMap.2 (first.nodup.imp_of_mem ?_)
    rintro u v inU inV differ b atU c atV rfl
    exact differ (apart u ((first.mem_iff u).1 inU) v ((first.mem_iff v).1 inV) b atU atV)
  mem_iff := by
    intro b
    simp only [List.mem_filterMap, first.mem_iff]
  ordered := by
    refine List.pairwise_filterMap.2 (first.ordered.imp_of_mem ?_)
    intro u v _ inV before b atU c atV
    exact before.filterMap ((first.mem_iff v).1 inV) apart atU atV

/-- The order and the elements leave one list only. -/
theorem unique {listed' : List α} (first : FirstOccurrences all listed)
    (second : FirstOccurrences all listed') : listed = listed' := by
  have sameElements : listed.Perm listed' := by
    rw [List.perm_ext_iff_of_nodup first.nodup second.nodup]
    intro x
    rw [first.mem_iff, second.mem_iff]
  refine sameElements.eq_of_pairwise ?_ first.ordered second.ordered
  intro x y _ _ before after
  exact absurd after before.asymm

end FirstOccurrences

/-- Erasing repetitions keeps the first occurrences. -/
theorem eraseDups_firstOccurrences {α : Type} [BEq α] [LawfulBEq α] :
    ∀ all : List α, FirstOccurrences all all.eraseDups
  | [] => ⟨by simp, by simp, by simp⟩
  | a :: all => by
      have rest := eraseDups_firstOccurrences (all.filter fun b => !b == a)
      have differs : ∀ y ∈ (all.filter fun b => !b == a).eraseDups, y ≠ a := by
        intro y listed
        simpa using (List.mem_filter.1 (List.mem_eraseDups.1 listed)).2
      refine ⟨?_, fun x => List.mem_eraseDups, ?_⟩
      · rw [List.eraseDups_cons, List.nodup_cons]
        exact ⟨fun listed => differs a listed rfl, rest.nodup⟩
      · rw [List.eraseDups_cons, List.pairwise_cons]
        refine ⟨fun y listed => ⟨[], all, rfl, differs y listed, by simp⟩, ?_⟩
        refine rest.ordered.imp_of_mem ?_
        intro x y _ listed before
        have other := differs y listed
        exact (before.of_filter (by simpa using other)).cons other
termination_by all => all.length
decreasing_by
  have shorter := List.length_filter_le (fun b => !b == a) all
  rw [List.length_cons]
  omega

/-! ### Calls by id -/

/-- The call is direct and names the function with the given id. -/
def Call.NamesDirectly (call : Call) (id : String) : Prop :=
  call.callType = some .direct ∧ call.calleeId = some id

instance (call : Call) (id : String) : Decidable (call.NamesDirectly id) :=
  inferInstanceAs (Decidable (_ ∧ _))

/-- The callee of a call that is direct, made by the given function and names a known function. -/
def Call.knownCallee? (ids : List String) (caller : String) (call : Call) : Option String :=
  if call.callType = some .direct ∧ call.callerId = caller then call.calleeId.filter (· ∈ ids)
  else none

/-- The known functions that the direct calls of a function name, one for each call, in order. -/
def directCallees (ids : List String) (calls : List Call) (caller : String) : List String :=
  calls.filterMap (·.knownCallee? ids caller)

theorem Call.knownCallee?_eq_some_iff {ids : List String} {caller callee : String} {call : Call} :
    call.knownCallee? ids caller = some callee ↔
      call.callerId = caller ∧ call.NamesDirectly callee ∧ callee ∈ ids := by
  unfold Call.knownCallee? Call.NamesDirectly
  split
  · next both => simp [both, Option.filter_eq_some_iff]
  · next neither =>
      constructor
      · intro none
        cases none
      · rintro ⟨byCaller, ⟨direct, _⟩, _⟩
        exact absurd ⟨direct, byCaller⟩ neither

/-! ### Places of distinct ids -/

section Distinct

variable {ids : List String} {calls : List Call}

/-- The last place of an id is its only one. -/
theorem lastPlace?_eq_some_iff (distinct : ids.Nodup) {id : String} {node : Nat} :
    lastPlace? ids id = some node ↔ ids[node]? = some id := by
  refine ⟨getElem?_of_lastPlace?, ?_⟩
  intro holds
  have found := lastPlace?_eq_nodeOf (List.mem_of_getElem? holds)
  have holds' := getElem?_of_lastPlace? found
  obtain ⟨bound, _⟩ := List.getElem?_eq_some_iff.1 holds
  have same := (List.getElem?_inj bound distinct).1 (holds.trans holds'.symm)
  rw [found, same]

/-- A call reaches a node exactly if it is direct and names the id there. -/
theorem Call.target?_eq_some_iff (distinct : ids.Nodup) {call : Call} {node : Nat} :
    call.target? ids = some node ↔ ∃ id, call.NamesDirectly id ∧ ids[node]? = some id := by
  unfold Call.target? Call.NamesDirectly
  split
  · next direct =>
      simp only [Option.bind_eq_some_iff, lastPlace?_eq_some_iff distinct, direct, true_and]
  · next notDirect => simp [notDirect]

namespace CallGraph

/-- A node is among the called ones exactly if some direct call names its id. -/
theorem mem_called_iff (distinct : ids.Nodup) {id : String} {node : Nat}
    (holds : ids[node]? = some id) :
    node ∈ (ofCalls ids calls).called ↔ ∃ call ∈ calls, call.NamesDirectly id := by
  simp only [ofCalls, List.mem_filterMap, Call.target?_eq_some_iff distinct, holds,
    Option.some.injEq]
  constructor
  · rintro ⟨call, listed, _, names, rfl⟩
    exact ⟨call, listed, names⟩
  · rintro ⟨call, listed, names⟩
    exact ⟨call, listed, id, names, rfl⟩

/-- The orphans are the ids that no direct call names, in order, up to the limit. -/
theorem orphans_eq (distinct : ids.Nodup) (limit : Nat) :
    (ofCalls ids calls).orphans limit =
      (ids.filter fun id => ∀ call ∈ calls, ¬ call.NamesDirectly id).take limit := by
  have sameTest : ∀ entry ∈ ids.zipIdx,
      (!(ofCalls ids calls).called.contains entry.2) =
        decide (∀ call ∈ calls, ¬ call.NamesDirectly entry.1) := by
    rintro ⟨id, node⟩ listed
    have holds : ids[node]? = some id := List.mem_zipIdx_iff_getElem?.1 listed
    have reached : node ∈ (ofCalls ids calls).called ↔ ∃ call ∈ calls, call.NamesDirectly id :=
      mem_called_iff distinct holds
    rw [Bool.eq_iff_iff]
    simp [reached]
  unfold orphans
  congr 1
  calc
    (ids.zipIdx.filter fun entry => !(ofCalls ids calls).called.contains entry.2).map (·.1)
      = (ids.zipIdx.filter fun entry =>
          decide (∀ call ∈ calls, ¬ call.NamesDirectly entry.1)).map (·.1) := by
        rw [List.filter_congr sameTest]
    _ = (ids.zipIdx.map (·.1)).filter fun id => ∀ call ∈ calls, ¬ call.NamesDirectly id := by
        rw [List.filter_map]
        rfl
    _ = ids.filter fun id => ∀ call ∈ calls, ¬ call.NamesDirectly id := by
        rw [List.zipIdx_map_fst]

/-- An edge joins the places of the two ids that a direct call names. -/
theorem edge?_eq_some_iff (distinct : ids.Nodup) {call : Call} {edge : Nat × Nat} :
    call.edge? ids = some edge ↔
      ids[edge.1]? = some call.callerId ∧
        ∃ callee, call.NamesDirectly callee ∧ ids[edge.2]? = some callee := by
  simp only [Call.edge?, Option.bind_eq_bind, Option.bind_eq_some_iff, Option.pure_def,
    Option.some.injEq, Call.target?_eq_some_iff distinct, lastPlace?_eq_some_iff distinct]
  constructor
  · rintro ⟨y, names, x, atCaller, rfl⟩
    exact ⟨atCaller, names⟩
  · rintro ⟨atCaller, names⟩
    exact ⟨edge.2, names, edge.1, atCaller, rfl⟩

/-- The id that an edge from a given node leads to. -/
def calleeBy? (g : CallGraph) (node : Nat) (edge : Nat × Nat) : Option String :=
  if edge.1 = node then some (g.idOf edge.2) else none

theorem calleeBy?_eq_some_iff {g : CallGraph} {node : Nat} {edge : Nat × Nat} {callee : String} :
    g.calleeBy? node edge = some callee ↔ edge.1 = node ∧ g.idOf edge.2 = callee := by
  simp [calleeBy?]

theorem successors_map_idOf (g : CallGraph) (node : Nat) :
    (g.successors node).map g.idOf = g.edges.filterMap (g.calleeBy? node) := by
  rw [successors, List.map_map, ← List.filterMap_eq_map, List.filterMap_filter]
  refine List.filterMap_congr ?_
  intro edge _
  simp [calleeBy?]

/-- The edge of a call from a node is, read by ids, the known callee of a direct call. -/
theorem edge?_bind_calleeBy? (distinct : ids.Nodup) {caller : String} {node : Nat}
    (holds : ids[node]? = some caller) (call : Call) :
    (call.edge? ids).bind ((ofCalls ids calls).calleeBy? node) = call.knownCallee? ids caller := by
  ext callee
  simp only [Option.bind_eq_some_iff, edge?_eq_some_iff distinct, calleeBy?_eq_some_iff,
    Call.knownCallee?_eq_some_iff]
  constructor
  · rintro ⟨edge, ⟨atCaller, callee', names, atCallee⟩, rfl, rfl⟩
    have sameId : (ofCalls ids calls).idOf edge.2 = callee' :=
      idOf_of_lastPlace? ((lastPlace?_eq_some_iff distinct).2 atCallee)
    rw [sameId]
    exact ⟨Option.some.inj (atCaller.symm.trans holds), names, List.mem_of_getElem? atCallee⟩
  · rintro ⟨rfl, names, known⟩
    have atCallee := (lastPlace?_eq_some_iff distinct).1 (lastPlace?_eq_nodeOf known)
    exact ⟨(node, nodeOf ids callee), ⟨holds, callee, names, atCallee⟩, rfl, idOf_nodeOf known⟩

/-- The callees of a known function are those that its direct calls name, in the order in which they
are named first. -/
theorem callees_firstOccurrences (distinct : ids.Nodup) {caller : String} (known : caller ∈ ids) :
    FirstOccurrences (directCallees ids calls caller) ((ofCalls ids calls).callees caller) := by
  obtain ⟨node, found⟩ : ∃ node, ids.idxOf? caller = some node :=
    Option.isSome_iff_exists.1 (by simpa using known)
  obtain ⟨bound, atNode, _⟩ := List.idxOf?_eq_some_iff.1 found
  have holds : ids[node]? = some caller := by rw [List.getElem?_eq_getElem bound, atNode]
  have listed : (ofCalls ids calls).callees caller =
      (calls.filterMap (·.edge? ids)).eraseDups.filterMap
        ((ofCalls ids calls).calleeBy? node) := by
    have matched : (ofCalls ids calls).ids.idxOf? caller = some node := found
    rw [callees, matched]
    exact successors_map_idOf _ node
  have named : directCallees ids calls caller =
      (calls.filterMap (·.edge? ids)).filterMap ((ofCalls ids calls).calleeBy? node) := by
    rw [List.filterMap_filterMap, directCallees]
    exact List.filterMap_congr fun call _ => (edge?_bind_calleeBy? distinct holds call).symm
  rw [listed, named]
  refine (eraseDups_firstOccurrences _).filterMap ?_
  -- edges from one node that lead to one id lead to one node
  intro edge inEdges edge' inEdges' callee leads leads'
  obtain ⟨sameStart, sameEnd⟩ := calleeBy?_eq_some_iff.1 leads
  obtain ⟨sameStart', sameEnd'⟩ := calleeBy?_eq_some_iff.1 leads'
  have isEdge : (ofCalls ids calls).Calls edge.1 edge.2 := List.mem_eraseDups.2 inEdges
  have isEdge' : (ofCalls ids calls).Calls edge'.1 edge'.2 := List.mem_eraseDups.2 inEdges'
  refine Prod.ext (sameStart.trans sameStart'.symm) ?_
  rw [← isEdge.nodeOf_idOf.2, ← isEdge'.nodeOf_idOf.2, sameEnd, sameEnd']

theorem callees_of_unknown {caller : String} (unknown : caller ∉ ids) :
    (ofCalls ids calls).callees caller = [] := by
  have missing : (ofCalls ids calls).ids.idxOf? caller = none := by
    simpa [ofCalls] using unknown
  rw [callees, missing]

end CallGraph

end Distinct

/-- Of functions with distinct ids, the orphans are the first ids, in the order of the functions,
that no direct call names, whoever makes the call.  The callees of a known function are the known
functions that its direct calls name, without repetition and in the order in which they are named
first; an unknown id has none. -/
theorem orphans_and_callees_are_exact (functions : List Function) (calls : List Call)
    (distinct : (functions.map (·.id)).Nodup) :
    (∀ limit, (CallGraph.ofCalls (functions.map (·.id)) calls).orphans limit =
      ((functions.map (·.id)).filter fun id => ∀ call ∈ calls,
        ¬ (call.callType = some .direct ∧ call.calleeId = some id)).take limit) ∧
    (∀ caller ∈ functions.map (·.id), ∀ listed,
      (CallGraph.ofCalls (functions.map (·.id)) calls).callees caller = listed ↔
        FirstOccurrences (directCallees (functions.map (·.id)) calls caller) listed) ∧
    ∀ caller, caller ∉ functions.map (·.id) →
      (CallGraph.ofCalls (functions.map (·.id)) calls).callees caller = [] := by
  refine ⟨CallGraph.orphans_eq distinct, ?_, fun _ => CallGraph.callees_of_unknown⟩
  intro caller known listed
  have first : FirstOccurrences (directCallees (functions.map (·.id)) calls caller)
      ((CallGraph.ofCalls (functions.map (·.id)) calls).callees caller) :=
    CallGraph.callees_firstOccurrences distinct known
  constructor
  · rintro rfl
    exact first
  · exact first.unique

/-- Among the calls are a repeated one, one to an unknown function, one by an unknown function and
two that are not direct. -/
theorem orphans_and_callees_are_exact_mixed :
    let functions := ["a", "b", "c", "d"].map Function.withId
    let calls := [Call.direct "a" "c", { Call.direct "b" "a" with callType := some .external },
      Call.direct "a" "b", Call.direct "a" "c", Call.direct "a" "z", Call.direct "x" "d",
      { Call.direct "c" "a" with callType := none }]
    (functions.map (·.id)).Nodup ∧
      (CallGraph.ofCalls (functions.map (·.id)) calls).orphans 3 = ["a"] ∧
      (CallGraph.ofCalls (functions.map (·.id)) calls).callees "a" = ["c", "b"] ∧
      FirstOccurrences (directCallees (functions.map (·.id)) calls "a") ["c", "b"] ∧
      (CallGraph.ofCalls (functions.map (·.id)) calls).callees "x" = [] := by
  intro functions calls
  have distinct : (functions.map (·.id)).Nodup := by decide
  have answers := orphans_and_callees_are_exact functions calls distinct
  have called : (CallGraph.ofCalls (functions.map (·.id)) calls).callees "a" = ["c", "b"] := by
    decide
  exact ⟨distinct, (answers.1 3).trans (by decide), called,
    (answers.2.1 "a" (by decide) ["c", "b"]).1 called, answers.2.2 "x" (by decide)⟩

end CallAtlas
