/-
Module: CallAtlas.Proofs.CycleLimit
Purpose: What a limit does to the list of cycles, and which cycles it holds once.  A search with a
  smaller limit goes the same way as one with a larger limit until it is full, and from then on
  stands still; so it finds the first of the same cycles.  A cycle is kept in the list by the
  rotation that starts at its least node, and that rotation is the same exactly for rotations of one
  cycle.
Main definitions: Exploration.CappedBy, Exploration.Distinct
Main results: canonicalRotation_eq_iff, CallGraph.exploredCycles_take,
  CallGraph.exploredCycles_distinct, cycle_limit_is_a_plain_cut
-/
import CallAtlas.Proofs.CycleSearch
import Mathlib.Data.List.Rotate
import Mathlib.Data.List.TakeWhile

namespace CallAtlas

/-! ### The rotation that starts at the least node -/

theorem canonicalRotation_isRotated (cycle : List Nat) : canonicalRotation cycle ~r cycle := by
  unfold canonicalRotation
  split
  · exact .refl _
  · next least _ =>
      have swapped : cycle.dropWhile (· != least) ++ cycle.takeWhile (· != least) ~r
          cycle.takeWhile (· != least) ++ cycle.dropWhile (· != least) := List.isRotated_append
      rwa [List.takeWhile_append_dropWhile] at swapped

/-- The canonical rotation starts at the least node. -/
theorem head?_canonicalRotation (cycle : List Nat) :
    (canonicalRotation cycle).head? = cycle.min? := by
  unfold canonicalRotation
  split
  · next none =>
      rw [none, List.min?_eq_none_iff.1 none]
      rfl
  · next least isLeast =>
      have listed : least ∈ cycle := (List.min?_eq_some_iff.1 isLeast).1
      have reached : cycle.dropWhile (· != least) ≠ [] := by
        intro passed
        simpa using List.dropWhile_eq_nil_iff.1 passed least listed
      have stops : (cycle.dropWhile (· != least)).head? = some least := by
        have atHead := List.head_dropWhile_not (· != least) reached
        rw [List.head?_eq_some_head reached, Option.some.injEq]
        simpa using atHead
      rw [List.head?_append, stops, isLeast, Option.some_or]

theorem min?_eq_of_isRotated {cycle cycle' : List Nat} (rotated : cycle ~r cycle') :
    cycle.min? = cycle'.min? := by
  ext least
  simp only [List.min?_eq_some_iff, rotated.mem_iff]

/-- Two rotations of one cycle without repetition that start at the same node are the same. -/
theorem eq_of_isRotated_of_head? {cycle cycle' : List Nat} (distinct : cycle.Nodup)
    (rotated : cycle ~r cycle') (sameHead : cycle.head? = cycle'.head?) : cycle = cycle' := by
  obtain ⟨turns, bound, rfl⟩ := List.isRotated_iff_mod.1 rotated
  rcases Nat.lt_or_eq_of_le bound with inside | rfl
  · -- the node that comes first now was first before, so nothing was turned
    rw [List.head?_rotate inside, List.head?_eq_getElem?] at sameHead
    have first : 0 < cycle.length := Nat.zero_lt_of_lt inside
    obtain rfl := (List.getElem?_inj first distinct).1 sameHead
    rw [List.rotate_zero]
  · rw [List.rotate_length]

/-- Cycles without repetition have the same canonical rotation exactly if they are rotations of one
another. -/
theorem canonicalRotation_eq_iff {cycle cycle' : List Nat} (distinct : cycle.Nodup) :
    canonicalRotation cycle = canonicalRotation cycle' ↔ cycle ~r cycle' := by
  have turned := canonicalRotation_isRotated cycle
  have turned' := canonicalRotation_isRotated cycle'
  constructor
  · intro same
    exact turned.symm.trans (same ▸ turned')
  · intro rotated
    refine eq_of_isRotated_of_head? (turned.nodup_iff.2 distinct)
      (turned.trans (rotated.trans turned'.symm)) ?_
    rw [head?_canonicalRotation, head?_canonicalRotation, min?_eq_of_isRotated rotated]

/-! ### Searches with different limits -/

namespace Exploration

/-- A search with a limit beside one with a larger limit: it has found the first of the same cycles,
and as long as it has room it is in the same state. -/
structure CappedBy (limit : Nat) (s t : Exploration) : Prop where
  found : s.found = t.found.take limit
  same : s.found.length < limit → s = t

theorem CappedBy.of_le {limit : Nat} {s : Exploration} (inside : s.found.length ≤ limit) :
    CappedBy limit s s :=
  ⟨(List.take_of_length_le inside).symm, fun _ => rfl⟩

/-- A full search stands still while the other one goes on. -/
theorem CappedBy.of_full {limit : Nat} {s t u : Exploration} (capped : CappedBy limit s t)
    (full : limit ≤ s.found.length) (later : t.Extends u) : CappedBy limit s u := by
  refine ⟨?_, fun room => absurd room (Nat.not_lt.2 full)⟩
  obtain ⟨more, split⟩ := later.found
  have enough : limit ≤ t.found.length := by
    rw [capped.found, List.length_take] at full
    omega
  rw [← split, List.take_append_of_le_length enough, capped.found]

theorem length_record_le (s : Exploration) (cycle : List Nat) :
    (s.record cycle).found.length ≤ s.found.length + 1 := by
  unfold record
  split
  · exact Nat.le_succ _
  · simp

/-- The cycles that were found have different canonical rotations. -/
def Distinct (s : Exploration) : Prop := (s.found.map canonicalRotation).Nodup

theorem Distinct.record {s : Exploration} (distinct : s.Distinct) (cycle : List Nat) :
    (s.record cycle).Distinct := by
  unfold Exploration.record
  split
  · exact distinct
  · next unseen =>
      have unseen : canonicalRotation cycle ∉ s.found.map canonicalRotation := fun listed =>
        unseen (List.contains_iff_mem.2 listed)
      rw [Distinct, List.map_append, List.map_singleton, List.nodup_append']
      exact ⟨distinct, List.nodup_singleton _, List.disjoint_singleton.2 unseen⟩

end Exploration

namespace CallGraph

variable {g : CallGraph} {limit limit' : Nat}

private theorem visitChild_capped_of {fuel : Nat} (le : limit ≤ limit')
    (deeper : ∀ path s t, Exploration.CappedBy limit s t →
      Exploration.CappedBy limit (g.explore limit fuel path s) (g.explore limit' fuel path t))
    (path : List Nat) (child : Nat) {s t : Exploration} (capped : Exploration.CappedBy limit s t) :
    Exploration.CappedBy limit (g.visitChild limit fuel path s child)
      (g.visitChild limit' fuel path t child) := by
  rcases Nat.lt_or_ge s.found.length limit with room | full
  · -- both searches are in one state and take the same turn
    obtain rfl := capped.same room
    have room' : s.found.length < limit' := Nat.lt_of_lt_of_le room le
    unfold visitChild
    rw [Exploration.isFull_eq_false_iff.2 room, Exploration.isFull_eq_false_iff.2 room']
    rw [if_neg Bool.false_ne_true, if_neg Bool.false_ne_true]
    split
    · exact .of_le (Nat.le_trans (s.length_record_le _) room)
    · split
      · exact capped
      · exact deeper _ _ _ (.of_le (Nat.le_of_lt room))
  · have still : g.visitChild limit fuel path s child = s := by
      rw [visitChild, Exploration.isFull_of_le full, if_pos rfl]
    rw [still]
    exact capped.of_full full (g.visitChild_extends ..)

/-- To search on from a path under two limits keeps the searches together. -/
theorem explore_capped (le : limit ≤ limit') (fuel : Nat) (path : List Nat) {s t : Exploration}
    (capped : Exploration.CappedBy limit s t) :
    Exploration.CappedBy limit (g.explore limit fuel path s) (g.explore limit' fuel path t) := by
  induction fuel generalizing path s t with
  | zero => exact capped
  | succ fuel ih =>
      cases path with
      | nil => exact capped
      | cons node path =>
          rw [explore_succ, explore_succ]
          refine List.foldl_rel (r := Exploration.CappedBy limit) capped ?_
          intro child _ s t capped
          exact visitChild_capped_of le (fun path s t capped => ih path capped) _ child capped

theorem exploreFrom_capped (le : limit ≤ limit') (root : Nat) {s t : Exploration}
    (capped : Exploration.CappedBy limit s t) :
    Exploration.CappedBy limit (g.exploreFrom limit s root) (g.exploreFrom limit' t root) := by
  rcases Nat.lt_or_ge s.found.length limit with room | full
  · obtain rfl := capped.same room
    have room' : s.found.length < limit' := Nat.lt_of_lt_of_le room le
    unfold exploreFrom
    rw [Exploration.isFull_eq_false_iff.2 room, Exploration.isFull_eq_false_iff.2 room']
    split
    · exact capped
    · exact explore_capped le _ _ (.of_le (Nat.le_of_lt room))
  · have still : g.exploreFrom limit s root = s := by
      rw [exploreFrom, Exploration.isFull_of_le full, Bool.true_or, if_pos rfl]
    rw [still]
    exact capped.of_full full (g.exploreFrom_extends ..)

/-- The cycles under a limit are the first ones under a larger limit. -/
theorem exploredCycles_take (g : CallGraph) (le : limit ≤ limit') :
    g.exploredCycles limit = (g.exploredCycles limit').take limit := by
  have together : Exploration.CappedBy limit
      ((List.range g.size).foldl (g.exploreFrom limit) ⟨[], []⟩)
      ((List.range g.size).foldl (g.exploreFrom limit') ⟨[], []⟩) := by
    refine List.foldl_rel (r := Exploration.CappedBy limit) (.of_le (Nat.zero_le _)) ?_
    intro root _ s t capped
    exact exploreFrom_capped le root capped
  exact together.found

/-! ### Each cycle once -/

theorem explore_distinct (g : CallGraph) (limit fuel : Nat) (path : List Nat) {s : Exploration}
    (distinct : s.Distinct) : (g.explore limit fuel path s).Distinct := by
  induction fuel generalizing path s with
  | zero => exact distinct
  | succ fuel ih =>
      cases path with
      | nil => exact distinct
      | cons node path =>
          rw [explore_succ]
          refine List.foldlRecOn (motive := Exploration.Distinct) _ _ distinct ?_
          intro t distinct child _
          rcases g.visitChild_cases limit fuel (node :: path) t child with
            ⟨_, same⟩ | ⟨_, closed⟩ | ⟨_, _, same⟩ | ⟨_, _, entered⟩
          · rwa [same]
          · rw [closed]
            exact distinct.record _
          · rwa [same]
          · rw [entered]
            exact ih _ distinct

/-- No two of the cycles have the same canonical rotation. -/
theorem exploredCycles_distinct (g : CallGraph) (limit : Nat) :
    ((g.exploredCycles limit).map canonicalRotation).Nodup := by
  have start : Exploration.Distinct ⟨[], []⟩ := List.nodup_nil
  refine List.foldlRecOn (motive := Exploration.Distinct) _ _ start ?_
  intro s distinct root _
  unfold exploreFrom
  split
  · exact distinct
  · exact g.explore_distinct limit _ _ distinct

variable {ids : List String} {calls : List Call}

/-- The nodes of a cycle can be read back from its ids, because each of them has an edge. -/
theorem map_nodeOf_idOf {visited cycle : List Nat}
    (found : FoundCycle (ofCalls ids calls) visited cycle) :
    (cycle.map (ofCalls ids calls).idOf).map (nodeOf ids) = cycle := by
  have back : ∀ node ∈ cycle, nodeOf ids ((ofCalls ids calls).idOf node) = node := by
    intro node listed
    obtain ⟨_, step⟩ := NextInCycle.exists_of_mem listed
    exact (found.closedWalk.2 _ _ step).nodeOf_idOf.1
  rw [List.map_map]
  exact (List.map_congr_left back).trans (List.map_id cycle)

/-- No two of the cycles are rotations of one another. -/
theorem cycles_not_isRotated (limit : Nat) :
    ((ofCalls ids calls).cycles limit).Pairwise fun cycle cycle' => ¬ cycle ~r cycle' := by
  rw [cycles_eq_exploredCycles]
  have distinct := List.pairwise_map.1 ((ofCalls ids calls).exploredCycles_distinct limit)
  refine List.pairwise_map.2 (distinct.imp_of_mem ?_)
  intro nodes nodes' listed listed' differ rotated
  obtain ⟨visited, once, found⟩ := exploredCycles_found ofCalls_bounded listed
  obtain ⟨_, _, found'⟩ := exploredCycles_found ofCalls_bounded listed'
  have rotatedNodes := rotated.map (nodeOf ids)
  rw [map_nodeOf_idOf found, map_nodeOf_idOf found'] at rotatedNodes
  have nodup : nodes.Nodup := List.nodup_reverse.1 (once.sublist found.ordered)
  exact differ ((canonicalRotation_eq_iff nodup).2 rotatedNodes)

end CallGraph

/-- A limit cuts the list of cycles and changes nothing else: the cycles under a limit are the first
ones under any larger limit, or all of them if there are fewer.  Under every limit no two cycles at
different places of the list are rotations of one another.  Ids may belong to several functions. -/
theorem cycle_limit_is_a_plain_cut (functions : List Function) (calls : List Call) :
    (∀ limit limit', limit ≤ limit' →
      (CallGraph.ofCalls (functions.map (·.id)) calls).cycles limit =
        ((CallGraph.ofCalls (functions.map (·.id)) calls).cycles limit').take limit) ∧
    ∀ limit, ((CallGraph.ofCalls (functions.map (·.id)) calls).cycles limit).Pairwise
      fun cycle cycle' => ¬ cycle ~r cycle' := by
  refine ⟨?_, CallGraph.cycles_not_isRotated⟩
  intro limit limit' le
  rw [CallGraph.cycles_eq_exploredCycles, CallGraph.cycles_eq_exploredCycles,
    CallGraph.exploredCycles_take _ le, List.map_take]

/-- Two functions that call themselves and each other. -/
theorem cycle_limit_is_a_plain_cut_pair :
    let functions := ["a", "b"].map Function.withId
    let calls :=
      [Call.direct "a" "a", Call.direct "a" "b", Call.direct "b" "a", Call.direct "b" "b"]
    2 ≤ 5 ∧
      (CallGraph.ofCalls (functions.map (·.id)) calls).cycles 5 = [["a"], ["a", "b"], ["b"]] ∧
      (CallGraph.ofCalls (functions.map (·.id)) calls).cycles 2 = [["a"], ["a", "b"]] ∧
      [["a"], ["a", "b"], ["b"]].Pairwise fun cycle cycle' => ¬ cycle ~r cycle' := by
  intro functions calls
  have cut := cycle_limit_is_a_plain_cut functions calls
  have all : (CallGraph.ofCalls (functions.map (·.id)) calls).cycles 5 =
      [["a"], ["a", "b"], ["b"]] := by
    rw [CallGraph.cycles_eq_exploredCycles]
    decide
  refine ⟨by decide, all, ?_, all ▸ cut.2 5⟩
  rw [cut.1 2 5 (by decide), all]
  rfl

end CallAtlas
