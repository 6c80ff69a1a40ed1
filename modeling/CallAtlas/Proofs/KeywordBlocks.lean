/-
Module: CallAtlas.Proofs.KeywordBlocks
Purpose: Blocks between statements are nested or apart.  A scan meets opening and closing statements
  in turn, from wherever it starts.  If no opening statement starts inside a closing one, two scans
  that start at different statements meet the same ones from there on, so the inner one ends first.
Main definitions: Pattern.FirstMatch, KeywordPair.Separated, KeywordScan.Steps, KeywordScan.EndsAt
Main results: Pattern.searchFrom?_of_reads, KeywordScan.exists_ended,
  KeywordScan.EndsAt.shallower_first, KeywordScan.EndsAt.through_opening,
  KeywordPair.Separated.behind_or_inside
-/
import Mathlib.Logic.Relation
import CallAtlas.Proofs.BlockPlaces
import CallAtlas.Proofs.FileIds

namespace CallAtlas

/-! ### First matches -/

namespace Cursor

variable {t : Text} {c c' : Cursor}

theorem In.reads_of_le (inside : c.In t) (inside' : c'.In t) (before : c.offset ≤ c'.offset) :
    ∃ s, c.Reads s c' := by
  obtain ⟨p, split, offset, last⟩ := inside.split
  obtain ⟨p', split', offset', last'⟩ := inside'.split
  rw [split] at split'
  rcases List.append_eq_append_iff.1 split' with ⟨s, rfl, rest⟩ | ⟨s, rfl, rest⟩
  · refine ⟨s, rest, ?_, ?_⟩
    · rw [offset', offset, Text.size_append]
    · rw [last', last, List.getLast?_append]
  · -- the front cannot be longer, so the two fronts are the same
    have empty : s = [] := by
      apply Text.eq_nil_of_size_eq_zero
      rw [offset, offset', Text.size_append] at before
      omega
    subst empty
    refine ⟨[], rest.symm, ?_, ?_⟩
    · rw [offset', offset]
      simp
    · rw [last', last]
      simp

theorem Reads.length_rest {s : Text} (reads : c.Reads s c') :
    c.rest.length = s.length + c'.rest.length := by
  rw [reads.rest, List.length_append]

/-- Further on in a text, less of it is left. -/
theorem In.length_rest_lt (inside : c.In t) (inside' : c'.In t) (before : c.offset < c'.offset) :
    c'.rest.length < c.rest.length := by
  obtain ⟨s, reads⟩ := inside.reads_of_le inside' (Nat.le_of_lt before)
  have moved := reads.offset
  have length := reads.length_rest
  cases s with
  | nil =>
      rw [Text.size_nil] at moved
      omega
  | cons x s =>
      rw [List.length_cons] at length
      omega

theorem In.slice?_eq_some_slice (inside : c.In t) (inside' : c'.In t)
    (before : c.offset ≤ c'.offset) :
    t.slice? ⟨c.offset, c'.offset⟩ = some (t.slice ⟨c.offset, c'.offset⟩) := by
  obtain ⟨p, split, offset, _⟩ := inside.split
  obtain ⟨s, reads⟩ := inside.reads_of_le inside' before
  have cut : t.slice? ⟨c.offset, c'.offset⟩ = some s := by
    rw [reads.rest] at split
    exact Text.slice?_eq_some_iff.2 ⟨p, c'.rest, split, by rw [reads.offset, offset]⟩
  rw [Text.slice, cut]
  rfl

/-- A position stands at every boundary between characters. -/
theorem exists_in_of_isBoundary {n : Nat} (boundary : t.IsBoundary n) :
    ∃ c : Cursor, c.In t ∧ c.offset = n := by
  obtain ⟨p, s, rfl, rfl⟩ := boundary
  refine ⟨⟨p.getLast?, Text.size p, s⟩, ⟨p, rfl, ?_, ?_⟩, rfl⟩
  · simp [ofText]
  · simp [ofText]

end Cursor

namespace Pattern

/-- A search that starts further on, but not behind the first match, finds the same. -/
theorem searchFrom?_of_reads {p : Pattern} {c c' : Cursor} {s : Text} (reads : c.Reads s c')
    (unpassed : ∀ m, p.searchFrom? c = some m → c'.offset ≤ m.start) :
    p.searchFrom? c' = p.searchFrom? c := by
  induction s generalizing c with
  | nil =>
      obtain ⟨_, rfl⟩ := reads.eq_of_offset_eq (by simpa using reads.offset)
      rfl
  | cons x s ih =>
      obtain ⟨before, offset, rest⟩ := c
      obtain rfl : rest = x :: (s ++ c'.rest) := reads.rest
      have moved := reads.offset
      have positive := x.utf8Size_pos
      have goesOn : p.searchFrom? ⟨before, offset, x :: (s ++ c'.rest)⟩ =
          p.searchFrom? ⟨some x, offset + x.utf8Size, s ++ c'.rest⟩ := by
        rw [searchFrom?, searchFrom?, search?]
        split
        · next m here =>
            -- a match at the start would have been passed
            have start := (matches_of_matchAt? here).1
            have late := unpassed m (searchFrom?_of_matchAt? here)
            rw [Text.size_cons] at moved
            dsimp only at start moved
            omega
        · rfl
      have next : Cursor.Reads ⟨some x, offset + x.utf8Size, s ++ c'.rest⟩ s c' := by
        refine ⟨rfl, ?_, ?_⟩
        · rw [moved, Text.size_cons, Nat.add_assoc]
        · rw [reads.before, List.getLast?_cons]
          cases s.getLast? <;> rfl
      rw [goesOn] at unpassed ⊢
      exact ih next unpassed

/-- A match of a pattern at or behind an offset that no other match starts before. -/
structure FirstMatch (p : Pattern) (t : Text) (start : Nat) (m : Match) : Prop where
  found : p.FoundIn t m
  behind : start ≤ m.start
  first : ∀ c : Cursor, c.In t → start ≤ c.offset → c.offset < m.start → p.matchAt? c = none

theorem firstMatch_of_searchFrom? {p : Pattern} {t : Text} {c : Cursor} {m : Match}
    (inside : c.In t) (found : p.searchFrom? c = some m) : p.FirstMatch t c.offset m := by
  obtain ⟨there, behind⟩ := searchFrom?_sound inside found
  refine ⟨there, behind, ?_⟩
  intro c' inside' late before
  cases earlier : p.matchAt? c' with
  | none => rfl
  | some m' =>
      obtain ⟨s, reads⟩ := inside.reads_of_le inside' late
      have same : p.searchFrom? c' = p.searchFrom? c := by
        apply searchFrom?_of_reads reads
        intro m'' found'
        rw [found] at found'
        obtain rfl := Option.some.inj found'
        exact Nat.le_of_lt before
      rw [searchFrom?_of_matchAt? earlier, found] at same
      have start := (matches_of_matchAt? earlier).1
      rw [Option.some.inj same] at start
      omega

theorem matchAt?_eq_none_of_searchFrom? {p : Pattern} {t : Text} {c c' : Cursor} (inside : c.In t)
    (nowhere : p.searchFrom? c = none) (inside' : c'.In t) (late : c.offset ≤ c'.offset) :
    p.matchAt? c' = none := by
  obtain ⟨s, reads⟩ := inside.reads_of_le inside' late
  have same : p.searchFrom? c' = none := by
    rw [searchFrom?_of_reads reads (by simp [nowhere]), nowhere]
  cases there : p.matchAt? c' with
  | none => rfl
  | some m =>
      rw [searchFrom?_of_matchAt? there] at same
      cases same

/-- What is listed from a position on is the first match or is listed behind it. -/
theorem exists_first_of_mem_matchesFrom {p : Pattern} {fuel : Text} {c : Cursor} {m : Match}
    (listed : m ∈ p.matchesFrom fuel c) :
    ∃ first, p.searchFrom? c = some first ∧
      (m = first ∨ ∃ fuel', m ∈ p.matchesFrom fuel' first.resume) := by
  cases fuel with
  | nil =>
      rw [matchesFrom, Option.mem_toList] at listed
      exact ⟨m, listed, Or.inl rfl⟩
  | cons x fuel =>
      rw [matchesFrom] at listed
      split at listed
      · cases listed
      · next first found =>
          rcases List.mem_cons.1 listed with here | later
          · exact ⟨first, found, Or.inl here⟩
          · exact ⟨first, found, Or.inr ⟨fuel, later⟩⟩

/-- Of two matches in a list, the later one is listed from the end of the earlier one on. -/
theorem matchesFrom_pairwise_listed (p : Pattern) (fuel : Text) (c : Cursor) :
    (p.matchesFrom fuel c).Pairwise fun m m' => ∃ fuel', m' ∈ p.matchesFrom fuel' m.resume := by
  induction fuel generalizing c with
  | nil =>
      rw [matchesFrom]
      cases p.searchFrom? c with
      | none => exact .nil
      | some first => exact List.pairwise_singleton _ _
  | cons x fuel ih =>
      rw [matchesFrom]
      split
      · exact .nil
      · next first _ => exact List.pairwise_cons.2 ⟨fun m later => ⟨fuel, later⟩, ih first.resume⟩

end Pattern

theorem Match.resume_eq_after {m : Match} (moves : m.start < m.stop) : m.resume = m.after :=
  if_pos moves

/-! ### Scans -/

/-- Statements that cannot be taken for one another: each covers some text, and no opening statement
starts inside a closing one. -/
structure KeywordPair.Separated (pair : KeywordPair) : Prop where
  openerMoves : ∀ {c c' : Cursor} {m : Marks}, pair.opener.Matches c c' m → c.offset < c'.offset
  closerMoves : ∀ {c c' : Cursor} {m : Marks}, pair.closer.Matches c c' m → c.offset < c'.offset
  apart : ∀ {c c' d d' : Cursor} {m m' : Marks} {s : Text}, pair.closer.Matches c c' m →
    c.Reads s d → d.offset < c'.offset → ¬ pair.opener.Matches d d' m'

namespace KeywordPair.Separated

variable {pair : KeywordPair} {t : Text} {m m' : Match}

theorem start_lt_stop_of_opener (separated : pair.Separated) (found : pair.opener.FoundIn t m) :
    m.start < m.stop := by
  obtain ⟨c, _, start, whole⟩ := found.exists_matches
  rw [start]
  exact separated.openerMoves whole

theorem start_lt_stop_of_closer (separated : pair.Separated) (found : pair.closer.FoundIn t m) :
    m.start < m.stop := by
  obtain ⟨c, _, start, whole⟩ := found.exists_matches
  rw [start]
  exact separated.closerMoves whole

/-- An opening statement that does not start before a closing one starts behind it. -/
theorem stop_le_start (separated : pair.Separated) (closes : pair.closer.FoundIn t m)
    (opens : pair.opener.FoundIn t m') (notBefore : m.start ≤ m'.start) : m.stop ≤ m'.start := by
  obtain ⟨c, inside, start, whole⟩ := closes.exists_matches
  obtain ⟨d, inside', start', whole'⟩ := opens.exists_matches
  rw [start, start'] at notBefore
  obtain ⟨s, reads⟩ := inside.reads_of_le inside' notBefore
  rw [start']
  apply Nat.le_of_not_lt
  intro early
  exact separated.apart whole reads early whole'

/-- Passing a closing statement passes no opening one. -/
theorem searchFrom?_resume (separated : pair.Separated) {c : Cursor} (inside : c.In t)
    (closes : pair.next? c = some (.closing m)) :
    pair.opener.searchFrom? m.resume = pair.opener.searchFrom? c := by
  obtain ⟨closes, first⟩ := KeywordPair.next?_eq_closing.1 closes
  obtain ⟨found, behind⟩ := Pattern.searchFrom?_sound inside closes
  rw [Match.resume_eq_after (separated.start_lt_stop_of_closer found)]
  have forward : c.offset ≤ m.after.offset := Nat.le_trans behind found.start_le_stop
  obtain ⟨s, reads⟩ := inside.reads_of_le found.after_in forward
  apply Pattern.searchFrom?_of_reads reads
  intro opening opens
  exact separated.stop_le_start found (Pattern.searchFrom?_sound inside opens).1
    (first opening opens)

end KeywordPair.Separated

namespace KeywordScan

/-- One state of a scan leads to another one in any number of steps. -/
def Steps (pair : KeywordPair) : KeywordScan → KeywordScan → Prop :=
  Relation.ReflTransGen fun s s' => s.step pair = some s'

variable {pair : KeywordPair} {t : Text} {s s' final : KeywordScan} {m : Match}

/-- At least one statement is open all the time. -/
theorem Steps.depth_pos (steps : Steps pair s s') (positive : 1 ≤ s.depth) : 1 ≤ s'.depth := by
  induction steps with
  | refl => exact positive
  | tail _ step ih =>
      rcases step_cases step with ⟨m, _, rfl⟩ | ⟨m, _, deeper, rfl⟩
      · exact Nat.le_add_left 1 _
      · exact Nat.le_sub_one_of_lt deeper

theorem Steps.place_in (steps : Steps pair s s') (inside : s.place.In t) :
    s'.place.In t ∧ s.place.offset ≤ s'.place.offset := by
  induction steps with
  | refl => exact ⟨inside, Nat.le_refl _⟩
  | tail _ step ih =>
      obtain ⟨here, behind⟩ := step_in ih.1 step
      exact ⟨here, Nat.le_trans ih.2 behind⟩

/-- Every step passes some text. -/
theorem length_rest_of_step (separated : pair.Separated) (inside : s.place.In t)
    (stepped : s.step pair = some s') : s'.place.rest.length < s.place.rest.length := by
  have passes : ∀ {m : Match}, s.place.offset ≤ m.start → m.start < m.stop → m.after.In t →
      m.resume.rest.length < s.place.rest.length := by
    intro m behind moves after
    rw [Match.resume_eq_after moves]
    exact inside.length_rest_lt after (Nat.lt_of_le_of_lt behind moves)
  rcases step_cases stepped with ⟨m, opens, rfl⟩ | ⟨m, closes, _, rfl⟩
  · obtain ⟨found, behind⟩ :=
      Pattern.searchFrom?_sound inside (KeywordPair.next?_eq_opening.1 opens).1
    exact passes behind (separated.start_lt_stop_of_opener found) found.after_in
  · obtain ⟨found, behind⟩ :=
      Pattern.searchFrom?_sound inside (KeywordPair.next?_eq_closing.1 closes).1
    exact passes behind (separated.start_lt_stop_of_closer found) found.after_in

/-- A scan ends: it reaches a state without a next step, and gives what closes that state. -/
theorem exists_ended {fuel : Text} (separated : pair.Separated) (inside : s.place.In t)
    (enough : s.place.rest.length < fuel.length) :
    ∃ final, Steps pair s final ∧ final.step pair = none ∧
      s.run pair fuel = final.closing? pair := by
  induction fuel generalizing s with
  | nil => cases enough
  | cons x fuel ih =>
      rw [run]
      split
      · next s' stepped =>
          have shorter := length_rest_of_step separated inside stepped
          obtain ⟨final, steps, ended, result⟩ := ih (step_in inside stepped).1
            (Nat.lt_of_lt_of_le shorter (Nat.le_of_lt_succ enough))
          exact ⟨final, .head stepped steps, ended, result⟩
      · next ended => exact ⟨s, .refl, ended, rfl⟩

/-- A scan is over at last, and then a given statement closes it. -/
def EndsAt (pair : KeywordPair) (s : KeywordScan) (m : Match) : Prop :=
  ∃ final, Steps pair s final ∧ final.step pair = none ∧ final.closing? pair = some m

theorem EndsAt.of_step (ends : EndsAt pair s m) (stepped : s.step pair = some s') :
    EndsAt pair s' m := by
  obtain ⟨final, steps, ended, closes⟩ := ends
  rcases steps.cases_head with rfl | ⟨next, first, more⟩
  · rw [stepped] at ended
    cases ended
  · rw [stepped] at first
    obtain rfl := Option.some.inj first
    exact ⟨final, more, ended, closes⟩

theorem EndsAt.found (ends : EndsAt pair s m) (inside : s.place.In t) :
    pair.closer.FoundIn t m := by
  obtain ⟨final, steps, _, closes⟩ := ends
  exact (closing?_sound (steps.place_in inside).1 closes).1

theorem EndsAt.place_le (ends : EndsAt pair s m) (inside : s.place.In t) :
    s.place.offset ≤ m.start := by
  obtain ⟨final, steps, _, closes⟩ := ends
  obtain ⟨inside', behind⟩ := steps.place_in inside
  exact Nat.le_trans behind (closing?_sound inside' closes).2

/-- Of two scans from one place, the one with fewer open statements ends before the other one meets
its end. -/
theorem EndsAt.shallower_first {depth deeper : Nat} {c : Cursor} {m' : Match}
    (separated : pair.Separated) (inside : c.In t) (positive : 1 ≤ depth) (less : depth < deeper)
    (ends : EndsAt pair ⟨depth, c⟩ m) (ends' : EndsAt pair ⟨deeper, c⟩ m') :
    m.stop ≤ m'.start := by
  obtain ⟨final, steps, ended, closes⟩ := ends
  generalize state : (⟨depth, c⟩ : KeywordScan) = s at steps
  induction steps using Relation.ReflTransGen.head_induction_on generalizing depth deeper c with
  | refl =>
      -- the shallower scan is over here, the other one passes the statement
      subst state
      have next := closing?_eq_some_iff.1 closes
      have found := (closing?_sound inside closes).1
      have passes : step pair ⟨deeper, c⟩ = some ⟨deeper - 1, m.after⟩ := by
        rw [step, next]
        dsimp only
        rw [if_neg (by omega), Match.resume_eq_after (separated.start_lt_stop_of_closer found)]
      exact (ends'.of_step passes).place_le found.after_in
  | head stepped _ ih =>
      -- both scans meet the same statement
      subst state
      have inside' := (step_in inside stepped).1
      rcases step_cases stepped with ⟨o, opens, rfl⟩ | ⟨k, closed, more, rfl⟩
      · have deepens : step pair ⟨deeper, c⟩ = some ⟨deeper + 1, o.resume⟩ := by
          rw [step, opens]
        exact ih inside' (Nat.le_add_left 1 depth) (Nat.succ_lt_succ less) (ends'.of_step deepens)
          rfl
      · have rises : step pair ⟨deeper, c⟩ = some ⟨deeper - 1, k.resume⟩ := by
          rw [step, closed]
          dsimp only at more ⊢
          rw [if_neg (by omega)]
        dsimp only at more
        exact ih inside' (Nat.le_sub_one_of_lt more) (by omega) (ends'.of_step rises) rfl

/-- A scan meets every opening statement that is listed from its place on and starts before its end.
The statement is open from there on, and at least one other is. -/
theorem EndsAt.through_opening {fuel : Text} {c : Cursor} {o : Match} (separated : pair.Separated)
    (inside : s.place.In t) (positive : 1 ≤ s.depth) (ends : EndsAt pair s m)
    (alike : pair.opener.searchFrom? c = pair.opener.searchFrom? s.place)
    (listed : o ∈ pair.opener.matchesFrom fuel c) (before : o.start < m.start) :
    ∃ depth, 1 < depth ∧ EndsAt pair ⟨depth, o.after⟩ m := by
  obtain ⟨final, steps, ended, closes⟩ := ends
  induction steps using Relation.ReflTransGen.head_induction_on generalizing fuel c with
  | refl =>
      -- what is listed first starts at or behind the end, and so does what is listed later
      obtain ⟨first, found, listed⟩ := Pattern.exists_first_of_mem_matchesFrom listed
      rw [alike] at found
      have late := (KeywordPair.next?_eq_closing.1 (closing?_eq_some_iff.1 closes)).2 first found
      have behind : first.start ≤ o.start := by
        rcases listed with rfl | ⟨_, later⟩
        · exact Nat.le_refl _
        · have here := (Pattern.searchFrom?_sound inside found).1
          calc
            first.start ≤ first.stop := here.start_le_stop
            _ ≤ first.resume.offset := first.stop_le_resume
            _ ≤ o.start := Pattern.start_of_mem_matchesFrom here.resume_in later
      omega
  | @head s s' stepped more ih =>
      obtain ⟨inside', _⟩ := step_in inside stepped
      have positive' : 1 ≤ s'.depth := Steps.depth_pos (.single stepped) positive
      rcases step_cases stepped with ⟨first, opens, rfl⟩ | ⟨k, closed, _, rfl⟩
      · have found := (KeywordPair.next?_eq_opening.1 opens).1
        obtain ⟨first', found', listed⟩ := Pattern.exists_first_of_mem_matchesFrom listed
        obtain rfl : first = first' := by
          rw [alike, found] at found'
          exact Option.some.inj found'
        rcases listed with rfl | ⟨_, later⟩
        · have here := (Pattern.searchFrom?_sound inside found).1
          rw [Match.resume_eq_after (separated.start_lt_stop_of_opener here)] at more
          exact ⟨_, Nat.lt_add_of_pos_left positive, final, more, ended, closes⟩
        · exact ih inside' positive' rfl later
      · have same : pair.opener.searchFrom? k.resume = pair.opener.searchFrom? s.place :=
          separated.searchFrom?_resume inside closed
        exact ih inside' positive' (alike.trans same.symm) listed

end KeywordScan

/-! ### Blocks -/

/-- The block from one statement to another one. -/
def Block.between (t : Text) (opening closing : Match) : Block :=
  ⟨opening.start, opening.stop, closing.start, closing.stop, t.slice ⟨opening.stop, closing.start⟩⟩

namespace KeywordPair.Separated

open KeywordScan

variable {pair : KeywordPair} {t fuel : Text} {c : Cursor} {m m' e e' : Match} {b : Block}

/-- The block of the first opening statement from a position on is what a scan behind it finds, and
the scan comes to its end. -/
theorem exists_scan (separated : pair.Separated) (inside : c.In t)
    (opened : pair.opener.searchFrom? c = some m) :
    ∃ final, Steps pair ⟨1, m.after⟩ final ∧ final.step pair = none ∧
      Block.keyword? t c.offset pair = (final.closing? pair).map (Block.between t m) := by
  have found := (Pattern.searchFrom?_sound inside opened).1
  have short : m.after.rest.length < t.length := by
    apply (Cursor.in_ofText t).length_rest_lt found.after_in
    exact Nat.zero_lt_of_lt (separated.start_lt_stop_of_opener found)
  obtain ⟨final, steps, ended, result⟩ := exists_ended separated
    (s := ⟨1, m.after⟩) found.after_in short
  refine ⟨final, steps, ended, ?_⟩
  simp only [Block.keyword?, inside.ofOffset?, opened, result, Option.bind_eq_bind,
    Option.bind_some]
  cases closes : final.closing? pair with
  | none => rfl
  | some e =>
      obtain ⟨inside', behind⟩ := steps.place_in found.after_in
      obtain ⟨closer, late⟩ := closing?_sound inside' closes
      obtain ⟨c', inside', start, _⟩ := closer.exists_matches
      have cut : t.slice? ⟨m.stop, e.start⟩ = some (t.slice ⟨m.stop, e.start⟩) := by
        rw [start] at late ⊢
        exact found.after_in.slice?_eq_some_slice inside' (Nat.le_trans behind late)
      rw [Option.bind_some, cut]
      rfl

theorem endsAt_of_keyword? (separated : pair.Separated) (inside : c.In t)
    (found : Block.keyword? t c.offset pair = some b) :
    ∃ m e, pair.opener.searchFrom? c = some m ∧ EndsAt pair ⟨1, m.after⟩ e ∧
      b = Block.between t m e := by
  cases opened : pair.opener.searchFrom? c with
  | none => simp [Block.keyword?, inside.ofOffset?, opened] at found
  | some m =>
      obtain ⟨final, steps, ended, result⟩ := separated.exists_scan inside opened
      rw [found] at result
      obtain ⟨e, closes, made⟩ := Option.map_eq_some_iff.1 result.symm
      exact ⟨m, e, rfl, ⟨final, steps, ended, closes⟩, made.symm⟩

/-- The ends of a block are in order, and it opens with the first opening statement. -/
theorem keyword?_ordered (separated : pair.Separated) (inside : c.In t)
    (found : Block.keyword? t c.offset pair = some b) :
    c.offset ≤ b.opening ∧ b.opening < b.bodyStart ∧ b.bodyStart ≤ b.close ∧ b.close < b.stop ∧
      b.stop ≤ t.size ∧
      ∃ m, pair.opener.FirstMatch t c.offset m ∧ b.opening = m.start ∧ b.bodyStart = m.stop := by
  obtain ⟨m, e, opened, ends, rfl⟩ := separated.endsAt_of_keyword? inside found
  have first := Pattern.firstMatch_of_searchFrom? inside opened
  have closer := ends.found first.found.after_in
  refine ⟨first.behind, separated.start_lt_stop_of_opener first.found, ?_,
    separated.start_lt_stop_of_closer closer, closer.stop_le_size, m, first, rfl, rfl⟩
  exact ends.place_le first.found.after_in

/-- The block of a statement opens with that statement. -/
theorem endsAt_of_foundIn (separated : pair.Separated) (opens : pair.opener.FoundIn t m)
    (found : Block.keyword? t m.start pair = some b) :
    ∃ e, EndsAt pair ⟨1, m.after⟩ e ∧ b = Block.between t m e := by
  obtain ⟨c, inside, there⟩ := opens
  rw [(Pattern.matches_of_matchAt? there).1] at found
  obtain ⟨m', e, opened, ends, made⟩ := separated.endsAt_of_keyword? inside found
  rw [Pattern.searchFrom?_of_matchAt? there] at opened
  obtain rfl := Option.some.inj opened
  exact ⟨e, ends, made⟩

/-- Of two opening statements in a list, the block of the later one lies behind the block of the
earlier one or inside its body. -/
theorem behind_or_inside (separated : pair.Separated) (opens : pair.opener.FoundIn t m)
    (listed : m' ∈ pair.opener.matchesFrom fuel m.resume) (ends : EndsAt pair ⟨1, m.after⟩ e)
    (ends' : EndsAt pair ⟨1, m'.after⟩ e') :
    e.stop ≤ m'.start ∨ m.stop ≤ m'.start ∧ e'.stop ≤ e.start := by
  have opens' : pair.opener.FoundIn t m' := Pattern.matchesFrom_sound opens.resume_in listed
  rcases Nat.lt_or_ge m'.start e.start with before | behind
  · refine Or.inr ⟨?_, ?_⟩
    · calc
        m.stop ≤ m.resume.offset := m.stop_le_resume
        _ ≤ m'.start := Pattern.start_of_mem_matchesFrom opens.resume_in listed
    · rw [Match.resume_eq_after (separated.start_lt_stop_of_opener opens)] at listed
      obtain ⟨depth, deeper, through⟩ := ends.through_opening separated opens.after_in
        (Nat.le_refl 1) rfl listed before
      exact ends'.shallower_first separated opens'.after_in (Nat.le_refl 1) deeper through
  · have closer := ends.found opens.after_in
    exact Or.inl (separated.stop_le_start closer opens' behind)

end KeywordPair.Separated

end CallAtlas
