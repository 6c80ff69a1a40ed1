/-
Module: CallAtlas.Proofs.BlockPlaces
Purpose: Where blocks and statements begin and end.  Blocks are found by counting delimiters or by
  searching for statements; whatever was counted, their ends are positions of the text in order, and
  each of them has a delimiter on one side.
Main definitions: Block.StandsIn
Main results: Block.braced?_standsIn, KeywordScan.step_cases, Block.keyword?_standsIn,
  statementEndFrom_firm
-/
import CallAtlas.Block.Braces
import CallAtlas.Block.Keywords
import CallAtlas.Proofs.PatternShape

namespace CallAtlas

/-- The ends of a block and of its body are positions of a text, in order. -/
structure Block.StandsIn (t : Text) (b : Block) : Prop where
  bodyStart : t.Firm b.bodyStart
  close : t.Firm b.close
  stop : t.Firm b.stop
  opens : b.opening ≤ b.bodyStart
  holds : b.bodyStart ≤ b.close
  closes : b.close ≤ b.stop

theorem Block.StandsIn.stop_le_size {t : Text} {b : Block} (stands : b.StandsIn t) :
    b.stop ≤ t.size := stands.stop.isBoundary.le_size

/-! ### Blocks between characters -/

theorem openingFrom?_spec {opening : Char} {start offset n : Nat} {t inner : Text}
    (found : openingFrom? opening start offset t = some (n, inner)) :
    ∃ p, t = p ++ opening :: inner ∧ n = offset + Text.size p ∧ start ≤ n := by
  induction t generalizing offset with
  | nil => cases found
  | cons c t ih =>
      rw [openingFrom?] at found
      split at found
      · next here =>
          simp only [Bool.and_eq_true, decide_eq_true_eq, beq_iff_eq] at here
          obtain ⟨late, rfl⟩ := here
          obtain ⟨rfl, rfl⟩ := Prod.mk.inj (Option.some.inj found)
          exact ⟨[], rfl, rfl, late⟩
      · obtain ⟨p, rfl, place, late⟩ := ih found
        exact ⟨c :: p, rfl, by rw [place, Text.size_cons, Nat.add_assoc], late⟩

theorem closingFrom?_spec {opening closing : Char} {depth offset n : Nat} {t : Text}
    (found : closingFrom? opening closing depth offset t = some n) :
    ∃ q s, t = q ++ closing :: s ∧ n = offset + Text.size q := by
  induction t generalizing depth offset with
  | nil => cases found
  | cons c t ih =>
      have further : ∀ {depth},
          closingFrom? opening closing depth (offset + c.utf8Size) t = some n →
          ∃ q s, c :: t = q ++ closing :: s ∧ n = offset + Text.size q := by
        intro depth found
        obtain ⟨q, s, rfl, place⟩ := ih found
        exact ⟨c :: q, s, rfl, by rw [place, Text.size_cons, Nat.add_assoc]⟩
      rw [closingFrom?] at found
      split at found
      · exact further found
      · split at found
        · next here =>
            split at found
            · obtain rfl := Option.some.inj found
              obtain rfl := beq_iff_eq.1 here
              exact ⟨[], t, rfl, rfl⟩
            · exact further found
        · exact further found

/-- A block is an opening character, a body and a closing character of the text. -/
theorem Block.braced?_spec {t : Text} {start : Nat} {opening closing : Char} {b : Block}
    (found : Block.braced? t start opening closing = some b) :
    ∃ p q s, t = p ++ opening :: (q ++ closing :: s) ∧ start ≤ Text.size p ∧
      b.opening = Text.size p ∧ b.bodyStart = b.opening + opening.utf8Size ∧
      b.close = b.bodyStart + Text.size q ∧ b.stop = b.close + closing.utf8Size ∧ b.body = q := by
  simp only [Block.braced?, Option.bind_eq_bind, Option.bind_eq_some_iff] at found
  obtain ⟨⟨openAt, inner⟩, opened, close, closed, body, cut, made⟩ := found
  obtain ⟨p, rfl, rfl, late⟩ := openingFrom?_spec opened
  obtain ⟨q, s, rfl, rfl⟩ := closingFrom?_spec closed
  rw [Nat.add_sub_cancel_left, Text.upTo?_append, Option.some.injEq] at cut
  obtain rfl := Option.some.inj made
  refine ⟨p, q, s, rfl, ?_, ?_, rfl, rfl, rfl, cut.symm⟩
  · rwa [Nat.zero_add] at late
  · exact Nat.zero_add _

theorem Block.braced?_standsIn {t : Text} {start : Nat} {opening closing : Char} {b : Block}
    (found : Block.braced? t start opening closing = some b) (opens : opening ≠ ' ')
    (closes : closing ≠ ' ') : b.StandsIn t ∧ start ≤ b.opening := by
  obtain ⟨p, q, s, rfl, late, atOpening, atBody, atClose, atStop, _⟩ := Block.braced?_spec found
  refine ⟨⟨?_, ?_, ?_, by omega, by omega, by omega⟩, by omega⟩
  · refine ⟨p ++ [opening], q ++ closing :: s, by simp, by simp [atBody, atOpening], Or.inl ?_⟩
    simpa using opens
  · refine ⟨p ++ opening :: q, closing :: s, by simp, ?_, Or.inr (by simpa using closes)⟩
    simp [atClose, atBody, atOpening, Nat.add_assoc]
  · refine ⟨p ++ opening :: (q ++ [closing]), s, by simp, ?_, Or.inl ?_⟩
    · simp [atStop, atClose, atBody, atOpening, Nat.add_assoc]
    · simpa [List.getLast?_append, List.getLast?_cons] using closes

/-! ### Ends of statements -/

/-- No blank is a bracket. -/
theorem no_bracket_of_isBlank {c : Char} (blank : isBlank c = true) :
    isOpening c = false ∧ isClosing c = false := by
  have differs : ∀ x, isBlank x = false → c ≠ x := by
    rintro x visible rfl
    exact Bool.false_ne_true (visible.symm.trans blank)
  constructor
  · simp [isOpening, differs '(' rfl, differs '[' rfl, differs '{' rfl]
  · simp [isClosing, differs ')' rfl, differs ']' rfl, differs '}' rfl]

theorem statementEndFrom_spec (lineEnds : Bool) (depth offset : Nat) (t : Text) :
    ∃ q s, t = q ++ s ∧ statementEndFrom lineEnds depth offset t = offset + Text.size q ∧
      (s.head? ≠ some ' ' ∨ q.getLast? = some ';') := by
  induction t generalizing depth offset with
  | nil => exact ⟨[], [], rfl, rfl, Or.inl (by simp)⟩
  | cons c t ih =>
      have further : ∀ depth, ∃ q s, c :: t = q ++ s ∧
          statementEndFrom lineEnds depth (offset + c.utf8Size) t = offset + Text.size q ∧
          (s.head? ≠ some ' ' ∨ q.getLast? = some ';') := by
        intro depth
        obtain ⟨q, s, rfl, place, side⟩ := ih depth (offset + c.utf8Size)
        refine ⟨c :: q, s, rfl, by rw [place, Text.size_cons, Nat.add_assoc], ?_⟩
        rcases side with side | last
        · exact Or.inl side
        · exact Or.inr (by rw [List.getLast?_cons, last]; rfl)
      rw [statementEndFrom]
      split
      · exact further _
      · split
        · next closes =>
            split
            · -- the bracket around the statement ends it
              refine ⟨[], c :: t, rfl, rfl, Or.inl ?_⟩
              rintro ⟨rfl⟩
              simp [isClosing] at closes
            · exact further _
        · split
          · next ends =>
              simp only [Bool.and_eq_true, beq_iff_eq] at ends
              obtain ⟨rfl, _⟩ := ends
              exact ⟨[';'], t, rfl, rfl, Or.inr rfl⟩
          · split
            · next ends =>
                simp only [Bool.and_eq_true, beq_iff_eq] at ends
                obtain ⟨⟨_, rfl⟩, _⟩ := ends
                exact ⟨[], '\n' :: t, rfl, rfl, Or.inl (by simp)⟩
            · exact further _

/-- A statement ends at or behind its start, at a position with something visible or the end of a
line or of the text on one side. -/
theorem statementEndFrom_firm {t : Text} {start : Nat} (lineEnds : Bool) (depth : Nat)
    (boundary : t.IsBoundary start) :
    t.Firm (statementEndFrom lineEnds depth start (t.rest start)) ∧
      start ≤ statementEndFrom lineEnds depth start (t.rest start) := by
  obtain ⟨p, r, rfl, rfl⟩ := boundary
  rw [Text.rest_append]
  obtain ⟨q, s, rfl, place, side⟩ := statementEndFrom_spec lineEnds depth (Text.size p) r
  rw [place]
  refine ⟨⟨p ++ q, s, by simp, by simp, ?_⟩, Nat.le_add_right _ _⟩
  rcases side with side | last
  · exact Or.inr side
  · refine Or.inl ?_
    rw [List.getLast?_append, last]
    simp

/-! ### Blocks between statements -/

/-- A search goes on at or behind the position where the last one began. -/
theorem Pattern.resume_of_searchFrom? {p : Pattern} {t : Text} {c : Cursor} {m : Match}
    (inside : c.In t) (found : p.searchFrom? c = some m) :
    m.resume.In t ∧ c.offset ≤ m.resume.offset := by
  obtain ⟨there, late⟩ := Pattern.searchFrom?_sound inside found
  refine ⟨there.resume_in, ?_⟩
  have ordered : m.start ≤ m.after.offset := there.start_le_stop
  rw [Match.resume]
  split
  · exact Nat.le_trans late ordered
  · obtain ⟨s, reads⟩ := m.after.reads_advance
    exact Nat.le_trans late (Nat.le_trans ordered reads.le)

/-- What comes next is the first opening or the first closing statement, whichever is first. -/
theorem KeywordPair.next?_eq_opening {pair : KeywordPair} {c : Cursor} {m : Match} :
    pair.next? c = some (.opening m) ↔
      pair.opener.searchFrom? c = some m ∧
        ∃ closing, pair.closer.searchFrom? c = some closing ∧ m.start < closing.start := by
  unfold KeywordPair.next?
  cases pair.closer.searchFrom? c with
  | none => simp
  | some closing =>
      cases pair.opener.searchFrom? c with
      | none => simp
      | some opening =>
          dsimp only
          split
          · next before =>
              simp only [Option.some.injEq, BlockBound.opening.injEq, exists_eq_left']
              constructor
              · rintro rfl
                exact ⟨rfl, before⟩
              · exact fun both => both.1
          · next behind =>
              simp only [Option.some.injEq, reduceCtorEq, exists_eq_left', false_iff, not_and]
              rintro rfl
              exact behind

theorem KeywordPair.next?_eq_closing {pair : KeywordPair} {c : Cursor} {m : Match} :
    pair.next? c = some (.closing m) ↔
      pair.closer.searchFrom? c = some m ∧
        ∀ opening, pair.opener.searchFrom? c = some opening → m.start ≤ opening.start := by
  unfold KeywordPair.next?
  cases pair.closer.searchFrom? c with
  | none => simp
  | some closing =>
      cases pair.opener.searchFrom? c with
      | none => simp
      | some opening =>
          dsimp only
          split
          · next before =>
              simp only [Option.some.injEq, reduceCtorEq, forall_eq', false_iff, not_and]
              rintro rfl
              exact Nat.not_le.2 before
          · next behind =>
              simp only [Option.some.injEq, BlockBound.closing.injEq, forall_eq', iff_self_and]
              rintro rfl
              exact Nat.not_lt.1 behind

namespace KeywordScan

variable {pair : KeywordPair} {s s' : KeywordScan} {m : Match}

/-- A step opens one more statement or closes one that is not the last. -/
theorem step_cases (stepped : s.step pair = some s') :
    (∃ m, pair.next? s.place = some (.opening m) ∧ s' = ⟨s.depth + 1, m.resume⟩) ∨
      ∃ m, pair.next? s.place = some (.closing m) ∧ 1 < s.depth ∧
        s' = ⟨s.depth - 1, m.resume⟩ := by
  unfold step at stepped
  split at stepped
  · cases stepped
  · next m opens => exact Or.inl ⟨m, opens, (Option.some.inj stepped).symm⟩
  · next m closes =>
      split at stepped
      · cases stepped
      · next deeper =>
          exact Or.inr ⟨m, closes, Nat.lt_of_not_le deeper, (Option.some.inj stepped).symm⟩

theorem closing?_eq_some_iff :
    s.closing? pair = some m ↔ pair.next? s.place = some (.closing m) := by
  unfold closing?
  split
  · next closes => simp [closes]
  · next other =>
      simp only [reduceCtorEq, false_iff]
      exact fun closes => other m closes

theorem closing?_sound {t : Text} (inside : s.place.In t) (found : s.closing? pair = some m) :
    pair.closer.FoundIn t m ∧ s.place.offset ≤ m.start :=
  Pattern.searchFrom?_sound inside (KeywordPair.next?_eq_closing.1 (closing?_eq_some_iff.1 found)).1

/-- A step stays in the text and does not go back. -/
theorem step_in {t : Text} (inside : s.place.In t) (stepped : s.step pair = some s') :
    s'.place.In t ∧ s.place.offset ≤ s'.place.offset := by
  rcases step_cases stepped with ⟨m, opens, rfl⟩ | ⟨m, closes, _, rfl⟩
  · exact Pattern.resume_of_searchFrom? inside (KeywordPair.next?_eq_opening.1 opens).1
  · exact Pattern.resume_of_searchFrom? inside (KeywordPair.next?_eq_closing.1 closes).1

theorem run_sound {t fuel : Text} (inside : s.place.In t) (found : s.run pair fuel = some m) :
    pair.closer.FoundIn t m ∧ s.place.offset ≤ m.start := by
  induction fuel generalizing s with
  | nil => cases found
  | cons x fuel ih =>
      rw [run] at found
      split at found
      · next s' stepped =>
          obtain ⟨inside', behind⟩ := step_in inside stepped
          obtain ⟨closes, late⟩ := ih inside' found
          exact ⟨closes, Nat.le_trans behind late⟩
      · exact closing?_sound inside found

end KeywordScan

/-- The block of an opening statement that was found: the body starts where the statement ends. -/
theorem Block.keyword?_standsIn {t : Text} {pair : KeywordPair} {header : Pattern} {m : Match}
    {b : Block} (opened : header.FoundIn t m) (alike : header.unmarked = pair.opener.unmarked)
    (found : Block.keyword? t m.start pair = some b) (stopVisible : header.endsVisible = true)
    (closerFirm : pair.closer.startsFirm = true) (closerVisible : pair.closer.endsVisible = true) :
    b.StandsIn t ∧ b.bodyStart = m.stop := by
  obtain ⟨c, inside, there⟩ := opened
  have start : m.start = c.offset := (Pattern.matches_of_matchAt? there).1
  simp only [Block.keyword?, Option.bind_eq_bind, Option.bind_eq_some_iff] at found
  obtain ⟨c', seeked, opening, searched, closing, closed, body, _, made⟩ := found
  obtain rfl : c = c' := by
    rw [start, inside.ofOffset?] at seeked
    exact Option.some.inj seeked
  -- the opening statement is the one that the header has found
  obtain ⟨opening', there', sameStart, sameAfter⟩ := Pattern.matchAt?_unmarked alike there
  obtain rfl : opening' = opening := by
    rw [Pattern.searchFrom?_of_matchAt? there'] at searched
    exact Option.some.inj searched
  have found : header.FoundIn t m := ⟨c, inside, there⟩
  have sameStop : opening'.stop = m.stop := congrArg Cursor.offset sameAfter
  rw [sameAfter] at closed
  obtain ⟨closes, late⟩ := KeywordScan.run_sound found.after_in closed
  have ordered := found.start_le_stop
  obtain rfl := Option.some.inj made
  refine ⟨⟨?_, ?_, ?_, ?_, ?_, ?_⟩, sameStop⟩
  · exact sameStop ▸ (found.stop_visibleBefore stopVisible).firm
  · exact closes.start_firm closerFirm
  · exact (closes.stop_visibleBefore closerVisible).firm
  · dsimp only
    omega
  · exact sameStop ▸ late
  · exact closes.start_le_stop

end CallAtlas
