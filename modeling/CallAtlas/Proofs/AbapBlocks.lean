/-
Module: CallAtlas.Proofs.AbapBlocks
Purpose: The blocks of ABAP.  An opening statement starts a line with a word of its own, and a
  closing one is a word, blanks and a full stop.  A line that starts inside a closing statement
  starts among its blanks, and the first thing to be seen there is the full stop, which starts no
  word.
Main definitions: Pattern.OpensLine, Grammar.keywordPairs
Main results: AbapForms.closing_reads, AbapForms.separated_of_words, Grammar.separated_of_abap,
  abap_blocks_nest
-/
import Mathlib.Data.List.Forall2
import CallAtlas.Grammar.Abap
import CallAtlas.Proofs.PatternCompleteness

namespace CallAtlas

/-- The first character of a text that is not blank. -/
def Text.firstVisible? (t : Text) : Option Char := t.find? fun x => !isBlank x

theorem Text.firstVisible?_append {pad t : Text} {x : Char} (blank : ∀ y ∈ pad, isBlank y = true)
    (visible : isBlank x = false) : firstVisible? (pad ++ x :: t) = some x := by
  induction pad with
  | nil => exact List.find?_cons_of_pos (by simp [visible])
  | cons y pad ih =>
      have first : isBlank y = true := blank y List.mem_cons_self
      rw [firstVisible?, List.cons_append, List.find?_cons_of_neg (by simp [first])]
      exact ih fun z listed => blank z (List.mem_cons_of_mem y listed)

namespace Pattern

variable {c c' : Cursor} {m : Marks}

/-! ### Words and blanks -/

/-- Whether a character stands for one of a literal text, ASCII letters in either case. -/
def fits (letter x : Char) : Bool := if letter.isAlpha then sameLetter letter x else x == letter

theorem Matches.reads_noCase {word : String} (found : (noCase word).Matches c c' m) :
    ∃ w, c.Reads w c' ∧ List.Forall₂ (fun letter x => fits letter x = true) word.toList w := by
  rw [noCase] at found
  generalize word.toList = letters at found
  induction letters generalizing c m with
  | nil =>
      cases found with
      | empty => exact ⟨[], .refl _, .nil⟩
  | cons letter letters ih =>
      cases found with
      | seq first second =>
          obtain ⟨w, reads, fit⟩ := ih second
          dsimp only at first
          split at first
          · next isLetter =>
              cases first with
              | one accepted =>
                  exact ⟨_ :: w, (Cursor.Reads.single ..).trans reads,
                    .cons (by rw [fits, if_pos isLetter, accepted]) fit⟩
          · next other =>
              cases first with
              | one accepted =>
                  exact ⟨_ :: w, (Cursor.Reads.single ..).trans reads,
                    .cons (by rw [fits, if_neg other]; exact accepted) fit⟩

theorem exists_first_fits {letters w : Text} {letter : Char}
    (fit : List.Forall₂ (fun letter x => fits letter x = true) letters w)
    (starts : letters.head? = some letter) : ∃ x s, w = x :: s ∧ fits letter x = true := by
  cases fit with
  | nil => cases starts
  | @cons _ x _ s first _ =>
      obtain rfl := Option.some.inj starts
      exact ⟨x, s, rfl, first⟩

theorem visible_of_fits {letters w : Text}
    (fit : List.Forall₂ (fun letter x => fits letter x = true) letters w)
    (visible : letters.all (fun l => onlyVisible (fits l)) = true) :
    ∀ x ∈ w, isBlank x = false := by
  induction fit with
  | nil => simp
  | cons first _ ih =>
      rw [List.all_cons, Bool.and_eq_true] at visible
      intro y listed
      rcases List.mem_cons.1 listed with rfl | later
      · exact visible_of_onlyVisible visible.1 first
      · exact ih visible.2 y later

/-! ### Openings of a line -/

/-- Every match begins where a line does and has, behind blanks, a visible character of a kind. -/
structure OpensLine (p : Pattern) (accepts : Char → Bool) : Prop where
  startsLine : p.StartsLine
  shows : ∀ {c c' : Cursor} {m : Marks}, p.Matches c c' m → ∃ pad x s, c.Reads (pad ++ x :: s) c' ∧
    (∀ y ∈ pad, isBlank y = true) ∧ isBlank x = false ∧ accepts x = true

theorem OpensLine.append {p : Pattern} {accepts : Char → Bool} (opens : p.OpensLine accepts)
    (q : Pattern) : (p ++ q).OpensLine accepts where
  startsLine := opens.startsLine.append q
  shows := by
    intro c c' m found
    cases found with
    | seq first second =>
        obtain ⟨pad, x, s, reads, blank, rest⟩ := opens.shows first
        obtain ⟨s', more⟩ := second.reads
        refine ⟨pad, x, s ++ s', ?_, blank, rest⟩
        rw [← List.cons_append, ← List.append_assoc]
        exact reads.trans more

/-- A word at the start of a line, perhaps behind spaces and tabs. -/
theorem opensLine_word (word : String) (letter : Char)
    (starts : word.toList.head? = some letter := by rfl)
    (visible : onlyVisible (fits letter) = true := by decide) :
    (indent ++ noCase word).OpensLine (fits letter) where
  startsLine := (startsLine_lineStart.append _).append _
  shows := by
    intro c c' m found
    cases found with
    | seq first second =>
        cases first with
        | seq atStart padded =>
            cases atStart with
            | here _ =>
                obtain ⟨pad, readsPad, accepted⟩ := (Denotes.manyOne _ _).sound padded
                obtain ⟨w, readsWord, fit⟩ := second.reads_noCase
                obtain ⟨x, s, rfl, fits⟩ := exists_first_fits fit starts
                refine ⟨pad, x, s, readsPad.trans readsWord, ?_,
                  visible_of_onlyVisible visible fits, fits⟩
                intro y listed
                have space : y = ' ' ∨ y = '\t' := by simpa using accepted y listed
                rcases space with rfl | rfl <;> decide

theorem OpensLine.offset_lt {p : Pattern} {accepts : Char → Bool} (opens : p.OpensLine accepts)
    (found : p.Matches c c' m) : c.offset < c'.offset := by
  obtain ⟨pad, x, s, reads, _⟩ := opens.shows found
  have positive := x.utf8Size_pos
  rw [reads.offset, Text.size_append, Text.size_cons]
  omega

end Pattern

namespace AbapForms

open Pattern

variable {c c' d : Cursor} {m : Marks} {keyword : String}

/-! ### Closing statements -/

/-- A closing statement is a word, blanks and a full stop. -/
theorem closing_reads (found : (closing keyword).Matches c c' m) :
    ∃ w g, c.Reads (w ++ g ++ ['.']) c' ∧
      List.Forall₂ (fun letter x => fits letter x = true) keyword.toList w ∧
      ∀ x ∈ g, isBlank x = true := by
  cases found with
  | seq front back =>
      cases front with
      | seq atWord word =>
          cases atWord with
          | here _ =>
              cases back with
              | seq blanks stop =>
                  obtain ⟨w, readsWord, fit⟩ := word.reads_noCase
                  obtain ⟨g, readsGap, blank⟩ := (Denotes.manyOne _ _).sound blanks
                  refine ⟨w, g, (readsWord.trans readsGap).trans ?_, fit, blank⟩
                  cases stop with
                  | @one _ before offset x t isStop =>
                      obtain rfl : x = '.' := by simpa using isStop
                      exact .single before offset '.' t

theorem offset_lt_of_closing (found : (closing keyword).Matches c c' m) : c.offset < c'.offset := by
  obtain ⟨w, g, reads, _⟩ := closing_reads found
  rw [reads.offset, Text.size_append]
  exact Nat.lt_add_of_pos_right (Nat.add_pos_right _ (by decide))

/-- A position inside a closing statement parts its word and blanks. -/
theorem exists_left_of_closing {w g s : Text} (whole : c.Reads (w ++ g ++ ['.']) c')
    (reads : c.Reads s d) (within : d.offset < c'.offset) :
    ∃ u, w ++ g = s ++ u ∧ d.rest = u ++ '.' :: c'.rest := by
  have both : s ++ d.rest = w ++ g ++ '.' :: c'.rest := by
    rw [← reads.rest, whole.rest, List.append_assoc (w ++ g)]
    rfl
  rw [reads.offset, whole.offset] at within
  rcases List.append_eq_append_iff.1 both with ⟨u, joined, rest⟩ | ⟨u, rfl, rest⟩
  · exact ⟨u, joined, rest⟩
  · cases u with
    | nil => exact ⟨[], by simp, rest.symm⟩
    | cons x u =>
        obtain ⟨rfl, _⟩ := List.cons.inj rest
        simp only [Text.size_append, Text.size_cons, Text.size_nil] at within
        omega

/-- Where a line starts inside a closing statement, the first visible character is the first letter
of the word or the full stop. -/
theorem firstVisible?_in_closing {first : Char} {s : Text}
    (found : (closing keyword).Matches c c' m) (starts : keyword.toList.head? = some first)
    (visible : keyword.toList.all (fun l => onlyVisible (fits l)) = true)
    (reads : c.Reads s d) (within : d.offset < c'.offset)
    (lineStart : d.before = none ∨ d.before = some '\n') :
    ∃ x, Text.firstVisible? d.rest = some x ∧ (fits first x = true ∨ x = '.') := by
  obtain ⟨w, g, whole, fit, blank⟩ := closing_reads found
  obtain ⟨u, joined, rest⟩ := exists_left_of_closing whole reads within
  have shown := visible_of_fits fit visible
  rw [rest]
  cases s with
  | nil =>
      obtain ⟨x, w, rfl, fits⟩ := exists_first_fits fit starts
      refine ⟨x, ?_, Or.inl fits⟩
      rw [List.nil_append] at joined
      rw [← joined]
      have none : ∀ y ∈ ([] : Text), isBlank y = true := by simp
      exact Text.firstVisible?_append none (shown x List.mem_cons_self)
  | cons y s =>
      -- the line feed before the position is none of the word, so the word has been passed
      have feed : '\n' ∈ y :: s := by
        have before := reads.before
        rw [List.getLast?_eq_some_getLast (List.cons_ne_nil y s), Option.some_or] at before
        rw [before] at lineStart
        rcases lineStart with start | afterFeed
        · cases start
        · rw [← Option.some.inj afterFeed]
          exact List.getLast_mem _
      rcases List.append_eq_append_iff.1 joined with ⟨v, _, left⟩ | ⟨v, passed, _⟩
      · refine ⟨'.', ?_, Or.inr rfl⟩
        apply Text.firstVisible?_append
        · intro x listed
          exact blank x (left ▸ List.mem_append_right v listed)
        · decide
      · have shownFeed := shown '\n' (passed ▸ List.mem_append_left v feed)
        exact absurd shownFeed (by decide)

/-! ### Opening statements -/

theorem toLower_of_fits {letter x : Char} (isLetter : letter.isAlpha = true)
    (plain : letter.toLower ≠ 's' ∧ letter.toLower ≠ 'k') (fit : fits letter x = true) :
    x.toLower = letter.toLower := by
  simpa [fits, isLetter, sameLetter, plain] using fit

/-- A statement that starts a line with a word and a closing statement cannot be taken for one
another, if their words have different first letters. -/
theorem separated_of_words {opener : Pattern} {letter : Char}
    (opens : opener.OpensLine (fits letter)) (isLetter : letter.isAlpha = true := by decide)
    (other : letter.toLower ∉ ['e', 's', 'k', '.'] := by decide)
    (starts : keyword.toList.head? = some 'E' := by rfl)
    (visible : keyword.toList.all (fun l => onlyVisible (fits l)) = true := by decide) :
    KeywordPair.Separated ⟨opener, closing keyword⟩ where
  openerMoves := opens.offset_lt
  closerMoves := offset_lt_of_closing
  apart := by
    intro c c' d d' m m' s closes reads within opened
    obtain ⟨x, seen, kind⟩ := firstVisible?_in_closing closes starts visible reads within
      (opens.startsLine d d' m' opened)
    obtain ⟨pad, x', s', readsOpener, blank, shown, fit⟩ := opens.shows opened
    obtain rfl : x = x' := by
      rw [readsOpener.rest, List.append_assoc, List.cons_append,
        Text.firstVisible?_append blank shown] at seen
      exact (Option.some.inj seen).symm
    simp only [List.mem_cons, List.not_mem_nil, or_false, not_or] at other
    obtain ⟨notE, notS, notK, notStop⟩ := other
    have lower := toLower_of_fits isLetter ⟨notS, notK⟩ fit
    rcases kind with closerFit | rfl
    · have lowerE : x.toLower = 'e' := toLower_of_fits (by decide) (by decide) closerFit
      exact notE (lower.symm.trans lowerE)
    · exact notStop lower.symm

end AbapForms

/-! ### The tables -/

/-- The statements around a body, if there are any. -/
def BodyForm.pair? : BodyForm → Option KeywordPair
  | keywords pair => some pair
  | braces | upTo _ => none

/-- The statements around a construct, if there are any. -/
def ConstructForm.pair? : ConstructForm → Option KeywordPair
  | keywords _ pair _ _ => some pair
  | ifElse .. | loop .. | doWhile _ | tryCatch _ | switch .. => none

/-- All pairs of statements of a grammar. -/
def Grammar.keywordPairs (g : Grammar) : List KeywordPair :=
  g.containers.filterMap (·.body.pair?) ++ g.declarations.filterMap (·.body.pair?) ++
    g.constructs.filterMap (·.pair?)

open AbapForms in
theorem Grammar.keywordPairs_abap : Grammar.abap.keywordPairs =
    [classPair, methodPair, formPair, functionPair, modulePair, ifPair, casePair, loopPair, doPair,
      whilePair, tryPair] := rfl

open Pattern AbapForms in
theorem Grammar.separated_of_abap {pair : KeywordPair} (listed : pair ∈ Grammar.abap.keywordPairs) :
    pair.Separated := by
  rw [keywordPairs_abap] at listed
  simp only [List.mem_cons, List.not_mem_nil, or_false] at listed
  rcases listed with rfl | rfl | rfl | rfl | rfl | rfl | rfl | rfl | rfl | rfl | rfl
  · exact separated_of_words
      (opensLine_word "CLASS" 'C' |>.append _ |>.append _ |>.append _ |>.append _ |>.append _)
  · exact separated_of_words (opensLine_word "METHOD" 'M' |>.append _ |>.append _ |>.append _)
  · exact separated_of_words
      (opensLine_word "FORM" 'F' |>.append _ |>.append _ |>.append _ |>.append _)
  · exact separated_of_words (opensLine_word "FUNCTION" 'F' |>.append _ |>.append _ |>.append _)
  · exact separated_of_words
      (opensLine_word "MODULE" 'M' |>.append _ |>.append _ |>.append _ |>.append _)
  · exact separated_of_words (opensLine_word "IF" 'I' |>.append _ |>.append _ |>.append _)
  · exact separated_of_words (opensLine_word "CASE" 'C' |>.append _ |>.append _ |>.append _)
  · exact separated_of_words
      (opensLine_word "LOOP" 'L' |>.append _ |>.append _ |>.append _ |>.append _ |>.append _)
  · exact separated_of_words (opensLine_word "DO" 'D' |>.append _ |>.append _)
  · exact separated_of_words (opensLine_word "WHILE" 'W' |>.append _ |>.append _ |>.append _)
  · exact separated_of_words (opensLine_word "TRY" 'T' |>.append _)

open KeywordScan in
/-- For every pair of statements and every text, a scan for the end of a block comes to an end, with
at least one statement open all the time.  A block opens with the first opening statement from its
start on, and its ends are in order.  Of two opening statements in the list of all, each opens its
own block, and the later block lies behind the earlier one or inside its body. -/
theorem abap_blocks_nest (t : Text) (pair : KeywordPair)
    (listed : pair ∈ Grammar.abap.keywordPairs) :
    (∀ start, t.IsBoundary start →
      (Block.keyword? t start pair = none ∧
        ∀ c : Cursor, c.In t → start ≤ c.offset → pair.opener.matchAt? c = none) ∨
      ∃ m final, pair.opener.FirstMatch t start m ∧ Steps pair ⟨1, m.after⟩ final ∧
        final.step pair = none ∧ (∀ s, Steps pair ⟨1, m.after⟩ s → 1 ≤ s.depth) ∧
        Block.keyword? t start pair = (final.closing? pair).map (Block.between t m)) ∧
    (∀ start b, t.IsBoundary start → Block.keyword? t start pair = some b →
      start ≤ b.opening ∧ b.opening < b.bodyStart ∧ b.bodyStart ≤ b.close ∧ b.close < b.stop ∧
      b.stop ≤ t.size ∧
      ∃ m, pair.opener.FirstMatch t start m ∧ b.opening = m.start ∧ b.bodyStart = m.stop) ∧
    (∀ m ∈ pair.opener.findAll t, ∀ b, Block.keyword? t m.start pair = some b →
      b.opening = m.start ∧ b.bodyStart = m.stop) ∧
    (pair.opener.findAll t).Pairwise fun m m' => ∀ b b',
      Block.keyword? t m.start pair = some b → Block.keyword? t m'.start pair = some b' →
      b.stop ≤ b'.opening ∨ b.bodyStart ≤ b'.opening ∧ b'.stop ≤ b.close := by
  have separated := Grammar.separated_of_abap listed
  refine ⟨?_, ?_, ?_, ?_⟩
  · intro start boundary
    obtain ⟨c, inside, rfl⟩ := Cursor.exists_in_of_isBoundary boundary
    cases opened : pair.opener.searchFrom? c with
    | none =>
        refine Or.inl ⟨?_, ?_⟩
        · simp [Block.keyword?, inside.ofOffset?, opened]
        · intro c' inside' late
          exact Pattern.matchAt?_eq_none_of_searchFrom? inside opened inside' late
    | some m =>
        obtain ⟨final, steps, ended, result⟩ := separated.exists_scan inside opened
        refine Or.inr ⟨m, final, Pattern.firstMatch_of_searchFrom? inside opened, steps, ended, ?_,
          result⟩
        intro s steps
        exact steps.depth_pos (Nat.le_refl 1)
  · intro start b boundary found
    obtain ⟨c, inside, rfl⟩ := Cursor.exists_in_of_isBoundary boundary
    exact separated.keyword?_ordered inside found
  · intro m inList b found
    obtain ⟨e, _, rfl⟩ := separated.endsAt_of_foundIn (Pattern.mem_findAll inList) found
    exact ⟨rfl, rfl⟩
  · have inOrder := Pattern.matchesFrom_pairwise_listed pair.opener t (.ofText t)
    refine inOrder.imp_of_mem ?_
    rintro m m' inList inList' ⟨fuel, later⟩ b b' found found'
    have opens := Pattern.mem_findAll inList
    obtain ⟨e, ends, rfl⟩ := separated.endsAt_of_foundIn opens found
    obtain ⟨e', ends', rfl⟩ := separated.endsAt_of_foundIn (Pattern.mem_findAll inList') found'
    exact separated.behind_or_inside opens later ends ends'

/-- The third opening statement runs over a closing one. -/
def branchingText : Text := "IF a.\n if b.\n ENDIF .\nENDIF.\nIF c\nENDIF.\nENDIF.".toList

theorem abap_blocks_nest_branches :
    AbapForms.ifPair ∈ Grammar.abap.keywordPairs ∧
      (AbapForms.ifPair.opener.findAll branchingText).map
          (fun m => (Block.keyword? branchingText m.start AbapForms.ifPair).map
            fun b => (b.opening, b.bodyStart, b.close, b.stop)) =
        [some (0, 5, 22, 28), some (6, 12, 14, 21), some (29, 40, 41, 47)] ∧
      (AbapForms.ifPair.opener.findAll branchingText).Pairwise fun m m' => ∀ b b',
        Block.keyword? branchingText m.start AbapForms.ifPair = some b →
        Block.keyword? branchingText m'.start AbapForms.ifPair = some b' →
        b.stop ≤ b'.opening ∨ b.bodyStart ≤ b'.opening ∧ b'.stop ≤ b.close := by
  have listed : AbapForms.ifPair ∈ Grammar.abap.keywordPairs := by
    simp [Grammar.keywordPairs_abap]
  refine ⟨listed, by decide +kernel, ?_⟩
  exact (abap_blocks_nest branchingText AbapForms.ifPair listed).2.2.2

end CallAtlas
