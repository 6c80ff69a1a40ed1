/-
Module: CallAtlas.Proofs.VisibleText
Purpose: What is visible in a view stands at the same offset of the text.  Lines are counted in
  bytes, words are the runs of visible characters, and a run that a mask leaves visible was there
  before.
Main definitions: Pattern.leadsVisible, Pattern.opensVisible
Main results: exists_dropped_ends, Text.lineAt_eq_count, Text.words_collapse,
  Text.squeeze_eq_filter, split_of_maskCharacters, Pattern.Matches.reads_visible,
  Pattern.Matches.opens_visible
-/
import Mathlib.Data.List.TakeWhile
import CallAtlas.Proofs.PatternShape
import CallAtlas.Text.Words

namespace CallAtlas

/-- What is left of a list whose ends are dropped as far as they satisfy `p`. -/
theorem exists_dropped_ends {α : Type} (p : α → Bool) (l : List α) :
    ∃ front kept back, ((l.dropWhile p).reverse.dropWhile p).reverse = kept ∧
      l = front ++ kept ++ back ∧
      (∀ x ∈ front, p x = true) ∧ (∀ x ∈ back, p x = true) ∧
      (∀ x, kept.head? = some x → p x = false) ∧ ∀ x, kept.getLast? = some x → p x = false := by
  have start : l.takeWhile p ++ l.dropWhile p = l := List.takeWhile_append_dropWhile
  have stop : ((l.dropWhile p).reverse.dropWhile p).reverse ++
      ((l.dropWhile p).reverse.takeWhile p).reverse = l.dropWhile p := by
    rw [← List.reverse_append, List.takeWhile_append_dropWhile, List.reverse_reverse]
  refine ⟨l.takeWhile p, _, ((l.dropWhile p).reverse.takeWhile p).reverse, rfl, ?_, ?_, ?_, ?_, ?_⟩
  · rw [List.append_assoc, stop, start]
  · intro x listed
    exact List.mem_takeWhile_imp listed
  · intro x listed
    exact List.mem_takeWhile_imp (List.mem_reverse.1 listed)
  · intro x first
    have atFront : (l.dropWhile p).head? = some x := by
      rw [← stop, List.head?_append, first, Option.some_or]
    have kept := List.head?_dropWhile_not p l
    rwa [atFront] at kept
  · intro x last
    rw [List.getLast?_reverse] at last
    have kept := List.head?_dropWhile_not p (l.dropWhile p).reverse
    rwa [last] at kept

namespace Text

/-! ### Lines -/

theorem newlinesBefore_eq_count (t : Text) (n : Nat) :
    newlinesBefore n t = ((Utf8.encode t).take n).count 0x0a := by
  induction t generalizing n with
  | nil => cases n <;> simp [newlinesBefore]
  | cons c t ih =>
      cases n with
      | zero => simp [newlinesBefore]
      | succ n =>
          rw [newlinesBefore, ih, Utf8.encode_cons, List.take_append, List.count_append,
            String.length_utf8EncodeChar]
          congr 1
          by_cases lineFeed : c = '\n'
          · subst lineFeed
            simp [String.utf8EncodeChar]
          · -- no other character has the byte of a line feed
            have absent : (0x0a : UInt8) ∉ (String.utf8EncodeChar c).take (n + 1) :=
              fun within => lineFeed (lineFeed_mem_utf8EncodeChar (List.mem_of_mem_take within))
            simp [lineFeed, List.count_eq_zero.2 absent]

theorem lineAt_eq_count (t : Text) (n : Nat) :
    t.lineAt n = 1 + ((Utf8.encode t).take n).count 0x0a := by
  rw [lineAt, newlinesBefore_eq_count, Nat.add_comm]

/-! ### Words -/

/-- Only the blanks at the end are trimmed there. -/
theorem trimEnd_append_blank {t w : Text} {x : Char} (visible : isBlank x = false)
    (blank : ∀ y ∈ w, isBlank y = true) : (t ++ x :: w).trimEnd = t ++ [x] := by
  have reversed : (t ++ x :: w).reverse = w.reverse ++ x :: t.reverse := by simp
  have dropped : ∀ y ∈ w.reverse, isBlank y = true := fun y listed =>
    blank y (List.mem_reverse.1 listed)
  rw [trimEnd, reversed, List.dropWhile_append_of_pos dropped,
    List.dropWhile_cons_of_neg (Bool.eq_false_iff.1 visible), List.reverse_cons,
    List.reverse_reverse]

theorem splitBy_ne_nil (p : Char → Bool) (t : Text) : splitBy p t ≠ [] := by
  cases t with
  | nil => simp [splitBy]
  | cons c t =>
      rw [splitBy]
      split
      · simp
      · split <;> simp

theorem splitBy_append (p : Char → Bool) {b : Char} (ends : p b = true) (s t : Text) :
    splitBy p (s ++ b :: t) = splitBy p s ++ splitBy p t := by
  induction s with
  | nil => simp [splitBy, ends]
  | cons c s ih =>
      rw [List.cons_append, splitBy, splitBy, ih]
      split
      · rfl
      · cases pieces : splitBy p s with
        | nil => exact absurd pieces (splitBy_ne_nil p s)
        | cons piece more => rfl

theorem splitBy_of_none {p : Char → Bool} {s : Text} (none : ∀ c ∈ s, p c = false) :
    splitBy p s = [s] := by
  induction s with
  | nil => rfl
  | cons c s ih =>
      rw [splitBy, ih fun x listed => none x (List.mem_cons_of_mem c listed)]
      simp [none c List.mem_cons_self]

theorem flatten_splitBy (p : Char → Bool) (t : Text) :
    (splitBy p t).flatten = t.filter fun c => !p c := by
  induction t with
  | nil => rfl
  | cons c t ih =>
      rw [splitBy, List.filter_cons, ← ih]
      split
      · next ends => simp [ends]
      · next goesOn =>
          cases pieces : splitBy p t with
          | nil => exact absurd pieces (splitBy_ne_nil p t)
          | cons piece more => simp [goesOn]

/-- Words end at a blank, and every word of a text is on one side of it. -/
theorem words_append_blank {b : Char} (blank : isBlank b = true) (s t : Text) :
    words (s ++ b :: t) = words s ++ words t := by
  rw [words, splitBy_append isBlank blank, List.filter_append]
  rfl

theorem words_of_visible {w : Text} (some : w ≠ []) (visible : ∀ c ∈ w, isBlank c = false) :
    words w = [w] := by
  simp [words, splitBy_of_none visible, some]

/-- A run of visible characters at the front of a text is its first word. -/
theorem words_append_of_visible {w s : Text} (some : w ≠ []) (visible : ∀ c ∈ w, isBlank c = false)
    (stops : ∀ c ∈ s.head?, isBlank c = true) : words (w ++ s) = w :: words s := by
  cases s with
  | nil =>
      rw [List.append_nil, words_of_visible some visible]
      rfl
  | cons b s =>
      have blank : isBlank b = true := stops b rfl
      have behind : words (b :: s) = words s := words_append_blank blank [] s
      rw [words_append_blank blank, words_of_visible some visible, behind]
      rfl

theorem exists_first_word {x : Char} {t : Text} (visible : isBlank x = false) :
    ∃ w s, t = w ++ s ∧ (∀ c ∈ w, isBlank c = false) ∧ words (x :: t) = (x :: w) :: words s := by
  have split := List.takeWhile_append_dropWhile (p := fun c => !isBlank c) (l := t)
  have shown : ∀ c ∈ t.takeWhile (fun c => !isBlank c), isBlank c = false := by
    intro c listed
    simpa using List.mem_takeWhile_imp listed
  have stops : ∀ c ∈ (t.dropWhile fun c => !isBlank c).head?, isBlank c = true := by
    intro c first
    have blank := List.head?_dropWhile_not (fun c => !isBlank c) t
    rw [Option.mem_def.1 first] at blank
    simpa using blank
  have all : ∀ c ∈ x :: t.takeWhile (fun c => !isBlank c), isBlank c = false := by
    intro c listed
    rcases List.mem_cons.1 listed with rfl | later
    · exact visible
    · exact shown c later
  refine ⟨_, _, split.symm, shown, ?_⟩
  rw [← words_append_of_visible (List.cons_ne_nil _ _) all stops, List.cons_append, split]

theorem mem_words {t w : Text} (listed : w ∈ words t) : w ≠ [] ∧ ∀ c ∈ w, isBlank c = false := by
  obtain ⟨piece, filled⟩ := List.mem_filter.1 listed
  refine ⟨by simpa using filled, ?_⟩
  intro c within
  have kept : c ∈ (splitBy isBlank t).flatten := List.mem_flatten.2 ⟨w, piece, within⟩
  rw [flatten_splitBy] at kept
  simpa using (List.mem_filter.1 kept).2

theorem words_join {pieces : List Text}
    (each : ∀ w ∈ pieces, w ≠ [] ∧ ∀ c ∈ w, isBlank c = false) :
    words (join [' '] pieces) = pieces := by
  induction pieces with
  | nil => rfl
  | cons w more ih =>
      obtain ⟨some, visible⟩ := each w List.mem_cons_self
      have rest := ih fun v listed => each v (List.mem_cons_of_mem w listed)
      cases more with
      | nil => exact words_of_visible some visible
      | cons v more =>
          have blank : isBlank ' ' = true := by decide
          have joined : join [' '] (w :: v :: more) = w ++ ' ' :: join [' '] (v :: more) := by
            simp [join]
          rw [joined, words_append_blank blank, words_of_visible some visible, rest]
          rfl

/-- To make every run of blanks one space changes no word. -/
theorem words_collapse (t : Text) : words t.collapse = words t :=
  words_join fun _ listed => mem_words listed

theorem squeeze_eq_filter (t : Text) : t.squeeze = t.filter fun c => !isBlank c := by
  have joined : ∀ pieces : List Text, join [] pieces = pieces.flatten := by
    intro pieces
    induction pieces with
    | nil => rfl
    | cons piece more ih =>
        cases more with
        | nil => simp [join]
        | cons next more => simp [join, ih]
  have filled : ∀ pieces : List Text,
      (pieces.filter fun piece => !piece.isEmpty).flatten = pieces.flatten := by
    intro pieces
    induction pieces with
    | nil => rfl
    | cons piece more ih => cases piece <;> simp [ih]
  rw [squeeze, joined, words, filled, flatten_splitBy]

end Text

/-! ### Visible pieces of a mask -/

variable {covered : Nat → Bool} {offset : Nat} {t piece s : Text}

theorem maskCharacters_starts (starts : maskCharacters covered offset t = piece ++ s)
    (kept : ∀ p x r, piece = p ++ x :: r →
      covered (offset + Text.size p) = false ∨ isBlank x = false) :
    ∃ s', t = piece ++ s' := by
  induction piece generalizing offset t with
  | nil => exact ⟨t, rfl⟩
  | cons x piece ih =>
      cases t with
      | nil => cases starts
      | cons c t =>
          rw [maskCharacters] at starts
          split at starts
          · -- a character that is hidden starts with a space
            next hidden =>
              exfalso
              obtain ⟨n, width⟩ : ∃ n, c.utf8Size = n + 1 :=
                ⟨c.utf8Size - 1, by have := c.utf8Size_pos; omega⟩
              rw [width, List.replicate_succ] at starts
              rcases kept [] x piece rfl with free | shown
              · rw [Text.size_nil, Nat.add_zero] at free
                simp [free] at hidden
              · exact ne_space_of_visible shown (congrArg some (List.cons.inj starts).1.symm)
          · obtain ⟨rfl, rest⟩ := List.cons.inj starts
            obtain ⟨s', rfl⟩ := ih rest fun p y r split => by
              have later := kept (c :: p) y r (by rw [split]; rfl)
              rwa [Text.size_cons, ← Nat.add_assoc] at later
            exact ⟨s', rfl⟩

/-- A piece of a masked text of which nothing is hidden stands at the same offset of the text, if it
begins with something visible. -/
theorem split_of_maskCharacters {p : Text} {x : Char}
    (split : maskCharacters covered offset t = p ++ (x :: piece ++ s)) (visible : isBlank x = false)
    (kept : ∀ q y r, piece = q ++ y :: r →
      covered (offset + (Text.size p + (x.utf8Size + Text.size q))) = false ∨ isBlank y = false) :
    ∃ p' s', t = p' ++ (x :: piece ++ s') ∧ Text.size p' = Text.size p := by
  have firm : (maskCharacters covered offset t).Firm p.size :=
    Text.VisibleAt.firm ⟨p, x, piece ++ s, split, rfl, visible⟩
  obtain ⟨p', r, rfl, width⟩ := isBoundary_of_firm firm
  rw [maskCharacters_append] at split
  obtain ⟨_, starts⟩ := Text.append_inj_of_size split (by simp [width])
  obtain ⟨s', rfl⟩ := maskCharacters_starts starts fun q y r within => by
    cases q with
    | nil =>
        obtain ⟨rfl, _⟩ := List.cons.inj within
        exact Or.inr visible
    | cons z q =>
        obtain ⟨rfl, rest⟩ := List.cons.inj within
        have later := kept q y r rest
        rwa [← Nat.add_assoc, ← width] at later
  exact ⟨p', s', rfl, width⟩

/-! ### Visible characters of a match -/

namespace Pattern

/-- Whether no match holds a blank.  A match that is not empty then begins with a visible
character. -/
def leadsVisible : Pattern → Bool
  | empty | here _ => true
  | one accepts => onlyVisible accepts
  | seq p q | either p q => p.leadsVisible && q.leadsVisible
  | many _ p | mark _ p => p.leadsVisible

/-- Whether every match begins with a character that is not blank, perhaps after parts that may be
empty. -/
def opensVisible : Pattern → Bool
  | empty | here _ | many _ _ => false
  | one accepts => onlyVisible accepts
  | seq p q => p.opensVisible || (p.leadsVisible && q.opensVisible)
  | either p q => p.opensVisible && q.opensVisible
  | mark _ p => p.opensVisible

theorem Matches.reads_visible {p : Pattern} {c c' : Cursor} {m : Marks} (found : p.Matches c c' m)
    (check : p.leadsVisible = true) : ∃ s, c.Reads s c' ∧ ∀ x ∈ s, isBlank x = false := by
  have joined : ∀ {c₁ c₂ c₃ : Cursor}, (∃ s, c₁.Reads s c₂ ∧ ∀ x ∈ s, isBlank x = false) →
      (∃ s, c₂.Reads s c₃ ∧ ∀ x ∈ s, isBlank x = false) →
      ∃ s, c₁.Reads s c₃ ∧ ∀ x ∈ s, isBlank x = false := by
    rintro c₁ c₂ c₃ ⟨s₁, first, shown₁⟩ ⟨s₂, second, shown₂⟩
    refine ⟨s₁ ++ s₂, first.trans second, ?_⟩
    intro x listed
    exact (List.mem_append.1 listed).elim (shown₁ x) (shown₂ x)
  induction found with
  | empty => exact ⟨[], .refl _, by simp⟩
  | one accepted =>
      refine ⟨_, .single .., ?_⟩
      intro x listed
      rw [List.mem_singleton.1 listed]
      exact visible_of_onlyVisible check accepted
  | here _ => exact ⟨[], .refl _, by simp⟩
  | seq _ _ ih₁ ih₂ =>
      simp only [leadsVisible, Bool.and_eq_true] at check
      exact joined (ih₁ check.1) (ih₂ check.2)
  | first _ ih =>
      simp only [leadsVisible, Bool.and_eq_true] at check
      exact ih check.1
  | second _ ih =>
      simp only [leadsVisible, Bool.and_eq_true] at check
      exact ih check.2
  | done => exact ⟨[], .refl _, by simp⟩
  | round _ _ ih₁ ih₂ => exact joined (ih₁ check) (ih₂ check)
  | mark _ ih => exact ih check

theorem Matches.opens_visible {p : Pattern} {c c' : Cursor} {m : Marks} (found : p.Matches c c' m)
    (check : p.opensVisible = true) : ∃ x s, c.Reads (x :: s) c' ∧ isBlank x = false := by
  induction found with
  | empty => cases check
  | one accepted => exact ⟨_, [], .single .., visible_of_onlyVisible check accepted⟩
  | here _ => cases check
  | seq first second ih₁ ih₂ =>
      simp only [opensVisible, Bool.or_eq_true, Bool.and_eq_true] at check
      rcases check with opens | ⟨leads, opens⟩
      · obtain ⟨x, s, reads, visible⟩ := ih₁ opens
        obtain ⟨s', more⟩ := second.reads
        exact ⟨x, s ++ s', reads.trans more, visible⟩
      · obtain ⟨s', before, shown⟩ := first.reads_visible leads
        obtain ⟨x, s, reads, visible⟩ := ih₂ opens
        cases s' with
        | nil => exact ⟨x, s, before.trans reads, visible⟩
        | cons y s' => exact ⟨y, s' ++ x :: s, before.trans reads, shown y List.mem_cons_self⟩
  | first _ ih =>
      simp only [opensVisible, Bool.and_eq_true] at check
      exact ih check.1
  | second _ ih =>
      simp only [opensVisible, Bool.and_eq_true] at check
      exact ih check.2
  | done => cases check
  | round _ _ _ _ => cases check
  | mark _ ih => exact ih check

end Pattern

end CallAtlas
