/-
Module: CallAtlas.Proofs.PatternShape
Purpose: What can be read off a pattern about the ends of its matches.  The checks are computed on
  the pattern alone, so a table of patterns is checked once; that they are right is shown against
  the relation `Matches`, so they hold of whatever a search finds.
Main definitions: blanks, Pattern.silent, Pattern.startsVisible, Pattern.endsVisible,
  Pattern.startsFirm, Text.VisibleAt, Text.VisibleBefore
Main results: Pattern.FoundIn.start_visibleAt, Pattern.FoundIn.stop_visibleBefore,
  Pattern.FoundIn.start_firm
-/
import CallAtlas.Pattern.Vocabulary
import CallAtlas.Proofs.ViewAlignment

namespace CallAtlas

/-! ### Blanks -/

/-- The code points that are blank. -/
def blankCodes : List Nat :=
  [0x20, 0x09, 0x0a, 0x0b, 0x0c, 0x0d, 0x85, 0xa0, 0x1680, 0x2000, 0x2001, 0x2002, 0x2003, 0x2004,
    0x2005, 0x2006, 0x2007, 0x2008, 0x2009, 0x200a, 0x2028, 0x2029, 0x202f, 0x205f, 0x3000]

/-- The blank characters. -/
def blanks : List Char := blankCodes.map Char.ofNat

theorem mem_blanks {c : Char} (blank : isBlank c = true) : c ∈ blanks := by
  have code : c.toNat ∈ blankCodes := by
    simp only [isBlank, inRanges, wideBlankRanges, List.any_cons, List.any_nil] at blank
    simp only [blankCodes, List.mem_cons, List.not_mem_nil, or_false]
    split at blank <;> simp only [Bool.or_eq_true, Bool.and_eq_true, decide_eq_true_eq, beq_iff_eq,
      Bool.or_false] at blank <;> omega
  exact List.mem_map.2 ⟨c.toNat, code, Char.ofNat_toNat c⟩

theorem ne_space_of_visible {x : Char} (visible : isBlank x = false) : some x ≠ some ' ' := by
  rintro ⟨rfl⟩
  have blank : isBlank ' ' = true := by decide
  rw [blank] at visible
  cases visible

namespace Text

/-- A position right before a character that is not blank. -/
def VisibleAt (t : Text) (n : Nat) : Prop :=
  ∃ p x s, t = p ++ x :: s ∧ size p = n ∧ isBlank x = false

/-- A position right behind a character that is not blank. -/
def VisibleBefore (t : Text) (n : Nat) : Prop :=
  ∃ p x s, t = p ++ x :: s ∧ size p + x.utf8Size = n ∧ isBlank x = false

variable {t : Text} {n : Nat}

theorem VisibleAt.lt_size (visible : t.VisibleAt n) : n < t.size := by
  obtain ⟨p, x, s, rfl, rfl, _⟩ := visible
  have positive := x.utf8Size_pos
  rw [size_append, size_cons]
  omega

theorem VisibleAt.firm (visible : t.VisibleAt n) : t.Firm n := by
  obtain ⟨p, x, s, split, size, shown⟩ := visible
  exact ⟨p, x :: s, split, size, Or.inr (ne_space_of_visible shown)⟩

theorem VisibleBefore.pos (visible : t.VisibleBefore n) : 0 < n := by
  obtain ⟨_, x, _, _, rfl, _⟩ := visible
  have positive := x.utf8Size_pos
  omega

theorem VisibleBefore.firm (visible : t.VisibleBefore n) : t.Firm n := by
  obtain ⟨p, x, s, rfl, rfl, shown⟩ := visible
  refine ⟨p ++ [x], s, by simp, by simp, Or.inl ?_⟩
  rw [List.getLast?_concat]
  exact ne_space_of_visible shown

theorem VisibleAt.append_left (front : Text) (visible : t.VisibleAt n) :
    VisibleAt (front ++ t) (size front + n) := by
  obtain ⟨p, x, s, rfl, rfl, shown⟩ := visible
  exact ⟨front ++ p, x, s, by simp, by simp, shown⟩

theorem VisibleBefore.append_left (front : Text) (visible : t.VisibleBefore n) :
    VisibleBefore (front ++ t) (size front + n) := by
  obtain ⟨p, x, s, rfl, rfl, shown⟩ := visible
  exact ⟨front ++ p, x, s, by simp, by simp [Nat.add_assoc], shown⟩

end Text

namespace Pattern

/-! ### Checks -/

/-- Whether a test admits no blank. -/
def onlyVisible (accepts : Char → Bool) : Bool := blanks.all fun c => !accepts c

theorem visible_of_onlyVisible {accepts : Char → Bool} {x : Char}
    (only : onlyVisible accepts = true) (accepted : accepts x = true) : isBlank x = false := by
  cases blank : isBlank x with
  | false => rfl
  | true =>
      have refused := List.all_eq_true.1 only x (mem_blanks blank)
      rw [accepted] at refused
      cases refused

/-- Whether a pattern matches the empty text only. -/
def silent : Pattern → Bool
  | empty | here _ => true
  | one _ | many _ _ => false
  | seq p q | either p q => p.silent && q.silent
  | mark _ p => p.silent

/-- Whether every match begins with a character that is not blank. -/
def startsVisible : Pattern → Bool
  | empty | here _ | many _ _ => false
  | one accepts => onlyVisible accepts
  | seq p q => p.startsVisible || (p.silent && q.startsVisible)
  | either p q => p.startsVisible && q.startsVisible
  | mark _ p => p.startsVisible

/-- Whether every match ends with a character that is not blank. -/
def endsVisible : Pattern → Bool
  | empty | here _ | many _ _ => false
  | one accepts => onlyVisible accepts
  | seq p q => q.endsVisible || (q.silent && p.endsVisible)
  | either p q => p.endsVisible && q.endsVisible
  | mark _ p => p.endsVisible

/-- Whether no match starts between two spaces. -/
def startsFirm : Pattern → Bool
  | empty | many _ _ => false
  | one accepts => !accepts ' '
  | here holds => !holds (some ' ') (some ' ')
  | seq p q => p.startsFirm || (p.silent && q.startsFirm)
  | either p q => p.startsFirm && q.startsFirm
  | mark _ p => p.startsFirm

/-! ### The checks are right -/

theorem Matches.eq_of_silent {p : Pattern} {c c' : Cursor} {m : Marks} (found : p.Matches c c' m)
    (isSilent : p.silent = true) : c' = c := by
  induction found with
  | empty => rfl
  | one _ => cases isSilent
  | here _ => rfl
  | seq _ _ ih₁ ih₂ =>
      simp only [silent, Bool.and_eq_true] at isSilent
      rw [ih₂ isSilent.2, ih₁ isSilent.1]
  | first _ ih =>
      simp only [silent, Bool.and_eq_true] at isSilent
      exact ih isSilent.1
  | second _ ih =>
      simp only [silent, Bool.and_eq_true] at isSilent
      exact ih isSilent.2
  | done => cases isSilent
  | round _ _ _ _ => cases isSilent
  | mark _ ih => exact ih isSilent

theorem Matches.starts_visible {p : Pattern} {c c' : Cursor} {m : Marks}
    (found : p.Matches c c' m) (check : p.startsVisible = true) :
    ∃ x s, c.Reads (x :: s) c' ∧ isBlank x = false := by
  induction found with
  | empty => cases check
  | one accepted => exact ⟨_, [], .single .., visible_of_onlyVisible check accepted⟩
  | here _ => cases check
  | seq first second ih₁ ih₂ =>
      simp only [startsVisible, Bool.or_eq_true, Bool.and_eq_true] at check
      rcases check with start | ⟨stays, start⟩
      · obtain ⟨x, s, reads, visible⟩ := ih₁ start
        obtain ⟨s', more⟩ := second.reads
        exact ⟨x, s ++ s', reads.trans more, visible⟩
      · -- the first part stays where it is
        obtain rfl := first.eq_of_silent stays
        exact ih₂ start
  | first _ ih =>
      simp only [startsVisible, Bool.and_eq_true] at check
      exact ih check.1
  | second _ ih =>
      simp only [startsVisible, Bool.and_eq_true] at check
      exact ih check.2
  | done => cases check
  | round _ _ _ _ => cases check
  | mark _ ih => exact ih check

theorem Matches.ends_visible {p : Pattern} {c c' : Cursor} {m : Marks}
    (found : p.Matches c c' m) (check : p.endsVisible = true) :
    ∃ s x, c.Reads (s ++ [x]) c' ∧ isBlank x = false := by
  induction found with
  | empty => cases check
  | one accepted => exact ⟨[], _, .single .., visible_of_onlyVisible check accepted⟩
  | here _ => cases check
  | seq first second ih₁ ih₂ =>
      simp only [endsVisible, Bool.or_eq_true, Bool.and_eq_true] at check
      rcases check with stop | ⟨stays, stop⟩
      · obtain ⟨s, x, reads, visible⟩ := ih₂ stop
        obtain ⟨s', before⟩ := first.reads
        refine ⟨s' ++ s, x, ?_, visible⟩
        rw [List.append_assoc]
        exact before.trans reads
      · obtain rfl := second.eq_of_silent stays
        exact ih₁ stop
  | first _ ih =>
      simp only [endsVisible, Bool.and_eq_true] at check
      exact ih check.1
  | second _ ih =>
      simp only [endsVisible, Bool.and_eq_true] at check
      exact ih check.2
  | done => cases check
  | round _ _ _ _ => cases check
  | mark _ ih => exact ih check

theorem Matches.starts_firm {p : Pattern} {c c' : Cursor} {m : Marks} (found : p.Matches c c' m)
    (check : p.startsFirm = true) : c.before ≠ some ' ' ∨ c.rest.head? ≠ some ' ' := by
  induction found with
  | empty => cases check
  | @one accepts before offset x t accepted =>
      refine Or.inr ?_
      rintro ⟨rfl⟩
      simp [startsFirm, accepted] at check
  | @here holds c held =>
      by_cases left : c.before = some ' '
      · refine Or.inr ?_
        intro right
        rw [left, right] at held
        simp [startsFirm, held] at check
      · exact Or.inl left
  | seq first second ih₁ ih₂ =>
      simp only [startsFirm, Bool.or_eq_true, Bool.and_eq_true] at check
      rcases check with start | ⟨stays, start⟩
      · exact ih₁ start
      · obtain rfl := first.eq_of_silent stays
        exact ih₂ start
  | first _ ih =>
      simp only [startsFirm, Bool.and_eq_true] at check
      exact ih check.1
  | second _ ih =>
      simp only [startsFirm, Bool.and_eq_true] at check
      exact ih check.2
  | done => cases check
  | round _ _ _ _ => cases check
  | mark _ ih => exact ih check

end Pattern

/-! ### Ends of matches in a text -/

theorem Cursor.In.firm {t : Text} {c : Cursor} (inside : c.In t)
    (side : c.before ≠ some ' ' ∨ c.rest.head? ≠ some ' ') : t.Firm c.offset := by
  obtain ⟨p, split, offset, before⟩ := inside.split
  rw [before] at side
  exact ⟨p, c.rest, split, offset.symm, side⟩

namespace Pattern

variable {p : Pattern} {t : Text} {c c' : Cursor} {m : Marks}

theorem Matches.start_visibleAt (found : p.Matches c c' m) (inside : c.In t)
    (check : p.startsVisible = true) : t.VisibleAt c.offset := by
  obtain ⟨x, s, reads, visible⟩ := found.starts_visible check
  obtain ⟨front, split, offset, _⟩ := inside.split
  exact ⟨front, x, s ++ c'.rest, by rw [split, reads.rest]; rfl, offset.symm, visible⟩

theorem Matches.stop_visibleBefore (found : p.Matches c c' m) (inside : c.In t)
    (check : p.endsVisible = true) : t.VisibleBefore c'.offset := by
  obtain ⟨s, x, reads, visible⟩ := found.ends_visible check
  obtain ⟨front, split, offset, _⟩ := inside.split
  refine ⟨front ++ s, x, c'.rest, by rw [split, reads.rest]; simp, ?_, visible⟩
  rw [reads.offset, offset]
  simp [Nat.add_assoc]

variable {m : Match}

theorem FoundIn.start_visibleAt (found : p.FoundIn t m) (check : p.startsVisible = true) :
    t.VisibleAt m.start := by
  obtain ⟨c, inside, start, whole⟩ := found.exists_matches
  rw [start]
  exact whole.start_visibleAt inside check

theorem FoundIn.stop_visibleBefore (found : p.FoundIn t m) (check : p.endsVisible = true) :
    t.VisibleBefore m.stop := by
  obtain ⟨c, inside, _, whole⟩ := found.exists_matches
  exact whole.stop_visibleBefore inside check

theorem FoundIn.start_firm (found : p.FoundIn t m) (check : p.startsFirm = true) :
    t.Firm m.start := by
  obtain ⟨c, inside, start, whole⟩ := found.exists_matches
  rw [start]
  exact inside.firm (whole.starts_firm check)

end Pattern

end CallAtlas
