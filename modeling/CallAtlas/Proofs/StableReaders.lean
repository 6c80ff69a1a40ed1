/-
Module: CallAtlas.Proofs.StableReaders
Purpose: Readers that are not misled when comments and strings of a text are blanked.  Blanking
  opens nothing: what is read in the blanked text could be read before.  And what a reader has
  read, it reads again when the text behind it is blanked.
Main definitions: Blanked, Reader.Stable, Reader.Lexeme
Main results: Reader.Lexeme.opens, Reader.Lexeme.orElse, stable_restOfLine, stable_throughFirst,
  stable_throughQuote, stable_throughDoubled
-/
import Mathlib.Data.List.TakeWhile
import CallAtlas.Proofs.PatternReaders
import CallAtlas.Proofs.PatternShape

namespace CallAtlas

/-! ### Blanked texts -/

/-- What stands in a view for a hidden character. -/
def blankOf (x : Char) : Text := if x = '\n' then ['\n'] else List.replicate x.utf8Size ' '

/-- What stands in a view for a hidden text. -/
def Text.blanks (t : Text) : Text := t.flatMap blankOf

@[simp] theorem Text.blanks_cons (x : Char) (t : Text) :
    Text.blanks (x :: t) = blankOf x ++ Text.blanks t := List.flatMap_cons

/-- A text beside the same text with some of its characters hidden.  A hidden backslash does not
stand before a visible character, for a reader that no longer sees it would take that character
for another; the flag says that the character before is such a backslash. -/
inductive Blanked : Bool → Text → Text → Prop where
  | done {after : Bool} : Blanked after [] []
  | kept {after : Bool} {x : Char} {t t' : Text} (free : after = true → x = '\n')
      (rest : Blanked false t t') : Blanked after (x :: t) (x :: t')
  | hidden {after : Bool} {x : Char} {t t' : Text} (rest : Blanked (x == '\\') t t') :
      Blanked after (x :: t) (blankOf x ++ t')

/-- A line feed stays, and anything else becomes spaces. -/
theorem blankOf_cases (x : Char) :
    x = '\n' ∧ blankOf x = ['\n'] ∨
      x ≠ '\n' ∧ ∃ n, blankOf x = ' ' :: List.replicate n ' ' := by
  by_cases lineFeed : x = '\n'
  · exact Or.inl ⟨lineFeed, if_pos lineFeed⟩
  · obtain ⟨n, width⟩ : ∃ n, x.utf8Size = n + 1 :=
      ⟨x.utf8Size - 1, by have := x.utf8Size_pos; omega⟩
    exact Or.inr ⟨lineFeed, n, by rw [blankOf, if_neg lineFeed, width, List.replicate_succ]⟩

theorem isBlank_of_mem_blankOf {x y : Char} (listed : y ∈ blankOf x) : isBlank y = true := by
  rcases blankOf_cases x with ⟨_, blank⟩ | ⟨_, n, blank⟩ <;> rw [blank] at listed
  · rw [List.mem_singleton.1 listed]
    decide
  · rw [← List.replicate_succ] at listed
    rw [List.eq_of_mem_replicate listed]
    decide

theorem ne_of_isBlank {x y : Char} (visible : isBlank y = false) (blank : isBlank x = true) :
    x ≠ y := by
  rintro rfl
  rw [blank] at visible
  cases visible

namespace Blanked

variable {after : Bool} {x : Char} {s t t' w : Text}

theorem loosen (blanked : Blanked after t t') : Blanked false t t' := by
  cases blanked with
  | done => exact .done
  | kept _ rest => exact .kept (by simp) rest
  | hidden rest => exact .hidden rest

theorem tighten (blanked : Blanked false t t') (ends : ∀ x ∈ t.head?, x = '\n') :
    Blanked after t t' := by
  cases blanked with
  | done => exact .done
  | kept _ rest => exact .kept (fun _ => ends _ rfl) rest
  | hidden rest => exact .hidden rest

theorem append_left (w : Text) (blanked : Blanked false t t') :
    Blanked false (w ++ t) (w ++ t') := by
  induction w with
  | nil => exact blanked
  | cons x w ih => exact .kept (by simp) ih

/-- A front may be hidden as a whole, unless it would part a backslash from what it escapes. -/
theorem hide (x : Char) (w : Text) (blanked : Blanked false t t')
    (apart : (x :: w).getLast? = some '\\' → ∀ y ∈ t.head?, y = '\n') :
    Blanked after (x :: w ++ t) (Text.blanks (x :: w) ++ t') := by
  induction w generalizing x after with
  | nil =>
      rw [Text.blanks_cons, List.append_assoc]
      apply Blanked.hidden
      by_cases backslash : x = '\\'
      · exact blanked.tighten (apart (by rw [backslash]; rfl))
      · rw [beq_eq_false_iff_ne.2 backslash]
        exact blanked
  | cons y w ih =>
      rw [Text.blanks_cons, List.append_assoc]
      exact .hidden (ih y (by simpa using apart))

/-- What is visible in the blanked text was there before. -/
theorem of_visible (blanked : Blanked after t (s ++ t')) (visible : ∀ x ∈ s, isBlank x = false) :
    ∃ r, t = s ++ r ∧ Blanked false r t' := by
  induction s generalizing after t with
  | nil => exact ⟨t, rfl, blanked.loosen⟩
  | cons x s ih =>
      rw [List.cons_append] at blanked
      generalize whole : x :: (s ++ t') = text at blanked
      cases blanked with
      | done => cases whole
      | kept _ rest =>
          obtain ⟨rfl, rfl⟩ := List.cons.inj whole
          obtain ⟨r, rfl, later⟩ := ih rest fun y listed => visible y (List.mem_cons_of_mem _ listed)
          exact ⟨r, rfl, later⟩
      | @hidden _ z t t'' rest =>
          exfalso
          have listed : x ∈ blankOf z := by
            rcases blankOf_cases z with ⟨_, blank⟩ | ⟨_, n, blank⟩ <;> rw [blank] at whole ⊢ <;>
              rw [(List.cons.inj whole).1] <;> exact List.mem_cons_self
          exact ne_of_isBlank (visible x List.mem_cons_self) (isBlank_of_mem_blankOf listed) rfl

theorem nil_left (blanked : Blanked after [] t') : t' = [] := by
  cases blanked
  rfl

theorem lineFeed_left (blanked : Blanked after ('\n' :: t) t') : ∃ s, t' = '\n' :: s := by
  cases blanked with
  | kept _ rest => exact ⟨_, rfl⟩
  | hidden rest => exact ⟨_, rfl⟩

end Blanked

/-! ### Stable readers -/

/-- Whether a position with this character before it is at the start of a line. -/
def startsLine (before : Option Char) : Bool := before.isNone || before == some '\n'

/-- Whether a text can open or close a lexeme: nothing in it is blank, and nothing escapes. -/
def isDelimiter (s : Text) : Bool := s.all fun y => !isBlank y && y != '\\'

theorem visible_of_isDelimiter {s : Text} (delimits : isDelimiter s = true) :
    ∀ y ∈ s, isBlank y = false ∧ y ≠ '\\' := by
  intro y listed
  have passed := List.all_eq_true.1 delimits y listed
  simpa using passed

namespace Reader

/-- Blanking a text does not mislead the reader. -/
structure Stable (f : Reader) : Prop where
  /-- What is found in the blanked text could be found before. -/
  found {b b' : Option Char} {t t' : Text} : startsLine b = startsLine b' → Blanked false t t' →
    (f b' t').isSome = true → (f b t).isSome = true
  /-- What is read is a front of the text, and is read again when the text behind it is blanked.  It
  does not part a backslash from what that escapes. -/
  reads {b : Option Char} {t w : Text} : f b t = some w → ∃ r, t = w ++ r ∧
    (w.getLast? = some '\\' → ∀ y ∈ r.head?, y = '\n') ∧
    ∀ b' r', startsLine b = startsLine b' → Blanked false r r' → f b' (w ++ r') = some w

/-- A stable reader of something that begins with a visible character. -/
structure Lexeme (f : Reader) : Prop extends Stable f where
  starts {b : Option Char} {t w : Text} : f b t = some w → ∃ x v, w = x :: v ∧ isBlank x = false

variable {f g : Reader} {b b' : Option Char} {t t' w : Text}

theorem Stable.none_of_blanked (stable : f.Stable) (same : startsLine b = startsLine b')
    (blanked : Blanked false t t') (unread : f b t = none) : f b' t' = none := by
  cases reads : f b' t' with
  | none => rfl
  | some w =>
      have before := stable.found same blanked (by rw [reads]; rfl)
      rw [unread] at before
      cases before

theorem Stable.orElse (first : f.Stable) (second : g.Stable) : (f.orElse g).Stable where
  found same blanked := by
    simp only [Reader.orElse, Option.isSome_or, Bool.or_eq_true]
    exact Or.imp (first.found same blanked) (second.found same blanked)
  reads := by
    intro b t w reads
    rw [Reader.orElse, Option.or_eq_some_iff] at reads
    rcases reads with reads | ⟨unread, reads⟩
    · obtain ⟨r, split, apart, again⟩ := first.reads reads
      refine ⟨r, split, apart, fun b' r' same blanked => ?_⟩
      rw [Reader.orElse, again b' r' same blanked, Option.some_or]
    · obtain ⟨r, rfl, apart, again⟩ := second.reads reads
      refine ⟨r, rfl, apart, fun b' r' same blanked => ?_⟩
      rw [Reader.orElse, first.none_of_blanked same (blanked.append_left w) unread,
        again b' r' same blanked, Option.none_or]

theorem Lexeme.orElse (first : f.Lexeme) (second : g.Lexeme) : (f.orElse g).Lexeme where
  toStable := first.toStable.orElse second.toStable
  starts reads := by
    rw [Reader.orElse, Option.or_eq_some_iff] at reads
    rcases reads with reads | ⟨_, reads⟩
    · exact first.starts reads
    · exact second.starts reads

/-- An opening text that blanking cannot bring about makes a lexeme of what is read behind it. -/
theorem Lexeme.opens {x : Char} {s : Text} (delimits : isDelimiter (x :: s) = true)
    (stable : f.Stable) : (opens (x :: s) f).Lexeme where
  found := by
    intro b b' t t' same blanked reads
    have visible := visible_of_isDelimiter delimits
    obtain ⟨w, reads⟩ := Option.isSome_iff_exists.1 reads
    obtain ⟨r', v, rfl, read, -⟩ := opens_eq_some_iff.1 reads
    obtain ⟨r, rfl, rest⟩ := blanked.of_visible fun y listed => (visible y listed).1
    rw [List.getLast?_cons, Option.some_or] at read
    obtain ⟨u, before⟩ := Option.isSome_iff_exists.1 (stable.found rfl rest (by rw [read]; rfl))
    apply Option.isSome_iff_exists.2
    refine ⟨_, opens_eq_some_iff.2 ⟨r, u, rfl, ?_, rfl⟩⟩
    rw [List.getLast?_cons, Option.some_or, before]
  reads := by
    intro b t w reads
    obtain ⟨r, v, rfl, read, rfl⟩ := opens_eq_some_iff.1 reads
    obtain ⟨u, rfl, apart, again⟩ := stable.reads read
    refine ⟨u, (List.append_assoc ..).symm, ?_, ?_⟩
    · intro backslash
      rw [List.getLast?_append] at backslash
      cases last : v.getLast? with
      | some y =>
          rw [last, Option.some_or] at backslash
          exact apart (last.trans backslash)
      | none =>
          rw [last, Option.none_or] at backslash
          exact absurd rfl (visible_of_isDelimiter delimits _ (List.mem_of_getLast? backslash)).2
    · intro b' r' same blanked
      refine opens_eq_some_iff.2 ⟨v ++ r', v, List.append_assoc .., again _ r' ?_ blanked, rfl⟩
      simp [List.getLast?_cons]
  starts := by
    intro b t w reads
    obtain ⟨r, v, rfl, read, rfl⟩ := opens_eq_some_iff.1 reads
    exact ⟨x, s ++ v, rfl, (visible_of_isDelimiter delimits x List.mem_cons_self).1⟩

theorem Lexeme.ne_nil (lexeme : f.Lexeme) (reads : f b t = some w) : w ≠ [] := by
  obtain ⟨x, v, rfl, _⟩ := lexeme.starts reads
  exact List.cons_ne_nil x v

theorem Lexeme.none_of_nil (lexeme : f.Lexeme) : f b [] = none := by
  cases reads : f b [] with
  | none => rfl
  | some w =>
      obtain ⟨r, split, _, _⟩ := lexeme.reads reads
      exact absurd (List.append_eq_nil_iff.1 split.symm).1 (lexeme.ne_nil reads)

theorem Lexeme.none_of_isBlank {x : Char} (lexeme : f.Lexeme) (blank : isBlank x = true) :
    f b (x :: t) = none := by
  cases reads : f b (x :: t) with
  | none => rfl
  | some w =>
      obtain ⟨y, v, rfl, visible⟩ := lexeme.starts reads
      obtain ⟨r, split, _, _⟩ := lexeme.reads reads
      exact absurd (List.cons.inj split).1 (ne_of_isBlank visible blank)

/-- A lexeme may be hidden as a whole. -/
theorem Lexeme.blanked (lexeme : f.Lexeme) (reads : f b (w ++ t) = some w)
    (rest : Blanked false t t') : Blanked false (w ++ t) (w.blanks ++ t') := by
  obtain ⟨r, split, apart, _⟩ := lexeme.reads reads
  obtain rfl := List.append_cancel_left split
  obtain ⟨x, v, rfl, _⟩ := lexeme.starts reads
  exact rest.hide x v apart

/-- A reader that is used at the start of a line only. -/
def atLineStart (f : Reader) : Reader := fun b t => if startsLine b then f b t else none

theorem Lexeme.atLineStart (lexeme : f.Lexeme) : f.atLineStart.Lexeme where
  found := by
    intro b b' t t' same blanked reads
    simp only [Reader.atLineStart] at reads ⊢
    rw [← same] at reads
    split at reads
    · next first =>
        rw [if_pos first]
        exact lexeme.found same blanked reads
    · cases reads
  reads := by
    intro b t w reads
    simp only [Reader.atLineStart] at reads ⊢
    split at reads
    · next first =>
        obtain ⟨r, split, apart, again⟩ := lexeme.reads reads
        refine ⟨r, split, apart, fun b' r' same blanked => ?_⟩
        rw [if_pos (same ▸ first), again b' r' same blanked]
    · cases reads
  starts := by
    intro b t w reads
    simp only [Reader.atLineStart] at reads
    split at reads
    · exact lexeme.starts reads
    · cases reads

end Reader

/-! ### To the end of the line, and to a fence -/

theorem stable_restOfLine : Reader.Stable restOfLine where
  found _ _ _ := rfl
  reads := by
    intro b t w reads
    obtain rfl := Option.some.inj reads
    have ends : ∀ y ∈ (t.dropWhile (· != '\n')).head?, y = '\n' := by
      intro y first
      have stops := List.head?_dropWhile_not (· != '\n') t
      rw [Option.mem_def.1 first] at stops
      simpa using stops
    have inside : ∀ y ∈ t.takeWhile (· != '\n'), (y != '\n') = true :=
      fun y listed => List.mem_takeWhile_imp (p := (· != '\n')) listed
    refine ⟨t.dropWhile (· != '\n'), List.takeWhile_append_dropWhile.symm, fun _ => ends, ?_⟩
    intro b' r' _ blanked
    rw [restOfLine, List.takeWhile_append_of_pos inside]
    cases rest : t.dropWhile (· != '\n') with
    | nil =>
        rw [rest] at blanked
        simp [blanked.nil_left]
    | cons y r =>
        rw [rest] at blanked ends
        obtain rfl := ends y rfl
        obtain ⟨s, rfl⟩ := blanked.lineFeed_left
        simp

section

variable {x : Char} {fence t t' w : Text}

theorem throughFirst_of_starts (starts : fence <+: t) : throughFirst fence t = some fence := by
  cases t <;> simp [throughFirst, starts]

theorem isSome_throughFirst_cons :
    (throughFirst fence (x :: t)).isSome = true ↔
      fence <+: x :: t ∨ (throughFirst fence t).isSome = true := by
  rw [throughFirst]
  split
  · next starts => simp [starts]
  · next starts => simp [starts]

theorem throughFirst_reads (reads : throughFirst fence t = some w) :
    ∃ r, t = w ++ r ∧ fence <:+ w ∧ ∀ r', throughFirst fence (w ++ r') = some w := by
  induction t generalizing w with
  | nil =>
      rw [throughFirst] at reads
      split at reads
      · next starts =>
          obtain rfl := Option.some.inj reads
          obtain rfl := List.prefix_nil.1 starts
          exact ⟨[], rfl, List.suffix_rfl, fun r' => throughFirst_of_starts (List.prefix_append ..)⟩
      · cases reads
  | cons x t ih =>
      rw [throughFirst] at reads
      split at reads
      · next starts =>
          obtain rfl := Option.some.inj reads
          obtain ⟨r, split⟩ := starts
          exact ⟨r, split.symm, List.suffix_rfl,
            fun r' => throughFirst_of_starts (List.prefix_append ..)⟩
      · next starts =>
          obtain ⟨v, read, rfl⟩ := Option.map_eq_some_iff.1 reads
          obtain ⟨r, rfl, ends, again⟩ := ih read
          refine ⟨r, rfl, ends.trans (List.suffix_cons ..), fun r' => ?_⟩
          -- the fence that was read is long enough to keep an earlier one within what was read
          have later : ¬fence <+: x :: (v ++ r') := by
            intro early
            have short : fence.length ≤ (x :: v).length := Nat.le_succ_of_le ends.length_le
            have within : fence <+: x :: v :=
              List.prefix_of_prefix_length_le early (List.prefix_append (x :: v) r') short
            exact starts (within.trans (List.prefix_append (x :: v) r))
          rw [List.cons_append, throughFirst, if_neg later, again, Option.map_some]

theorem isSome_throughFirst_of_blanked {after : Bool} (filled : fence ≠ [])
    (visible : ∀ y ∈ fence, isBlank y = false) (blanked : Blanked after t t')
    (found : (throughFirst fence t').isSome = true) : (throughFirst fence t).isSome = true := by
  -- no fence begins with a character that stands for a hidden one
  have skip : ∀ s t', (∀ y ∈ s, isBlank y = true) →
      (throughFirst fence (s ++ t')).isSome = true → (throughFirst fence t').isSome = true := by
    intro s t' hidden found
    induction s with
    | nil => exact found
    | cons y s ih =>
        rcases isSome_throughFirst_cons.1 found with starts | later
        · exfalso
          cases fence with
          | nil => exact filled rfl
          | cons z fence =>
              obtain ⟨rfl, _⟩ := List.cons_prefix_cons.1 starts
              exact ne_of_isBlank (visible z List.mem_cons_self) (hidden z List.mem_cons_self) rfl
        · exact ih (fun y listed => hidden y (List.mem_cons_of_mem _ listed)) later
  induction blanked with
  | done => exact found
  | @kept after x t t' free rest ih =>
      apply isSome_throughFirst_cons.2
      rcases isSome_throughFirst_cons.1 found with starts | later
      · obtain ⟨r', split⟩ := starts
        have whole : Blanked after (x :: t) (fence ++ r') := by
          rw [split]
          exact .kept free rest
        obtain ⟨r, split', _⟩ := whole.of_visible visible
        exact Or.inl ⟨r, split'.symm⟩
      · exact Or.inr (ih later)
  | @hidden after x t t' rest ih =>
      exact isSome_throughFirst_cons.2
        (Or.inr (ih (skip _ t' (fun y => isBlank_of_mem_blankOf) found)))

theorem stable_throughFirst (filled : fence ≠ []) (delimits : isDelimiter fence = true) :
    Reader.Stable fun _ => throughFirst fence where
  found _ blanked found :=
    isSome_throughFirst_of_blanked filled
      (fun y listed => (visible_of_isDelimiter delimits y listed).1) blanked found
  reads := by
    intro b t w reads
    obtain ⟨r, split, ends, again⟩ := throughFirst_reads reads
    refine ⟨r, split, fun backslash => ?_, fun _ r' _ _ => again r'⟩
    obtain ⟨v, rfl⟩ := ends
    rw [List.getLast?_append, List.getLast?_eq_some_getLast filled, Option.some_or] at backslash
    have last := List.getLast_mem filled
    rw [Option.some.inj backslash] at last
    exact absurd rfl (visible_of_isDelimiter delimits _ last).2

end

/-! ### To a quote -/

/-- Rules for the body of a string: apart from line feeds, all characters but the quote and the
backslash are plain and all may follow a backslash. -/
structure Escaping (quote : Char) (plain escapes : Char → Bool) : Prop where
  visible : isBlank quote = false
  ne_backslash : quote ≠ '\\'
  plain_quote : plain quote = false
  plain_backslash : plain '\\' = false
  plain_of {x : Char} : x ≠ '\n' → x ≠ quote → x ≠ '\\' → plain x = true
  escapes_of {x : Char} : x ≠ '\n' → escapes x = true
  escapes_lineFeed : plain '\n' = true → escapes '\n' = true

section

variable {quote x : Char} {plain escapes : Char → Bool} {t t' w : Text}

/-- The string ends, if the character before is a backslash. -/
def EndsEscaped (quote : Char) (plain escapes : Char → Bool) : Text → Prop
  | [] => False
  | y :: t => escapes y = true ∧ (throughQuote quote plain escapes t).isSome = true

theorem isSome_throughQuote_backslash (rules : Escaping quote plain escapes) :
    (throughQuote quote plain escapes ('\\' :: t)).isSome = true ↔
      EndsEscaped quote plain escapes t := by
  cases t with
  | nil => simp [throughQuote, rules.ne_backslash.symm, EndsEscaped]
  | cons y t =>
      rw [throughQuote_backslash rules.ne_backslash, EndsEscaped]
      split <;> simp [*]

theorem isSome_throughQuote_other (unquoted : x ≠ quote) (unescaped : x ≠ '\\') :
    (throughQuote quote plain escapes (x :: t)).isSome = true ↔
      plain x = true ∧ (throughQuote quote plain escapes t).isSome = true := by
  rw [throughQuote_other unquoted unescaped]
  split <;> simp [*]

theorem isSome_throughQuote_blank (rules : Escaping quote plain escapes)
    (blank : isBlank x = true) :
    (throughQuote quote plain escapes (x :: t)).isSome = true ↔
      plain x = true ∧ (throughQuote quote plain escapes t).isSome = true :=
  isSome_throughQuote_other (ne_of_isBlank rules.visible blank) (ne_of_isBlank (by decide) blank)

theorem isSome_throughQuote_spaces (rules : Escaping quote plain escapes) (n : Nat)
    (found : (throughQuote quote plain escapes (List.replicate n ' ' ++ t)).isSome = true) :
    (throughQuote quote plain escapes t).isSome = true := by
  induction n with
  | zero => exact found
  | succ n ih => exact ih ((isSome_throughQuote_blank rules (by decide)).1 found).2

theorem isSome_throughQuote_of_blankOf (rules : Escaping quote plain escapes)
    (found : (throughQuote quote plain escapes (blankOf x ++ t)).isSome = true) :
    (x = '\n' → plain '\n' = true) ∧ (throughQuote quote plain escapes t).isSome = true := by
  rcases blankOf_cases x with ⟨_, blank⟩ | ⟨other, n, blank⟩ <;> rw [blank] at found
  · obtain ⟨allowed, later⟩ := (isSome_throughQuote_blank rules (by decide)).1 found
    exact ⟨fun _ => allowed, later⟩
  · exact ⟨fun lineFeed => absurd lineFeed other, isSome_throughQuote_spaces rules (n + 1) found⟩

theorem endsEscaped_of_blankOf (rules : Escaping quote plain escapes)
    (ends : EndsEscaped quote plain escapes (blankOf x ++ t)) :
    escapes x = true ∧ (throughQuote quote plain escapes t).isSome = true := by
  rcases blankOf_cases x with ⟨rfl, blank⟩ | ⟨other, n, blank⟩ <;> rw [blank] at ends
  · exact ends
  · exact ⟨rules.escapes_of other, isSome_throughQuote_spaces rules n ends.2⟩

/-- Blanking closes no string.  After a hidden backslash the two readings differ: the next character
is escaped in the text alone. -/
theorem isSome_throughQuote_of_blanked {after : Bool} (rules : Escaping quote plain escapes)
    (blanked : Blanked after t t') :
    ((throughQuote quote plain escapes t').isSome = true →
      (throughQuote quote plain escapes t).isSome = true ∧
      (after = true → EndsEscaped quote plain escapes t)) ∧
    (EndsEscaped quote plain escapes t' → EndsEscaped quote plain escapes t) := by
  induction blanked with
  | done => simp [throughQuote]
  | @kept after x t t' free rest ih =>
      obtain ⟨ends, endsEscaped⟩ := ih
      refine ⟨fun found => ⟨?_, fun hiddenBefore => ?_⟩, And.imp_right fun found => (ends found).1⟩
      · by_cases quoted : x = quote
        · rw [quoted, throughQuote_quote]
          rfl
        · by_cases backslash : x = '\\'
          · subst backslash
            rw [isSome_throughQuote_backslash rules] at found ⊢
            exact endsEscaped found
          · rw [isSome_throughQuote_other quoted backslash] at found ⊢
            exact ⟨found.1, (ends found.2).1⟩
      · obtain rfl := free hiddenBefore
        obtain ⟨allowed, later⟩ := (isSome_throughQuote_blank rules (by decide)).1 found
        exact ⟨rules.escapes_lineFeed allowed, (ends later).1⟩
  | @hidden after x t t' rest ih =>
      obtain ⟨ends, _⟩ := ih
      constructor
      · intro found
        obtain ⟨lineFeed, later⟩ := isSome_throughQuote_of_blankOf rules found
        constructor
        · by_cases quoted : x = quote
          · rw [quoted, throughQuote_quote]
            rfl
          · by_cases backslash : x = '\\'
            · subst backslash
              rw [isSome_throughQuote_backslash rules]
              exact (ends later).2 rfl
            · rw [isSome_throughQuote_other quoted backslash]
              refine ⟨?_, (ends later).1⟩
              by_cases feed : x = '\n'
              · rw [feed]
                exact lineFeed feed
              · exact rules.plain_of feed quoted backslash
        · intro _
          refine ⟨?_, (ends later).1⟩
          by_cases feed : x = '\n'
          · rw [feed]
            exact rules.escapes_lineFeed (lineFeed feed)
          · exact rules.escapes_of feed
      · intro found
        obtain ⟨taken, later⟩ := endsEscaped_of_blankOf rules found
        exact ⟨taken, (ends later).1⟩

theorem throughQuote_reads (rules : Escaping quote plain escapes)
    (reads : throughQuote quote plain escapes t = some w) :
    ∃ r, t = w ++ r ∧ w.getLast? = some quote ∧
      ∀ r', throughQuote quote plain escapes (w ++ r') = some w := by
  induction t using throughQuote.induct quote plain escapes generalizing w with
  | case1 => cases reads
  | case2 t =>
      rw [throughQuote_quote] at reads
      obtain rfl := Option.some.inj reads
      exact ⟨t, rfl, rfl, fun r' => throughQuote_quote⟩
  | case3 other => simp [throughQuote, other] at reads
  | case4 y t taken _ ih =>
      rw [throughQuote_backslash rules.ne_backslash, if_pos taken] at reads
      obtain ⟨v, read, rfl⟩ := Option.map_eq_some_iff.1 reads
      obtain ⟨r, rfl, ends, again⟩ := ih read
      refine ⟨r, rfl, by simp [List.getLast?_cons, ends], fun r' => ?_⟩
      rw [List.cons_append, List.cons_append, throughQuote_backslash rules.ne_backslash,
        if_pos taken, again, Option.map_some]
  | case5 y t untaken _ =>
      rw [throughQuote_backslash rules.ne_backslash, if_neg untaken] at reads
      cases reads
  | case6 x t unquoted unescaped goesOn ih =>
      rw [throughQuote_other unquoted unescaped, if_pos goesOn] at reads
      obtain ⟨v, read, rfl⟩ := Option.map_eq_some_iff.1 reads
      obtain ⟨r, rfl, ends, again⟩ := ih read
      refine ⟨r, rfl, by simp [List.getLast?_cons, ends], fun r' => ?_⟩
      rw [List.cons_append, throughQuote_other unquoted unescaped, if_pos goesOn, again,
        Option.map_some]
  | case7 x t unquoted unescaped stops =>
      rw [throughQuote_other unquoted unescaped, if_neg stops] at reads
      cases reads

theorem stable_throughQuote (rules : Escaping quote plain escapes) :
    Reader.Stable fun _ => throughQuote quote plain escapes where
  found _ blanked found := ((isSome_throughQuote_of_blanked rules blanked).1 found).1
  reads := by
    intro b t w reads
    obtain ⟨r, split, ends, again⟩ := throughQuote_reads rules reads
    refine ⟨r, split, fun backslash => ?_, fun _ r' _ _ => again r'⟩
    rw [ends] at backslash
    exact absurd (Option.some.inj backslash) rules.ne_backslash

end

/-! ### To a quote that is not doubled -/

/-- Rules for the body of a string in which a quote is written as two: apart from line feeds, all
characters but the quote are allowed. -/
structure Doubling (quote : Char) (allowed : Char → Bool) : Prop where
  visible : isBlank quote = false
  ne_backslash : quote ≠ '\\'
  allowed_quote : allowed quote = false
  allowed_of {x : Char} : x ≠ '\n' → x ≠ quote → allowed x = true

section

variable {quote x : Char} {allowed : Char → Bool} {t t' w : Text}

theorem isSome_throughDoubled_quote : (throughDoubled quote allowed (quote :: t)).isSome = true := by
  rw [throughDoubled.eq_def]
  simp

theorem isSome_throughDoubled_other (unquoted : x ≠ quote) :
    (throughDoubled quote allowed (x :: t)).isSome = true ↔
      allowed x = true ∧ (throughDoubled quote allowed t).isSome = true := by
  rw [throughDoubled_other unquoted]
  split <;> simp [*]

theorem isSome_throughDoubled_blanks {s : Text} (rules : Doubling quote allowed)
    (blank : ∀ y ∈ s, isBlank y = true)
    (found : (throughDoubled quote allowed (s ++ t)).isSome = true) :
    (∀ y ∈ s, allowed y = true) ∧ (throughDoubled quote allowed t).isSome = true := by
  induction s with
  | nil => exact ⟨by simp, found⟩
  | cons y s ih =>
      have unquoted := ne_of_isBlank rules.visible (blank y List.mem_cons_self)
      obtain ⟨first, later⟩ := (isSome_throughDoubled_other unquoted).1 found
      obtain ⟨others, rest⟩ := ih (fun z listed => blank z (List.mem_cons_of_mem _ listed)) later
      exact ⟨List.forall_mem_cons.2 ⟨first, others⟩, rest⟩

theorem isSome_throughDoubled_of_blanked {after : Bool} (rules : Doubling quote allowed)
    (blanked : Blanked after t t') (found : (throughDoubled quote allowed t').isSome = true) :
    (throughDoubled quote allowed t).isSome = true := by
  induction blanked with
  | done => exact found
  | @kept after x t t' free rest ih =>
      by_cases quoted : x = quote
      · rw [quoted]
        exact isSome_throughDoubled_quote
      · rw [isSome_throughDoubled_other quoted] at found ⊢
        exact ⟨found.1, ih found.2⟩
  | @hidden after x t t' rest ih =>
      obtain ⟨shown, later⟩ :=
        isSome_throughDoubled_blanks rules (fun y => isBlank_of_mem_blankOf) found
      by_cases quoted : x = quote
      · rw [quoted]
        exact isSome_throughDoubled_quote
      · rw [isSome_throughDoubled_other quoted]
        refine ⟨?_, ih later⟩
        rcases blankOf_cases x with ⟨rfl, blank⟩ | ⟨other, _⟩
        · exact shown '\n' (by rw [blank]; exact List.mem_cons_self)
        · exact rules.allowed_of other quoted

/-- A quote ends the string if it is not one of two behind which the string ends. -/
theorem throughDoubled_ends (last : ∀ u, t = quote :: u → throughDoubled quote allowed u = none) :
    throughDoubled quote allowed (quote :: t) = some [quote] := by
  cases t with
  | nil => exact throughDoubled_single (by simp)
  | cons y u =>
      by_cases pair : y = quote
      · subst pair
        rw [throughDoubled_pair, last u rfl]
        rfl
      · exact throughDoubled_single (by simpa using pair)

theorem throughDoubled_reads (rules : Doubling quote allowed)
    (reads : throughDoubled quote allowed t = some w) :
    ∃ r, t = w ++ r ∧ w.getLast? = some quote ∧
      ∀ r', Blanked false r r' → throughDoubled quote allowed (w ++ r') = some w := by
  induction t using throughDoubled.induct quote allowed generalizing w with
  | case1 => cases reads
  | case2 t ih =>
      by_cases goesOn : ∃ u v, t = quote :: u ∧ throughDoubled quote allowed u = some v
      · obtain ⟨u, v, rfl, later⟩ := goesOn
        rw [throughDoubled_pair, later] at reads
        obtain rfl := Option.some.inj reads
        obtain ⟨r, rfl, ends, again⟩ := ih later
        refine ⟨r, rfl, by simp [List.getLast?_cons, ends], fun r' blanked => ?_⟩
        rw [List.cons_append, List.cons_append, throughDoubled_pair, again r' blanked]
        rfl
      · have last : ∀ u, t = quote :: u → throughDoubled quote allowed u = none := by
          rintro u rfl
          cases later : throughDoubled quote allowed u with
          | none => rfl
          | some v => exact absurd ⟨u, v, rfl, later⟩ goesOn
        rw [throughDoubled_ends last] at reads
        obtain rfl := Option.some.inj reads
        refine ⟨t, rfl, rfl, fun r' blanked => throughDoubled_ends ?_⟩
        -- a pair that is left was a pair before, and blanking has not ended the string behind it
        rintro u' rfl
        obtain ⟨u, rfl, rest⟩ := blanked.of_visible (s := [quote]) (by simp [rules.visible])
        cases later : throughDoubled quote allowed u' with
        | none => rfl
        | some v =>
            have before := isSome_throughDoubled_of_blanked rules rest (by rw [later]; rfl)
            rw [last u rfl] at before
            cases before
  | case3 x t unquoted goesOn ih =>
      rw [throughDoubled_other unquoted, if_pos goesOn] at reads
      obtain ⟨v, read, rfl⟩ := Option.map_eq_some_iff.1 reads
      obtain ⟨r, rfl, ends, again⟩ := ih read
      refine ⟨r, rfl, by simp [List.getLast?_cons, ends], fun r' blanked => ?_⟩
      rw [List.cons_append, throughDoubled_other unquoted, if_pos goesOn, again r' blanked,
        Option.map_some]
  | case4 x t unquoted stops =>
      rw [throughDoubled_other unquoted, if_neg stops] at reads
      cases reads

theorem stable_throughDoubled (rules : Doubling quote allowed) :
    Reader.Stable fun _ => throughDoubled quote allowed where
  found _ blanked found := isSome_throughDoubled_of_blanked rules blanked found
  reads := by
    intro b t w reads
    obtain ⟨r, split, ends, again⟩ := throughDoubled_reads rules reads
    refine ⟨r, split, fun backslash => ?_, fun _ r' _ blanked => again r' blanked⟩
    rw [ends] at backslash
    exact absurd (Option.some.inj backslash) rules.ne_backslash

end

end CallAtlas
