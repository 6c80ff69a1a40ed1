/-
Module: CallAtlas.Proofs.PatternCompleteness
Purpose: A search misses no match.  Wherever a pattern matches, a run of it succeeds, whatever was
  marked before; a run may settle for another match than a given one, but not for none.  So all the
  positions at which a pattern matches are covered by the matches that are found in the text.  Which
  texts a pattern matches can be put together from its parts if it looks at nothing around them.
Main definitions: Text.Then, Text.Repeated, Pattern.Denotes
Main results: Pattern.run_isSome, Pattern.matchAt?_isSome, Pattern.exists_mem_findAll,
  Text.then_repeated_iff, Pattern.Denotes.seq, Pattern.Denotes.many
-/
import CallAtlas.Proofs.KeywordBlocks

namespace CallAtlas

namespace Pattern

/-! ### Runs -/

/-- Rounds succeed if there is a way to stop or a way to go on. -/
private theorem rounds_cons_isSome {round : Continuation → Continuation} {greedy : Bool}
    {next : Continuation} {x : Char} {fuel : Text} {c : Cursor} {m : Marks}
    (ways : (next c m).isSome ∨
      (round (fun c' m' => if c.offset < c'.offset then rounds round greedy next fuel c' m'
        else none) c m).isSome) :
    (rounds round greedy next (x :: fuel) c m).isSome := by
  rw [rounds]
  cases greedy with
  | true =>
      simp only [if_true]
      split
      · rfl
      · next failed =>
          rw [failed] at ways
          simpa using ways
  | false =>
      simp only [Bool.false_eq_true, if_false]
      split
      · rfl
      · next failed =>
          rw [failed] at ways
          simpa using ways

/-- Rounds succeed where their repetition matches, if the fuel lasts for the rest of the text. -/
private theorem rounds_isSome {body : Pattern} {greedy : Bool} {c c' : Cursor} {m' : Marks}
    (complete : ∀ {c c' : Cursor} {m' : Marks} {next : Continuation}, body.Matches c c' m' →
      (∀ m, (next c' m).isSome) → ∀ m, (body.run next c m).isSome)
    (found : (many greedy body).Matches c c' m') {next : Continuation}
    (accepts : ∀ m, (next c' m).isSome) :
    ∀ fuel : Text, c.rest.length ≤ fuel.length →
      ∀ m, (rounds body.run greedy next fuel c m).isSome := by
  generalize shape : many greedy body = p at found
  induction found with
  | done =>
      obtain ⟨rfl, rfl⟩ := many.inj shape
      intro fuel _ m
      cases fuel with
      | nil => exact accepts m
      | cons x fuel => exact rounds_cons_isSome (Or.inl (accepts m))
  | @round _ _ c₁ c₂ c₃ _ _ first more _ ih =>
      obtain ⟨rfl, rfl⟩ := many.inj shape
      intro fuel enough m
      obtain ⟨s, reads⟩ := first.reads
      by_cases moves : c₁.offset < c₂.offset
      · have length := reads.length_rest
        have passed : 0 < s.length := by
          rw [List.length_pos_iff]
          rintro rfl
          have stayed := reads.offset
          rw [Text.size_nil] at stayed
          omega
        cases fuel with
        | nil =>
            rw [List.length_nil] at enough
            omega
        | cons x fuel =>
            rw [List.length_cons] at enough
            refine rounds_cons_isSome (Or.inr (complete first (fun m => ?_) m))
            rw [if_pos moves]
            exact ih accepts rfl fuel (by omega) m
      · -- a round that stays where it is can be left out
        obtain ⟨_, rfl⟩ := reads.eq_of_offset_eq (Nat.le_antisymm (Nat.not_lt.1 moves) reads.le)
        exact ih accepts rfl fuel enough m
  | _ => cases shape

theorem run_isSome {p : Pattern} {c c' : Cursor} {m' : Marks} {next : Continuation}
    (found : p.Matches c c' m') (accepts : ∀ m, (next c' m).isSome) :
    ∀ m, (p.run next c m).isSome := by
  induction p generalizing c c' m' next with
  | empty =>
      cases found with
      | empty => exact accepts
  | one test =>
      cases found with
      | one accepted =>
          intro m
          simp only [run, accepted, if_true]
          exact accepts m
  | here holds =>
      cases found with
      | here held =>
          intro m
          simp only [run, held, if_true]
          exact accepts m
  | seq p q ihp ihq =>
      cases found with
      | seq first second => exact ihp first fun m => ihq second accepts m
  | either p q ihp ihq =>
      intro m
      rw [run]
      split
      · rfl
      · next missed =>
          cases found with
          | first first =>
              have tried := ihp first accepts m
              rw [missed] at tried
              cases tried
          | second second => exact ihq second accepts m
  | many greedy body ih => exact rounds_isSome ih found accepts c.rest (Nat.le_refl _)
  | mark group body ih =>
      cases found with
      | mark inner => exact ih inner fun m => accepts _

theorem matchAt?_isSome {p : Pattern} {c c' : Cursor} {m : Marks} (found : p.Matches c c' m) :
    (p.matchAt? c).isSome := by
  rw [matchAt?, Option.isSome_map]
  exact run_isSome found (fun _ => rfl) []

/-! ### Searches -/

/-- A position at which a pattern matches lies in one of the matches that are found from an earlier
position on, if no match is empty. -/
theorem exists_mem_matchesFrom {p : Pattern} {t : Text} {place : Cursor}
    (moves : ∀ m, p.FoundIn t m → m.start < m.stop) (inside : place.In t)
    (found : (p.matchAt? place).isSome) {fuel : Text} {c : Cursor} (start : c.In t)
    (before : c.offset ≤ place.offset) (enough : c.rest.length ≤ fuel.length) :
    ∃ m ∈ p.matchesFrom fuel c, m.start ≤ place.offset ∧ place.offset < m.stop := by
  induction fuel generalizing c with
  | nil =>
      -- no match is left at the end of the text
      obtain ⟨m, there⟩ := Option.isSome_iff_exists.1 found
      have foundIn : p.FoundIn t m := ⟨place, inside, there⟩
      have atPlace := (matches_of_matchAt? there).1
      have moved := moves m foundIn
      have bound := foundIn.stop_le_size
      obtain ⟨front, split, offset, _⟩ := start.split
      rw [List.eq_nil_of_length_eq_zero (Nat.le_zero.1 enough), List.append_nil] at split
      rw [split] at bound
      omega
  | cons x fuel ih =>
      rw [matchesFrom]
      split
      · next nowhere =>
          rw [matchAt?_eq_none_of_searchFrom? start nowhere inside before] at found
          cases found
      · next m there =>
          have first := firstMatch_of_searchFrom? start there
          have moved := moves m first.found
          have starts : m.start ≤ place.offset := by
            rcases Nat.lt_or_ge place.offset m.start with early | late
            · rw [first.first place inside before early] at found
              cases found
            · exact late
          rcases Nat.lt_or_ge place.offset m.stop with within | passed
          · exact ⟨m, List.mem_cons_self, starts, within⟩
          · rw [Match.resume_eq_after moved]
            have further : c.offset < m.after.offset := Nat.lt_of_le_of_lt first.behind moved
            have shorter := start.length_rest_lt first.found.after_in further
            rw [List.length_cons] at enough
            obtain ⟨m', listed, covers⟩ := ih first.found.after_in passed (by omega)
            exact ⟨m', List.mem_cons_of_mem m listed, covers⟩

/-- A position at which a pattern matches lies in one of the matches that are found in the text. -/
theorem exists_mem_findAll {p : Pattern} {t : Text} {c c' : Cursor} {marks : Marks}
    (moves : ∀ m, p.FoundIn t m → m.start < m.stop) (inside : c.In t)
    (found : p.Matches c c' marks) :
    ∃ m ∈ p.findAll t, m.start ≤ c.offset ∧ c.offset < m.stop :=
  exists_mem_matchesFrom moves inside (matchAt?_isSome found) (Cursor.in_ofText t)
    (Nat.zero_le _) (Nat.le_refl _)

end Pattern

/-! ### Kinds of texts -/

namespace Text

/-- A text of one kind, then one of another. -/
def Then (A B : Text → Prop) (t : Text) : Prop := ∃ a b, t = a ++ b ∧ A a ∧ B b

/-- Any number of texts of one kind, one after the other. -/
inductive Repeated (A : Text → Prop) : Text → Prop where
  | nil : Repeated A []
  | cons {a t : Text} (first : A a) (more : Repeated A t) : Repeated A (a ++ t)

variable {A B : Text → Prop} {t : Text}

theorem then_repeated_of_repeated_then (parts : Repeated (Then A B) t) {last : Text}
    (ends : A last) : Then A (Repeated (Then B A)) (t ++ last) := by
  induction parts with
  | nil => exact ⟨last, [], by simp, ends, .nil⟩
  | cons first _ ih =>
      obtain ⟨a, b, rfl, isFirst, between⟩ := first
      obtain ⟨a', rest, split, next, more⟩ := ih
      refine ⟨a, (b ++ a') ++ rest, ?_, isFirst, .cons ⟨b, a', rfl, between, next⟩ more⟩
      rw [List.append_assoc, split]
      simp

theorem repeated_then_of_then_repeated {first : Text} (starts : A first)
    (parts : Repeated (Then B A) t) : Then (Repeated (Then A B)) A (first ++ t) := by
  induction parts generalizing first with
  | nil => exact ⟨[], first, by simp, .nil, starts⟩
  | cons next _ ih =>
      obtain ⟨b, a, rfl, between, isNext⟩ := next
      obtain ⟨front, last, split, more, ends⟩ := ih isNext
      refine ⟨(first ++ b) ++ front, last, ?_, .cons ⟨first, b, rfl, starts, between⟩ more, ends⟩
      rw [List.append_assoc b, split]
      simp

/-- Parts with something between them can be told apart from the front or from the end. -/
theorem then_repeated_iff : Then A (Repeated (Then B A)) t ↔ Then (Repeated (Then A B)) A t := by
  constructor
  · rintro ⟨first, rest, rfl, starts, parts⟩
    exact repeated_then_of_then_repeated starts parts
  · rintro ⟨front, last, rfl, parts, ends⟩
    exact then_repeated_of_repeated_then parts ends

end Text

/-! ### Texts that a pattern matches -/

theorem Cursor.Reads.exists_between {c c' : Cursor} {s t : Text} (reads : c.Reads (s ++ t) c') :
    ∃ between, c.Reads s between ∧ between.Reads t c' := by
  refine ⟨⟨s.getLast?.or c.before, c.offset + s.size, t ++ c'.rest⟩, ⟨?_, rfl, rfl⟩, ⟨rfl, ?_, ?_⟩⟩
  · rw [reads.rest, List.append_assoc]
  · rw [reads.offset, Text.size_append, Nat.add_assoc]
  · rw [reads.before, List.getLast?_append, Option.or_assoc]

/-- Two ways of reading the same text end in the same place. -/
theorem Cursor.Reads.unique {c c₁ c₂ : Cursor} {s : Text} (first : c.Reads s c₁)
    (second : c.Reads s c₂) : c₁ = c₂ := by
  have rest : c₁.rest = c₂.rest := List.append_cancel_left (first.rest.symm.trans second.rest)
  have offset : c₁.offset = c₂.offset := first.offset.trans second.offset.symm
  have before : c₁.before = c₂.before := first.before.trans second.before.symm
  exact Cursor.ext before offset rest

namespace Pattern

/-- A pattern matches the texts of one kind, wherever they stand. -/
structure Denotes (p : Pattern) (A : Text → Prop) : Prop where
  sound : ∀ {c c' : Cursor} {m : Marks}, p.Matches c c' m → ∃ s, c.Reads s c' ∧ A s
  complete : ∀ {c c' : Cursor} {s : Text}, c.Reads s c' → A s → ∃ m, p.Matches c c' m

namespace Denotes

variable {p q : Pattern} {A B : Text → Prop}

theorem congr (denotes : p.Denotes A) (same : ∀ s, A s ↔ B s) : p.Denotes B where
  sound := by
    intro c c' m found
    obtain ⟨s, reads, kind⟩ := denotes.sound found
    exact ⟨s, reads, (same s).1 kind⟩
  complete := by
    intro c c' s reads kind
    exact denotes.complete reads ((same s).2 kind)

theorem empty : Pattern.empty.Denotes (· = []) where
  sound := by
    intro c c' m found
    cases found with
    | empty => exact ⟨[], .refl _, rfl⟩
  complete := by
    rintro c c' s reads rfl
    obtain rfl := reads.unique (.refl c)
    exact ⟨[], .empty⟩

theorem one (accepts : Char → Bool) :
    (Pattern.one accepts).Denotes fun s => ∃ x, s = [x] ∧ accepts x = true where
  sound := by
    intro c c' m found
    cases found with
    | one accepted => exact ⟨_, .single .., _, rfl, accepted⟩
  complete := by
    rintro ⟨before, offset, rest⟩ ⟨before', offset', rest'⟩ s reads ⟨x, rfl, accepted⟩
    obtain rfl : rest = x :: rest' := reads.rest
    obtain ⟨rfl, rfl, _⟩ := Cursor.mk.inj (reads.unique (.single before offset x rest'))
    exact ⟨[], .one accepted⟩

theorem seq (first : p.Denotes A) (second : q.Denotes B) : (p ++ q).Denotes (Text.Then A B) where
  sound := by
    intro c c' m found
    cases found with
    | seq found found' =>
        obtain ⟨s, reads, kind⟩ := first.sound found
        obtain ⟨s', reads', kind'⟩ := second.sound found'
        exact ⟨s ++ s', reads.trans reads', s, s', rfl, kind, kind'⟩
  complete := by
    rintro c c' _ reads ⟨s, s', rfl, kind, kind'⟩
    obtain ⟨between, reads, reads'⟩ := reads.exists_between
    obtain ⟨m, found⟩ := first.complete reads kind
    obtain ⟨m', found'⟩ := second.complete reads' kind'
    exact ⟨m' ++ m, .seq found found'⟩

theorem either (first : p.Denotes A) (second : q.Denotes B) :
    (Pattern.either p q).Denotes fun s => A s ∨ B s where
  sound := by
    intro c c' m found
    cases found with
    | first found =>
        obtain ⟨s, reads, kind⟩ := first.sound found
        exact ⟨s, reads, .inl kind⟩
    | second found =>
        obtain ⟨s, reads, kind⟩ := second.sound found
        exact ⟨s, reads, .inr kind⟩
  complete := by
    rintro c c' s reads (kind | kind)
    · obtain ⟨m, found⟩ := first.complete reads kind
      exact ⟨m, .first found⟩
    · obtain ⟨m, found⟩ := second.complete reads kind
      exact ⟨m, .second found⟩

theorem many (denotes : p.Denotes A) (greedy : Bool) :
    (Pattern.many greedy p).Denotes (Text.Repeated A) where
  sound := by
    intro c c' m found
    generalize shape : Pattern.many greedy p = rounds at found
    induction found with
    | done => exact ⟨[], .refl _, .nil⟩
    | round first _ _ ih =>
        obtain ⟨rfl, rfl⟩ := Pattern.many.inj shape
        obtain ⟨s, reads, kind⟩ := denotes.sound first
        obtain ⟨s', reads', kinds⟩ := ih rfl
        exact ⟨s ++ s', reads.trans reads', .cons kind kinds⟩
    | _ => cases shape
  complete := by
    intro c c' s reads kinds
    induction kinds generalizing c with
    | nil =>
        obtain rfl := reads.unique (.refl c)
        exact ⟨[], .done⟩
    | cons kind _ ih =>
        obtain ⟨between, first, rest⟩ := reads.exists_between
        obtain ⟨m, found⟩ := denotes.complete first kind
        obtain ⟨m', more⟩ := ih rest
        exact ⟨m' ++ m, .round found more⟩

theorem mark (denotes : p.Denotes A) (group : Group) : (Pattern.mark group p).Denotes A where
  sound := by
    intro c c' m found
    cases found with
    | mark inner => exact denotes.sound inner
  complete := by
    intro c c' s reads kind
    obtain ⟨m, inner⟩ := denotes.complete reads kind
    exact ⟨_, .mark inner⟩

/-- Any number of characters that pass a test. -/
theorem manyOne (accepts : Char → Bool) (greedy : Bool) :
    (Pattern.many greedy (.one accepts)).Denotes fun s => ∀ x ∈ s, accepts x = true := by
  refine ((one accepts).many greedy).congr ?_
  intro s
  constructor
  · intro parts
    induction parts with
    | nil => simp
    | cons first _ ih =>
        obtain ⟨x, rfl, accepted⟩ := first
        simpa [accepted] using ih
  · intro all
    induction s with
    | nil => exact .nil
    | cons x s ih =>
        have first := all x List.mem_cons_self
        exact .cons ⟨x, rfl, first⟩ (ih fun y listed => all y (List.mem_cons_of_mem x listed))

theorem lit (word : String) : (Pattern.lit word).Denotes (· = word.toList) := by
  rw [Pattern.lit]
  generalize word.toList = letters
  induction letters with
  | nil => exact empty
  | cons letter letters ih =>
      refine ((one (· == letter)).seq ih).congr ?_
      intro s
      constructor
      · rintro ⟨_, _, rfl, ⟨x, rfl, same⟩, rfl⟩
        rw [beq_iff_eq.1 same]
        rfl
      · rintro rfl
        exact ⟨[letter], letters, rfl, ⟨letter, rfl, by simp⟩, rfl⟩

theorem words (first : String) (others : List String) :
    (Pattern.words first others).Denotes fun s => ∃ word ∈ first :: others, s = word.toList := by
  rw [Pattern.words]
  induction others generalizing first with
  | nil =>
      refine (lit first).congr ?_
      simp
  | cons second others ih =>
      refine ((lit first).either (ih second)).congr ?_
      simp

end Denotes

/-- A pattern that marks nothing has matches without marks. -/
theorem Matches.marks_eq_nil {p : Pattern} {c c' : Cursor} {m : Marks} (found : p.Matches c c' m)
    (unmarked : ∀ group, p.marked group = []) : m = [] := by
  rw [List.eq_nil_iff_forall_not_mem]
  rintro ⟨group, span⟩ listed
  obtain ⟨q, isMarked, _⟩ := found.exists_marked listed
  rw [unmarked group] at isMarked
  cases isMarked

end Pattern

end CallAtlas
