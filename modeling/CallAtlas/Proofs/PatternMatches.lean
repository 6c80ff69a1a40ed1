/-
Module: CallAtlas.Proofs.PatternMatches
Purpose: What it means for a pattern to match, apart from how a match is searched for.  The search
  tries branches in an order and goes on with a continuation; the relation `Matches` only says which
  texts a pattern covers and which parts it marks.  Every match that a search finds is one of these,
  so what holds of all of them holds of whatever is found.
Main definitions: Cursor.Reads, Cursor.In, Pattern.Matches, Pattern.FoundIn, Pattern.marked,
  Pattern.unmarked
Main results: Pattern.run_sound, Pattern.mem_findAll, Pattern.FoundIn.exists_group,
  Pattern.matchAt?_unmarked
-/
import CallAtlas.Pattern.Search
import CallAtlas.Proofs.Encoding

namespace CallAtlas

/-! ### Positions of a text -/

namespace Cursor

/-- One position lies behind another one, with a given text between them. -/
structure Reads (c : Cursor) (passed : Text) (c' : Cursor) : Prop where
  rest : c.rest = passed ++ c'.rest
  offset : c'.offset = c.offset + passed.size
  before : c'.before = passed.getLast?.or c.before

theorem Reads.refl (c : Cursor) : c.Reads [] c := ⟨rfl, rfl, rfl⟩

theorem Reads.single (before : Option Char) (offset : Nat) (x : Char) (t : Text) :
    Reads ⟨before, offset, x :: t⟩ [x] ⟨some x, offset + x.utf8Size, t⟩ := ⟨rfl, rfl, rfl⟩

theorem Reads.trans {c₁ c₂ c₃ : Cursor} {s t : Text} (first : c₁.Reads s c₂)
    (second : c₂.Reads t c₃) : c₁.Reads (s ++ t) c₃ where
  rest := by rw [first.rest, second.rest, List.append_assoc]
  offset := by rw [second.offset, first.offset, Text.size_append, Nat.add_assoc]
  before := by rw [second.before, first.before, List.getLast?_append, Option.or_assoc]

theorem Reads.le {c c' : Cursor} {s : Text} (reads : c.Reads s c') : c.offset ≤ c'.offset := by
  rw [reads.offset]
  omega

/-- A position that was not left is the position itself. -/
theorem Reads.eq_of_offset_eq {c c' : Cursor} {s : Text} (reads : c.Reads s c')
    (stayed : c'.offset = c.offset) : s = [] ∧ c' = c := by
  have empty : s = [] := by
    apply Text.eq_nil_of_size_eq_zero
    have moved := reads.offset
    omega
  subst empty
  exact ⟨rfl, Cursor.ext reads.before stayed reads.rest.symm⟩

/-- A position of a text. -/
def In (t : Text) (c : Cursor) : Prop := ∃ s, (ofText t).Reads s c

theorem in_ofText (t : Text) : (ofText t).In t := ⟨[], .refl _⟩

theorem In.of_reads {t s : Text} {c c' : Cursor} (inside : c.In t) (reads : c.Reads s c') :
    c'.In t := by
  obtain ⟨front, before⟩ := inside
  exact ⟨front ++ s, before.trans reads⟩

/-- A position splits its text, and knows the last character of the front. -/
theorem In.split {t : Text} {c : Cursor} (inside : c.In t) :
    ∃ p, t = p ++ c.rest ∧ c.offset = p.size ∧ c.before = p.getLast? := by
  obtain ⟨p, reads⟩ := inside
  refine ⟨p, reads.rest, ?_, ?_⟩
  · simpa [ofText] using reads.offset
  · simpa [ofText] using reads.before

theorem In.isBoundary {t : Text} {c : Cursor} (inside : c.In t) : t.IsBoundary c.offset := by
  obtain ⟨p, rfl, offset, _⟩ := inside.split
  rw [offset]
  exact Text.isBoundary_append p c.rest

theorem reads_advance (c : Cursor) : ∃ s, c.Reads s c.advance := by
  obtain ⟨before, offset, rest⟩ := c
  cases rest with
  | nil => exact ⟨[], .refl _⟩
  | cons x t => exact ⟨[x], .single before offset x t⟩

theorem seekFrom?_of_reads {c c' : Cursor} {s : Text} (reads : c.Reads s c') :
    seekFrom? c'.offset c.before c.offset c.rest = some c' := by
  induction s generalizing c with
  | nil =>
      obtain ⟨_, rfl⟩ := reads.eq_of_offset_eq (by simpa using reads.offset)
      cases rest : c'.rest with
      | nil =>
          rw [seekFrom?, if_pos rfl, ← rest]
      | cons x t =>
          rw [seekFrom?, if_pos rfl, ← rest]
  | cons x s ih =>
      obtain ⟨before, offset, rest⟩ := c
      have positive := x.utf8Size_pos
      obtain rfl : rest = x :: (s ++ c'.rest) := reads.rest
      have later : c'.offset = offset + x.utf8Size + Text.size s := by
        have moved := reads.offset
        simp only [Text.size_cons] at moved
        omega
      have next : Reads ⟨some x, offset + x.utf8Size, s ++ c'.rest⟩ s c' := by
        refine ⟨rfl, later, ?_⟩
        rw [reads.before, List.getLast?_cons]
        cases s.getLast? <;> rfl
      dsimp only
      rw [seekFrom?, if_neg (by omega), if_neg (by omega)]
      exact ih next

/-- The position at the offset of a position is that position. -/
theorem In.ofOffset? {t : Text} {c : Cursor} (inside : c.In t) : ofOffset? t c.offset = some c := by
  obtain ⟨s, reads⟩ := inside
  exact seekFrom?_of_reads reads

end Cursor

/-! ### Matches -/

namespace Pattern

/-- A pattern covers the text between two positions and marks parts of it, the latest part first. -/
inductive Matches : Pattern → Cursor → Cursor → Marks → Prop where
  | empty {c : Cursor} : Matches .empty c c []
  | one {accepts : Char → Bool} {before : Option Char} {offset : Nat} {x : Char} {t : Text}
      (accepted : accepts x = true) :
      Matches (.one accepts) ⟨before, offset, x :: t⟩ ⟨some x, offset + x.utf8Size, t⟩ []
  | here {holds : Option Char → Option Char → Bool} {c : Cursor}
      (held : holds c.before c.rest.head? = true) : Matches (.here holds) c c []
  | seq {p q : Pattern} {c₁ c₂ c₃ : Cursor} {m₁ m₂ : Marks} (first : Matches p c₁ c₂ m₁)
      (second : Matches q c₂ c₃ m₂) : Matches (.seq p q) c₁ c₃ (m₂ ++ m₁)
  | first {p q : Pattern} {c c' : Cursor} {m : Marks} (found : Matches p c c' m) :
      Matches (.either p q) c c' m
  | second {p q : Pattern} {c c' : Cursor} {m : Marks} (found : Matches q c c' m) :
      Matches (.either p q) c c' m
  | done {greedy : Bool} {p : Pattern} {c : Cursor} : Matches (.many greedy p) c c []
  | round {greedy : Bool} {p : Pattern} {c₁ c₂ c₃ : Cursor} {m₁ m₂ : Marks}
      (first : Matches p c₁ c₂ m₁) (more : Matches (.many greedy p) c₂ c₃ m₂) :
      Matches (.many greedy p) c₁ c₃ (m₂ ++ m₁)
  | mark {group : Group} {p : Pattern} {c c' : Cursor} {m : Marks} (found : Matches p c c' m) :
      Matches (.mark group p) c c' ((group, ⟨c.offset, c'.offset⟩) :: m)

theorem Matches.reads {p : Pattern} {c c' : Cursor} {m : Marks} (found : p.Matches c c' m) :
    ∃ s, c.Reads s c' := by
  induction found with
  | empty => exact ⟨[], .refl _⟩
  | one _ => exact ⟨_, .single ..⟩
  | here _ => exact ⟨[], .refl _⟩
  | seq _ _ ih₁ ih₂ =>
      obtain ⟨s, first⟩ := ih₁
      obtain ⟨t, second⟩ := ih₂
      exact ⟨s ++ t, first.trans second⟩
  | first _ ih => exact ih
  | second _ ih => exact ih
  | done => exact ⟨[], .refl _⟩
  | round _ _ ih₁ ih₂ =>
      obtain ⟨s, first⟩ := ih₁
      obtain ⟨t, second⟩ := ih₂
      exact ⟨s ++ t, first.trans second⟩
  | mark _ ih => exact ih

theorem Matches.le {p : Pattern} {c c' : Cursor} {m : Marks} (found : p.Matches c c' m) :
    c.offset ≤ c'.offset := by
  obtain ⟨s, reads⟩ := found.reads
  exact reads.le

/-! ### What is found is a match -/

private theorem rounds_sound {body : Pattern} {greedy : Bool} {next : Continuation}
    {r : Cursor × Marks}
    (sound : ∀ {next : Continuation} {c : Cursor} {m : Marks}, body.run next c m = some r →
      ∃ c' m', body.Matches c c' m' ∧ next c' (m' ++ m) = some r)
    {fuel : Text} {c : Cursor} {m : Marks}
    (found : rounds body.run greedy next fuel c m = some r) :
    ∃ c' m', (many greedy body).Matches c c' m' ∧ next c' (m' ++ m) = some r := by
  induction fuel generalizing c m with
  | nil => exact ⟨c, [], .done, found⟩
  | cons x fuel ih =>
      have again : ∀ {c' : Cursor} {m' : Marks}, body.Matches c c' m' →
          (if c.offset < c'.offset then rounds body.run greedy next fuel c' (m' ++ m) else none) =
            some r →
          ∃ c'' m'', (many greedy body).Matches c c'' m'' ∧ next c'' (m'' ++ m) = some r := by
        intro c' m' round goesOn
        split at goesOn
        · obtain ⟨c'', m'', rest, ends⟩ := ih goesOn
          exact ⟨c'', m'' ++ m', .round round rest, by rw [List.append_assoc]; exact ends⟩
        · cases goesOn
      rw [rounds] at found
      -- a greedy repetition tries a round first, a lazy one tries to stop first
      cases greedy with
      | true =>
          simp only [if_true] at found
          split at found
          · next tried =>
              rw [found] at tried
              obtain ⟨c', m', round, goesOn⟩ := sound tried
              exact again round goesOn
          · exact ⟨c, [], .done, found⟩
      | false =>
          simp only [Bool.false_eq_true, if_false] at found
          split at found
          · next stopped =>
              rw [found] at stopped
              exact ⟨c, [], .done, stopped⟩
          · obtain ⟨c', m', round, goesOn⟩ := sound found
            exact again round goesOn

/-- If a run succeeds, the pattern matched up to some position and the continuation accepted it. -/
theorem run_sound {p : Pattern} {next : Continuation} {c : Cursor} {m : Marks}
    {r : Cursor × Marks} (found : p.run next c m = some r) :
    ∃ c' m', p.Matches c c' m' ∧ next c' (m' ++ m) = some r := by
  induction p generalizing next c m with
  | empty => exact ⟨c, [], .empty, found⟩
  | one accepts =>
      obtain ⟨before, offset, rest⟩ := c
      cases rest with
      | nil => cases found
      | cons x t =>
          simp only [run] at found
          split at found
          · next accepted => exact ⟨_, [], .one accepted, found⟩
          · cases found
  | here holds =>
      simp only [run] at found
      split at found
      · next held => exact ⟨c, [], .here held, found⟩
      · cases found
  | seq p q ihp ihq =>
      obtain ⟨c₁, m₁, first, goesOn⟩ := ihp found
      obtain ⟨c₂, m₂, second, ends⟩ := ihq goesOn
      exact ⟨c₂, m₂ ++ m₁, .seq first second, by rw [List.append_assoc]; exact ends⟩
  | either p q ihp ihq =>
      simp only [run] at found
      split at found
      · next tried =>
          rw [found] at tried
          obtain ⟨c', m', first, ends⟩ := ihp tried
          exact ⟨c', m', .first first, ends⟩
      · obtain ⟨c', m', second, ends⟩ := ihq found
        exact ⟨c', m', .second second, ends⟩
  | many greedy body ih => exact rounds_sound ih found
  | mark group body ih =>
      obtain ⟨c', m', inner, ends⟩ := ih found
      exact ⟨c', _, .mark inner, ends⟩

theorem matches_of_matchAt? {p : Pattern} {c : Cursor} {m : Match}
    (found : p.matchAt? c = some m) : m.start = c.offset ∧ p.Matches c m.after m.marks := by
  obtain ⟨⟨c', marks⟩, ran, rfl⟩ := Option.map_eq_some_iff.1 found
  obtain ⟨c'', marks', inner, ends⟩ := run_sound ran
  rw [Option.some.injEq, Prod.mk.injEq, List.append_nil] at ends
  obtain ⟨rfl, rfl⟩ := ends
  exact ⟨rfl, inner⟩

/-- A match of a pattern at some position of a text. -/
def FoundIn (p : Pattern) (t : Text) (m : Match) : Prop :=
  ∃ c : Cursor, c.In t ∧ p.matchAt? c = some m

namespace FoundIn

variable {p : Pattern} {t : Text} {m : Match}

theorem exists_matches (found : p.FoundIn t m) :
    ∃ c : Cursor, c.In t ∧ m.start = c.offset ∧ p.Matches c m.after m.marks := by
  obtain ⟨c, inside, there⟩ := found
  exact ⟨c, inside, matches_of_matchAt? there⟩

theorem after_in (found : p.FoundIn t m) : m.after.In t := by
  obtain ⟨c, inside, _, whole⟩ := found.exists_matches
  obtain ⟨s, reads⟩ := whole.reads
  exact inside.of_reads reads

theorem start_isBoundary (found : p.FoundIn t m) : t.IsBoundary m.start := by
  obtain ⟨c, inside, start, _⟩ := found.exists_matches
  exact start ▸ inside.isBoundary

theorem start_le_stop (found : p.FoundIn t m) : m.start ≤ m.stop := by
  obtain ⟨c, _, start, whole⟩ := found.exists_matches
  rw [start]
  exact whole.le

theorem stop_le_size (found : p.FoundIn t m) : m.stop ≤ t.size := found.after_in.isBoundary.le_size

end FoundIn

theorem search?_sound {p : Pattern} {before : Option Char} {offset : Nat} {t : Text} {m : Match}
    (found : p.search? before offset t = some m) :
    ∃ s c, Cursor.Reads ⟨before, offset, t⟩ s c ∧ p.matchAt? c = some m := by
  induction t generalizing before offset with
  | nil => exact ⟨[], _, .refl _, found⟩
  | cons x t ih =>
      rw [search?] at found
      split at found
      · next here =>
          rw [found] at here
          exact ⟨[], _, .refl _, here⟩
      · obtain ⟨s, c, reads, later⟩ := ih found
        exact ⟨[x] ++ s, c, (Cursor.Reads.single before offset x t).trans reads, later⟩

/-- The first match from a position on is a match at or behind it. -/
theorem searchFrom?_sound {p : Pattern} {t : Text} {c : Cursor} {m : Match} (inside : c.In t)
    (found : p.searchFrom? c = some m) : p.FoundIn t m ∧ c.offset ≤ m.start := by
  obtain ⟨s, c', reads, there⟩ := search?_sound found
  refine ⟨⟨c', inside.of_reads reads, there⟩, ?_⟩
  rw [(matches_of_matchAt? there).1]
  exact reads.le

/-- Where a pattern matches at once, the search need not go on. -/
theorem searchFrom?_of_matchAt? {p : Pattern} {c : Cursor} {m : Match}
    (there : p.matchAt? c = some m) : p.searchFrom? c = some m := by
  obtain ⟨before, offset, rest⟩ := c
  rw [searchFrom?]
  cases rest with
  | nil => exact there
  | cons x t =>
      simp only [search?]
      rw [there]

theorem find?_sound {p : Pattern} {t : Text} {m : Match} (found : p.find? t = some m) :
    p.FoundIn t m := (searchFrom?_sound (Cursor.in_ofText t) found).1

theorem FoundIn.resume_in {p : Pattern} {t : Text} {m : Match} (found : p.FoundIn t m) :
    m.resume.In t := by
  rw [Match.resume]
  split
  · exact found.after_in
  · obtain ⟨s, reads⟩ := m.after.reads_advance
    exact found.after_in.of_reads reads

theorem matchesFrom_sound {p : Pattern} {t fuel : Text} {c : Cursor} {m : Match} (inside : c.In t)
    (listed : m ∈ p.matchesFrom fuel c) : p.FoundIn t m := by
  induction fuel generalizing c with
  | nil =>
      rw [matchesFrom, Option.mem_toList] at listed
      exact (searchFrom?_sound inside listed).1
  | cons x fuel ih =>
      rw [matchesFrom] at listed
      split at listed
      · cases listed
      · next m' found =>
          have here := (searchFrom?_sound inside found).1
          rcases List.mem_cons.1 listed with rfl | later
          · exact here
          · exact ih here.resume_in later

theorem mem_findAll {p : Pattern} {t : Text} {m : Match} (listed : m ∈ p.findAll t) :
    p.FoundIn t m := matchesFrom_sound (Cursor.in_ofText t) listed

/-! ### Marked parts -/

/-- The patterns whose texts a pattern marks with a group. -/
def marked (group : Group) : Pattern → List Pattern
  | empty | one _ | here _ => []
  | seq p q | either p q => p.marked group ++ q.marked group
  | many _ p => p.marked group
  | mark g p => if g = group then p :: p.marked group else p.marked group

/-- A marked part is the text of a marked pattern, somewhere inside the match. -/
theorem Matches.exists_marked {p : Pattern} {c c' : Cursor} {m : Marks} {group : Group}
    {span : Span} (found : p.Matches c c' m) (listed : (group, span) ∈ m) :
    ∃ q ∈ p.marked group, ∃ c₁ c₂ m' s₁ s₂, c.Reads s₁ c₁ ∧ q.Matches c₁ c₂ m' ∧
      c₂.Reads s₂ c' ∧ span = ⟨c₁.offset, c₂.offset⟩ := by
  induction found with
  | empty => cases listed
  | one _ => cases listed
  | here _ => cases listed
  | seq first second ih₁ ih₂ =>
      rcases List.mem_append.1 listed with late | early
      · obtain ⟨q, isMarked, c₁, c₂, m', s₁, s₂, reads, inner, behind, same⟩ := ih₂ late
        obtain ⟨s, passed⟩ := first.reads
        exact ⟨q, List.mem_append_right _ isMarked, c₁, c₂, m', _, s₂, passed.trans reads, inner,
          behind, same⟩
      · obtain ⟨q, isMarked, c₁, c₂, m', s₁, s₂, reads, inner, behind, same⟩ := ih₁ early
        obtain ⟨s, passed⟩ := second.reads
        exact ⟨q, List.mem_append_left _ isMarked, c₁, c₂, m', s₁, _, reads, inner,
          behind.trans passed, same⟩
  | first _ ih =>
      obtain ⟨q, isMarked, rest⟩ := ih listed
      exact ⟨q, List.mem_append_left _ isMarked, rest⟩
  | second _ ih =>
      obtain ⟨q, isMarked, rest⟩ := ih listed
      exact ⟨q, List.mem_append_right _ isMarked, rest⟩
  | done => cases listed
  | round first more ih₁ ih₂ =>
      rcases List.mem_append.1 listed with late | early
      · obtain ⟨q, isMarked, c₁, c₂, m', s₁, s₂, reads, inner, behind, same⟩ := ih₂ late
        obtain ⟨s, passed⟩ := first.reads
        exact ⟨q, isMarked, c₁, c₂, m', _, s₂, passed.trans reads, inner, behind, same⟩
      · obtain ⟨q, isMarked, c₁, c₂, m', s₁, s₂, reads, inner, behind, same⟩ := ih₁ early
        obtain ⟨s, passed⟩ := more.reads
        exact ⟨q, isMarked, c₁, c₂, m', s₁, _, reads, inner, behind.trans passed, same⟩
  | @mark g p c c' m found ih =>
      rcases List.mem_cons.1 listed with here | inside
      · rw [Prod.mk.injEq] at here
        obtain ⟨rfl, rfl⟩ := here
        exact ⟨p, by simp [marked], c, c', m, [], [], .refl c, found, .refl c', rfl⟩
      · obtain ⟨q, isMarked, rest⟩ := ih inside
        refine ⟨q, ?_, rest⟩
        rw [marked]
        split
        · exact List.mem_cons_of_mem _ isMarked
        · exact isMarked

/-- A group of a match is the text of a marked pattern between two positions of the text. -/
theorem FoundIn.exists_group {p : Pattern} {t : Text} {m : Match} {group : Group} {span : Span}
    (found : p.FoundIn t m) (isMarked : m.group? group = some span) :
    ∃ q ∈ p.marked group, ∃ c₁ c₂ m', c₁.In t ∧ c₂.In t ∧ q.Matches c₁ c₂ m' ∧
      span = ⟨c₁.offset, c₂.offset⟩ ∧ m.start ≤ c₁.offset ∧ c₂.offset ≤ m.stop := by
  obtain ⟨c, inside, start, whole⟩ := found.exists_matches
  obtain ⟨⟨g, _⟩, chosen, rfl⟩ := Option.map_eq_some_iff.1 isMarked
  have listed := List.mem_of_find?_eq_some chosen
  have same := List.find?_some chosen
  simp only [decide_eq_true_eq] at same
  subst same
  obtain ⟨q, isMarked, c₁, c₂, m', s₁, s₂, reads, inner, behind, same⟩ :=
    whole.exists_marked listed
  obtain ⟨s, passed⟩ := inner.reads
  have inside₁ := inside.of_reads reads
  refine ⟨q, isMarked, c₁, c₂, m', inside₁, inside₁.of_reads passed, inner, same, ?_, behind.le⟩
  rw [start]
  exact reads.le

/-! ### Marks do not matter for where a match ends -/

/-- The pattern without its marks. -/
def unmarked : Pattern → Pattern
  | empty => empty
  | one accepts => one accepts
  | here holds => here holds
  | seq p q => seq p.unmarked q.unmarked
  | either p q => either p.unmarked q.unmarked
  | many greedy p => many greedy p.unmarked
  | mark _ p => p.unmarked

/-- Two continuations that end at the same place whatever is marked. -/
def SameEnd (next next' : Continuation) : Prop :=
  ∀ c m m', (next c m).map Prod.fst = (next' c m').map Prod.fst

private theorem orElse_sameEnd {a b a' b' : Option (Cursor × Marks)}
    (first : a.map Prod.fst = a'.map Prod.fst) (second : b.map Prod.fst = b'.map Prod.fst) :
    (match a with
      | some found => some found
      | none => b).map Prod.fst =
    (match a' with
      | some found => some found
      | none => b').map Prod.fst := by
  cases a with
  | some x =>
      cases a' with
      | some y => exact first
      | none => cases first
  | none =>
      cases a' with
      | some y => cases first
      | none => exact second

private theorem rounds_sameEnd {round round' : Continuation → Continuation} {greedy : Bool}
    {next next' : Continuation}
    (alike : ∀ {next next' : Continuation}, SameEnd next next' →
      SameEnd (round next) (round' next'))
    (ends : SameEnd next next') (fuel : Text) :
    SameEnd (rounds round greedy next fuel) (rounds round' greedy next' fuel) := by
  induction fuel with
  | nil => exact ends
  | cons x fuel ih =>
      intro c m m'
      have again : SameEnd
          (fun c' m' => if c.offset < c'.offset then rounds round greedy next fuel c' m' else none)
          (fun c' m' =>
            if c.offset < c'.offset then rounds round' greedy next' fuel c' m' else none) := by
        intro c' m₁ m₂
        dsimp only
        split
        · exact ih c' m₁ m₂
        · rfl
      cases greedy with
      | true => exact orElse_sameEnd (alike again c m m') (ends c m m')
      | false => exact orElse_sameEnd (ends c m m') (alike again c m m')

theorem run_sameEnd (p : Pattern) {next next' : Continuation} (ends : SameEnd next next') :
    SameEnd (p.run next) (p.unmarked.run next') := by
  induction p generalizing next next' with
  | empty => exact ends
  | one accepts =>
      intro c m m'
      simp only [unmarked, run]
      split
      · rfl
      · split
        · exact ends _ m m'
        · rfl
  | here holds =>
      intro c m m'
      simp only [unmarked, run]
      split
      · exact ends c m m'
      · rfl
  | seq p q ihp ihq => exact ihp (ihq ends)
  | either p q ihp ihq =>
      intro c m m'
      exact orElse_sameEnd (ihp ends c m m') (ihq ends c m m')
  | many greedy p ih =>
      intro c m m'
      exact rounds_sameEnd ih ends c.rest c m m'
  | mark group p ih =>
      intro c m m'
      exact ih (fun c' _ _ => ends c' _ _) c m m'

/-- Two patterns that differ in their marks only match at the same places and end there alike. -/
theorem matchAt?_unmarked {p q : Pattern} {c : Cursor} {m : Match}
    (alike : p.unmarked = q.unmarked) (there : p.matchAt? c = some m) :
    ∃ m', q.matchAt? c = some m' ∧ m'.start = m.start ∧ m'.after = m.after := by
  have accept : SameEnd (fun c m => some (c, m)) (fun c m => some (c, m)) := fun _ _ _ => rfl
  have same : (p.run (fun c m => some (c, m)) c []).map Prod.fst =
      (q.run (fun c m => some (c, m)) c []).map Prod.fst := by
    rw [run_sameEnd p accept c [] [], run_sameEnd q accept c [] [], alike]
  obtain ⟨⟨after, marks⟩, ran, rfl⟩ := Option.map_eq_some_iff.1 there
  rw [ran] at same
  obtain ⟨⟨after', marks'⟩, ran', ends⟩ := Option.map_eq_some_iff.1 same.symm
  refine ⟨⟨c.offset, after', marks'⟩, ?_, rfl, ends⟩
  rw [matchAt?, ran']
  rfl

end Pattern

end CallAtlas
