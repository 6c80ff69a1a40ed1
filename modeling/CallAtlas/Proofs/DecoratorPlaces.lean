/-
Module: CallAtlas.Proofs.DecoratorPlaces
Purpose: The decorators of a header begin and end at positions of every view, since the blanks
  around them are taken greedily and what follows needs none of them.
Main definitions: Pattern.PassesBlanks, Pattern.parts, Pattern.decoratedInFront,
  DeclarationForm.decoratesInFront
Main results: Pattern.rounds_one_stops, Pattern.rounds_take_blanks, Pattern.run_decorators,
  DeclarationForm.decorators_firm, Language.decoratesInFront_of_grammar?
-/
import CallAtlas.Proofs.BodyPlaces
import CallAtlas.Proofs.DeclarationPlaces
import CallAtlas.Proofs.PatternCompleteness
import CallAtlas.Proofs.PatternReaders
import CallAtlas.Proofs.VisibleText

namespace CallAtlas

/-! ### Positions at blanks -/

/-- A blank is the next character. -/
def Cursor.AtBlank (c : Cursor) : Prop := ∃ x t, c.rest = x :: t ∧ isBlank x = true

theorem Cursor.AtBlank.lt_advance {c : Cursor} (blank : c.AtBlank) :
    c.offset < c.advance.offset := by
  obtain ⟨before, offset, _⟩ := c
  obtain ⟨x, t, rfl, _⟩ := blank
  exact Nat.lt_add_of_pos_right x.utf8Size_pos

theorem Cursor.In.firm_of_not_atBlank {t : Text} {c : Cursor} (inside : c.In t)
    (visible : ¬ c.AtBlank) : t.Firm c.offset := by
  refine inside.firm (Or.inr ?_)
  intro space
  obtain ⟨rest, split⟩ := List.head?_eq_some_iff.1 space
  exact visible ⟨' ', rest, split, by decide⟩

namespace Pattern

/-! ### Greedy repetitions -/

section Rounds

variable {round : Continuation → Continuation} {next : Continuation} {y : Char} {fuel : Text}
  {c : Cursor} {m : Marks} {r : Cursor × Marks}

/-- A greedy repetition tries a round before it stops. -/
theorem rounds_greedy_cons :
    rounds round true next (y :: fuel) c m =
      (round (fun c' m' => if c.offset < c'.offset then rounds round true next fuel c' m' else none)
        c m).or (next c m) := by
  rw [rounds]
  simp only [if_true]
  split <;> next tried => simp [tried]

/-- A greedy repetition that can stop at once succeeds. -/
theorem rounds_greedy_isSome (stops : (next c m).isSome) (fuel : Text) :
    (rounds round true next fuel c m).isSome := by
  cases fuel with
  | nil => exact stops
  | cons y fuel => rw [rounds_greedy_cons, Option.isSome_or, stops, Bool.or_true]

/-- A greedy repetition of one character stops where there is none to take, or where what follows
fails behind that character. -/
theorem rounds_one_stops {accepts : Char → Bool} (enough : c.rest.length ≤ fuel.length)
    (found : rounds (one accepts).run true next fuel c m = some r) :
    ∃ s c', c.Reads s c' ∧ next c' m = some r ∧
      ∀ x t, c'.rest = x :: t → accepts x = true → next c'.advance m = none := by
  induction fuel generalizing c with
  | nil =>
      have empty : c.rest = [] := List.eq_nil_of_length_eq_zero (Nat.le_zero.1 enough)
      refine ⟨[], c, .refl c, found, ?_⟩
      intro x t rest
      rw [empty] at rest
      cases rest
  | cons y fuel ih =>
      obtain ⟨before, offset, rest⟩ := c
      rw [rounds_greedy_cons] at found
      cases rest with
      | nil => exact ⟨[], _, .refl _, found, fun x t rest => by cases rest⟩
      | cons x t =>
          have moves : offset < offset + x.utf8Size := Nat.lt_add_of_pos_right x.utf8Size_pos
          rw [run_one_cons, if_pos moves] at found
          rcases Option.or_eq_some_iff.1 found with again | ⟨stopped, ends⟩
          · split at again
            · have shorter : t.length ≤ fuel.length := by simpa using enough
              obtain ⟨s, c', reads, ends, stops⟩ := ih shorter again
              exact ⟨[x] ++ s, c', (Cursor.Reads.single ..).trans reads, ends, stops⟩
            · cases again
          · refine ⟨[], _, .refl _, ends, ?_⟩
            rintro _ _ ⟨rfl, rfl⟩ accepted
            rw [if_pos accepted] at stopped
            -- a repetition that could stop behind the character would have gone on to there
            rw [← Option.not_isSome_iff_eq_none]
            intro accepting
            have goesOn : (rounds (one accepts).run true next fuel
                (Cursor.advance ⟨before, offset, x :: t⟩) m).isSome :=
              rounds_greedy_isSome accepting fuel
            exact absurd stopped (Option.isSome_iff_ne_none.1 goesOn)

end Rounds

/-! ### Patterns that need no blank in front -/

/-- Whether no match begins with a blank. -/
def shunsBlank : Pattern → Bool
  | empty | here _ => true
  | one accepts => onlyVisible accepts
  | seq p q => p.opensVisible || (p.shunsBlank && q.shunsBlank)
  | either p q => p.shunsBlank && q.shunsBlank
  | many _ p | mark _ p => p.shunsBlank

/-- Whether the empty text is a match at every position. -/
def skippable : Pattern → Bool
  | empty | many _ _ => true
  | one _ | here _ => false
  | seq p q => p.skippable && q.skippable
  | either p q => p.skippable || q.skippable
  | mark _ p => p.skippable

/-- What matches at a blank matches behind the blank as well, up to the same position. -/
def PassesBlanks (p : Pattern) : Prop :=
  ∀ c c' m, p.Matches c c' m → c.AtBlank → ∃ m', p.Matches c.advance c' m'

variable {p q : Pattern} {c c' : Cursor} {m : Marks}

theorem Matches.not_atBlank (found : p.Matches c c' m) (opens : p.opensVisible = true) :
    ¬ c.AtBlank := by
  rintro ⟨x, t, rest, blank⟩
  obtain ⟨y, s, reads, visible⟩ := found.opens_visible opens
  rw [reads.rest, List.cons_append] at rest
  obtain ⟨rfl, _⟩ := List.cons.inj rest
  exact Bool.false_ne_true (visible.symm.trans blank)

theorem Matches.eq_of_shunsBlank (found : p.Matches c c' m) (shuns : p.shunsBlank = true)
    (blank : c.AtBlank) : c' = c := by
  induction found with
  | empty => rfl
  | one accepted => exact absurd blank (Matches.not_atBlank (.one accepted) shuns)
  | here _ => rfl
  | seq first _ ih₁ ih₂ =>
      simp only [shunsBlank, Bool.or_eq_true, Bool.and_eq_true] at shuns
      rcases shuns with opens | ⟨shuns₁, shuns₂⟩
      · exact absurd blank (first.not_atBlank opens)
      · obtain rfl := ih₁ shuns₁ blank
        exact ih₂ shuns₂ blank
  | first _ ih =>
      simp only [shunsBlank, Bool.and_eq_true] at shuns
      exact ih shuns.1 blank
  | second _ ih =>
      simp only [shunsBlank, Bool.and_eq_true] at shuns
      exact ih shuns.2 blank
  | done => rfl
  | round _ _ ih₁ ih₂ =>
      obtain rfl := ih₁ shuns blank
      exact ih₂ shuns blank
  | mark _ ih => exact ih shuns blank

theorem exists_matches_of_skippable (skips : p.skippable = true) (c : Cursor) :
    ∃ m, p.Matches c c m := by
  induction p with
  | empty => exact ⟨_, .empty⟩
  | one _ => cases skips
  | here _ => cases skips
  | seq p q ihp ihq =>
      simp only [skippable, Bool.and_eq_true] at skips
      obtain ⟨_, first⟩ := ihp skips.1
      obtain ⟨_, second⟩ := ihq skips.2
      exact ⟨_, .seq first second⟩
  | either p q ihp ihq =>
      simp only [skippable, Bool.or_eq_true] at skips
      rcases skips with skips | skips
      · obtain ⟨_, found⟩ := ihp skips
        exact ⟨_, .first found⟩
      · obtain ⟨_, found⟩ := ihq skips
        exact ⟨_, .second found⟩
  | many greedy p ih => exact ⟨_, .done⟩
  | mark group p ih =>
      obtain ⟨_, found⟩ := ih skips
      exact ⟨_, .mark found⟩

namespace PassesBlanks

theorem of_opensVisible (opens : p.opensVisible = true) : p.PassesBlanks :=
  fun _ _ _ found blank => absurd blank (found.not_atBlank opens)

/-- Before a part that can be left out and takes no blank. -/
theorem skip (shuns : p.shunsBlank = true) (skips : p.skippable = true) (passes : q.PassesBlanks) :
    (p ++ q).PassesBlanks := by
  intro c c' m found blank
  cases found with
  | seq first second =>
      obtain rfl := first.eq_of_shunsBlank shuns blank
      obtain ⟨_, later⟩ := passes _ _ _ second blank
      obtain ⟨_, skipped⟩ := exists_matches_of_skippable skips (Cursor.advance _)
      exact ⟨_, .seq skipped later⟩

/-- Before any number of characters of one kind. -/
theorem many_one {greedy : Bool} {accepts : Char → Bool} (passes : q.PassesBlanks) :
    (many greedy (one accepts) ++ q).PassesBlanks := by
  intro c c' m found blank
  cases found with
  | seq first second =>
      cases first with
      | done =>
          obtain ⟨_, later⟩ := passes _ _ _ second blank
          exact ⟨_, .seq .done later⟩
      | round taken more =>
          cases taken with
          | one _ => exact ⟨_, .seq more second⟩

end PassesBlanks

/-! ### Parts of a pattern -/

/-- The patterns that a pattern matches one after the other. -/
def parts : Pattern → List Pattern
  | seq p q => p.parts ++ q.parts
  | p => [p]

theorem run_all_append (ps qs : List Pattern) (next : Continuation) :
    (all (ps ++ qs)).run next = (all ps).run ((all qs).run next) := by
  induction ps with
  | nil => rfl
  | cons p ps ih =>
      funext c m
      exact congrArg (fun next => p.run next c m) ih

/-- A pattern runs as its parts do, one after the other. -/
theorem run_all_parts (p : Pattern) (next : Continuation) :
    (all p.parts).run next = p.run next := by
  induction p generalizing next with
  | seq p q ihp ihq =>
      rw [parts, run_all_append, ihp, ihq]
      rfl
  | _ => rfl

/-- Whether a run of patterns needs no blank in front. -/
def partsPassBlanks : List Pattern → Bool
  | [] => false
  | many _ (one _) :: ps => partsPassBlanks ps
  | p :: ps => p.opensVisible || (p.shunsBlank && p.skippable && partsPassBlanks ps)

theorem passesBlanks_all {ps : List Pattern} (check : partsPassBlanks ps = true) :
    (all ps).PassesBlanks := by
  fun_induction partsPassBlanks ps with
  | case1 => cases check
  | case2 _ _ ps ih => exact (ih check).many_one
  | case3 p ps _ ih =>
      simp only [Bool.or_eq_true, Bool.and_eq_true] at check
      rcases check with opens | ⟨⟨shuns, skips⟩, check⟩
      · refine .of_opensVisible ?_
        exact Bool.or_eq_true_iff.2 (Or.inl opens)
      · exact (ih check).skip shuns skips

/-! ### What follows a greedy repetition -/

/-- A continuation that needs no blank in front: it succeeds behind a blank if it does before it. -/
def Unblanked (next : Continuation) : Prop :=
  ∀ c m, c.AtBlank → (next c m).isSome → ∀ m', (next c.advance m').isSome

theorem PassesBlanks.unblanked (passes : p.PassesBlanks) {next : Continuation}
    (accepting : Accepting next) : Unblanked (p.run next) := by
  intro c m blank succeeds m'
  obtain ⟨r, ran⟩ := Option.isSome_iff_exists.1 succeeds
  obtain ⟨c', _, found, _⟩ := run_sound ran
  obtain ⟨_, later⟩ := passes c c' _ found blank
  exact run_isSome later (accepting c') m'

variable {accepts : Char → Bool} {next : Continuation} {fuel t : Text} {r : Cursor × Marks}

/-- A greedy repetition that takes spaces ends before none, if what follows needs none. -/
theorem firm_of_takes_spaces (takes : accepts ' ' = true) (unblanked : Unblanked next)
    (inside : c.In t) (found : (many true (one accepts)).run next c m = some r) :
    ∃ c', c'.In t ∧ t.Firm c'.offset ∧ next c' m = some r := by
  obtain ⟨s, c', reads, ends, stops⟩ := rounds_one_stops (Nat.le_refl _) found
  have there := inside.of_reads reads
  refine ⟨c', there, there.firm (Or.inr ?_), ends⟩
  intro space
  obtain ⟨rest, split⟩ := List.head?_eq_some_iff.1 space
  have blank : c'.AtBlank := ⟨' ', rest, split, by decide⟩
  have later := unblanked c' m blank (Option.isSome_of_eq_some ends) m
  exact absurd (stops ' ' rest split takes) (Option.isSome_iff_ne_none.1 later)

/-- Rounds that end with all the blanks there are leave none to what follows, if it needs none. -/
theorem rounds_take_blanks {body lead : Pattern}
    (shape : ∀ next, body.run next = lead.run ((many true (one accepts)).run next))
    (takes : ∀ x, isBlank x = true → accepts x = true) (unblanked : Unblanked next)
    (found : rounds body.run true next fuel c m = some r) :
    ∃ s c' m', c.Reads s c' ∧ next c' m' = some r ∧ (c' = c ∨ ¬ c'.AtBlank) := by
  induction fuel generalizing c m with
  | nil => exact ⟨[], c, m, .refl c, found, Or.inl rfl⟩
  | cons y fuel ih =>
      rw [rounds_greedy_cons] at found
      rcases Option.or_eq_some_iff.1 found with round | ⟨_, ends⟩
      · rw [shape] at round
        obtain ⟨c₁, m₁, opened, blanks⟩ := run_sound round
        obtain ⟨s₁, reads₁⟩ := opened.reads
        obtain ⟨s₂, c₂, reads₂, again, stops⟩ := rounds_one_stops (Nat.le_refl _) blanks
        split at again
        · next moves =>
            obtain ⟨s, c', m', reads, ends, side⟩ := ih again
            refine ⟨_, c', m', (reads₁.trans reads₂).trans reads, ends, Or.inr ?_⟩
            rcases side with rfl | side
            · -- no further round follows, so a blank that is left could have been taken
              rintro ⟨x, t, rest, isBlank⟩
              have blank : c'.AtBlank := ⟨x, t, rest, isBlank⟩
              have fails := stops x t rest (takes x isBlank)
              rw [if_pos (Nat.lt_trans moves blank.lt_advance)] at fails
              have behind := unblanked c' _ blank (Option.isSome_of_eq_some ends) (m₁ ++ m)
              have goesOn : (rounds body.run true next fuel c'.advance (m₁ ++ m)).isSome :=
                rounds_greedy_isSome behind fuel
              exact absurd fails (Option.isSome_iff_ne_none.1 goesOn)
            · exact side
        · cases again
      · exact ⟨[], c, m, .refl c, ends, Or.inl rfl⟩

/-! ### Decorators -/

/-- Whether a pattern ends with all the blanks there are. -/
def takesBlanks (body : Pattern) : Bool :=
  match body.parts.reverse with
  | many true (one accepts) :: _ => blanks.all accepts
  | _ => false

/-- Whether a header begins on a line with decorators, each with the blanks behind it, and goes on
with something that needs none of the blanks. -/
def decoratedInFront (header : Pattern) : Bool :=
  match header.parts with
  | here _ :: many true (one indents) :: mark .decorators (many true body) :: rest =>
    indents ' ' && body.shunsBlank && body.takesBlanks && partsPassBlanks rest &&
      ((all rest).marked .decorators).isEmpty
  | _ => false

theorem exists_lead_of_takesBlanks {body : Pattern} (check : body.takesBlanks = true) :
    ∃ (lead : Pattern) (accepts : Char → Bool),
      (∀ next, body.run next = lead.run ((many true (one accepts)).run next)) ∧
        ∀ x, isBlank x = true → accepts x = true := by
  unfold takesBlanks at check
  split at check
  · next accepts lead reversed =>
      have split : body.parts = lead.reverse ++ [many true (one accepts)] := by
        rw [← List.reverse_reverse body.parts, reversed, List.reverse_cons]
      refine ⟨all lead.reverse, accepts, fun next => ?_, fun x blank => ?_⟩
      · rw [← run_all_parts body, split, run_all_append]
        rfl
      · exact List.all_eq_true.1 check x (mem_blanks blank)
  · cases check

theorem Matches.find?_group {group : Group} (found : p.Matches c c' m)
    (unmarked : p.marked group = []) : m.find? (fun mark => mark.1 = group) = none := by
  rw [List.find?_eq_none]
  rintro ⟨g, span⟩ listed same
  simp only [decide_eq_true_eq] at same
  subst same
  obtain ⟨q, isMarked, _⟩ := found.exists_marked listed
  rw [unmarked] at isMarked
  cases isMarked

/-- Decorators behind an indentation begin and end before something else than a space. -/
theorem run_decorators {indents : Char → Bool} {body rest : Pattern} (takes : indents ' ' = true)
    (shuns : (mark .decorators (many true body)).shunsBlank = true)
    (takesBlanks : body.takesBlanks = true) (passes : rest.PassesBlanks)
    (accepting : Accepting next) (inside : c.In t)
    (found : (many true (one indents)).run
      ((mark .decorators (many true body) ++ rest).run next) c m = some r) :
    ∃ span m', t.Firm span.start ∧ t.Firm span.stop ∧ span.start ≤ span.stop ∧
      ∃ c', rest.run next c' ((.decorators, span) :: m') = some r := by
  have needsNone := (passes.skip shuns rfl).unblanked accepting
  obtain ⟨c₁, inside₁, start, read⟩ := firm_of_takes_spaces takes needsNone inside found
  obtain ⟨lead, accepts, shape, blanks⟩ := exists_lead_of_takesBlanks takesBlanks
  obtain ⟨s, c₂, m₂, reads, ends, side⟩ := rounds_take_blanks shape blanks
    (fun c _ blank succeeds _ => passes.unblanked accepting c _ blank succeeds _) read
  refine ⟨⟨c₁.offset, c₂.offset⟩, m₂, start, ?_, reads.le, c₂, ends⟩
  rcases side with rfl | visible
  · exact start
  · exact (inside₁.of_reads reads).firm_of_not_atBlank visible

theorem FoundIn.decorators_firm {header : Pattern} {m : Match} {span : Span}
    (check : header.decoratedInFront = true) (found : header.FoundIn t m)
    (isMarked : m.group? .decorators = some span) :
    t.Firm span.start ∧ t.Firm span.stop ∧ span.start ≤ span.stop := by
  unfold decoratedInFront at check
  split at check
  · next holds indents body rest isParts =>
      simp only [Bool.and_eq_true, List.isEmpty_iff] at check
      obtain ⟨⟨⟨⟨takes, shuns⟩, takesBlanks⟩, passes⟩, sole⟩ := check
      obtain ⟨c, inside, there⟩ := found
      obtain ⟨⟨last, marks⟩, ran, rfl⟩ := Option.map_eq_some_iff.1 there
      rw [← run_all_parts, isParts] at ran
      obtain ⟨c₀, m₀, start, indented⟩ := run_sound (p := here holds) ran
      obtain ⟨s₀, reads₀⟩ := start.reads
      obtain ⟨span', m₁, starts, stops, ordered, c₁, read⟩ :=
        run_decorators takes shuns takesBlanks (passesBlanks_all passes) (fun _ _ => rfl)
          (inside.of_reads reads₀) indented
      -- nothing behind the decorators is marked as such
      obtain ⟨c₂, m₂, behind, made⟩ := run_sound read
      obtain ⟨rfl, rfl⟩ := Prod.mk.inj (Option.some.inj made)
      obtain rfl : span' = span := by
        simpa [Match.group?, List.find?_append, behind.find?_group sole] using isMarked
      exact ⟨starts, stops, ordered⟩
  · cases check

end Pattern

/-! ### Forms -/

/-- The header of a form has its decorators in front, if it marks any. -/
def DeclarationForm.decoratesInFront (form : DeclarationForm) : Bool :=
  (form.header.marked .decorators).isEmpty || form.header.decoratedInFront

theorem DeclarationForm.decorators_firm {form : DeclarationForm} {code : Text} {m : Match}
    {span : Span} (check : form.decoratesInFront = true)
    (found : form.header.FoundIn code m) (isMarked : m.group? .decorators = some span) :
    code.Firm span.start ∧ code.Firm span.stop ∧ span.start ≤ span.stop := by
  rcases Bool.or_eq_true_iff.1 check with unmarked | inFront
  · obtain ⟨q, isPart, _⟩ := found.exists_group isMarked
    rw [List.isEmpty_iff.1 unmarked] at isPart
    cases isPart
  · exact found.decorators_firm inFront isMarked

/-- All forms of a language have their decorators in front. -/
def Grammar.decoratesInFront (g : Grammar) : Bool :=
  g.declarations.all DeclarationForm.decoratesInFront

theorem Language.decoratesInFront_of_grammar? {lang : Language} {g : Grammar}
    (scanned : lang.grammar? = some g) : g.decoratesInFront = true :=
  Language.passes_of_grammar? (by decide +kernel) scanned

end CallAtlas
