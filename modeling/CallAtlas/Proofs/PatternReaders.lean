/-
Module: CallAtlas.Proofs.PatternReaders
Purpose: Patterns as functions that read the front of a text.  The engine tries the ways in which a
  pattern matches in an order; a reader names the one that it settles for.  Some patterns match in
  one way at most, whatever follows.  Others have a first choice that nothing behind them refuses.
Main definitions: Reader, Pattern.ReadsOnly, Pattern.ReadsFirst, Reader.opens, restOfLine,
  throughFirst, throughQuote, throughDoubled
Main results: Pattern.ReadsFirst.seq, Pattern.ReadsFirst.either, Pattern.readsFirst_restOfLine,
  Pattern.readsFirst_throughFirst, Pattern.readsOnly_throughQuote,
  Pattern.readsFirst_throughDoubled
-/
import CallAtlas.Pattern.Search
import CallAtlas.Pattern.Vocabulary
import CallAtlas.Proofs.Encoding

namespace CallAtlas

/-- The position behind a front of what follows a position. -/
def Cursor.pass (c : Cursor) (front : Text) : Cursor :=
  ⟨front.getLast?.or c.before, c.offset + front.size, c.rest.drop front.length⟩

@[simp] theorem Cursor.pass_nil (c : Cursor) : c.pass [] = c := rfl

theorem Cursor.pass_pass (c : Cursor) (s t : Text) : (c.pass s).pass t = c.pass (s ++ t) := by
  simp [pass, List.getLast?_append, Option.or_assoc, Nat.add_assoc]

theorem Cursor.pass_cons (before : Option Char) (offset : Nat) (x : Char) (t s : Text) :
    Cursor.pass ⟨before, offset, x :: t⟩ (x :: s) =
      Cursor.pass ⟨some x, offset + x.utf8Size, t⟩ s :=
  (Cursor.pass_pass ⟨before, offset, x :: t⟩ [x] s).symm

/-- What is read at a position, given the character before it and the text that follows. -/
abbrev Reader := Option Char → Text → Option Text

namespace Reader

/-- One reader, then another behind what the first one has read. -/
def andThen (f g : Reader) : Reader := fun before t =>
  (f before t).bind fun s => (g (s.getLast?.or before) (t.drop s.length)).map (s ++ ·)

/-- One reader or, if it reads nothing, another. -/
def orElse (f g : Reader) : Reader := fun before t => (f before t).or (g before t)

/-- A text, if it stands there. -/
def literal (s : Text) : Reader := fun _ t => if s <+: t then some s else none

/-- Nothing at all, where the neighbours of the position pass a test. -/
def check (holds : Option Char → Option Char → Bool) : Reader := fun before t =>
  if holds before t.head? then some [] else none

/-- What a reader reads behind an opening text. -/
def opens (s : Text) (f : Reader) : Reader := (literal s).andThen f

theorem opens_eq_some_iff {s t w : Text} {f : Reader} {before : Option Char} :
    opens s f before t = some w ↔
      ∃ r v, t = s ++ r ∧ f (s.getLast?.or before) r = some v ∧ w = s ++ v := by
  simp only [opens, andThen, literal]
  constructor
  · intro reads
    split at reads
    · next starts =>
        obtain ⟨r, rfl⟩ := starts
        rw [Option.bind_some, List.drop_left, Option.map_eq_some_iff] at reads
        obtain ⟨v, read, rfl⟩ := reads
        exact ⟨r, v, rfl, read, rfl⟩
    · cases reads
  · rintro ⟨r, v, rfl, read, rfl⟩
    simp [read]

theorem literal_andThen (s t : Text) : (literal s).andThen (literal t) = literal (s ++ t) := by
  funext before text
  simp only [andThen, literal]
  by_cases starts : s <+: text
  · obtain ⟨r, rfl⟩ := starts
    by_cases goesOn : t <+: r <;> simp [List.prefix_append_right_inj, goesOn]
  · have neither : ¬s ++ t <+: text := fun both => starts ((List.prefix_append s t).trans both)
    simp [starts, neither]

end Reader

/-! ### Readers of repetitions -/

/-- Everything up to the end of the line. -/
def restOfLine : Reader := fun _ t => some (t.takeWhile (· != '\n'))

/-- Everything up to the first occurrence of a text, and that occurrence. -/
def throughFirst (fence : Text) : Text → Option Text
  | [] => if fence <+: [] then some fence else none
  | x :: t => if fence <+: x :: t then some fence else (throughFirst fence t).map (x :: ·)

/-- Everything up to the first quote that no backslash takes along, and the quote. -/
def throughQuote (quote : Char) (plain escapes : Char → Bool) : Text → Option Text
  | [] => none
  | x :: t =>
    if x = quote then some [x]
    else if x = '\\' then
      match t with
      | [] => none
      | y :: t => if escapes y then (throughQuote quote plain escapes t).map (x :: y :: ·) else none
    else if plain x then (throughQuote quote plain escapes t).map (x :: ·)
    else none

/-- Everything up to a quote that ends a string in which a quote is written as two, and the quote.
Two quotes are one of the string's own if it ends later on, else the first of them ends it. -/
def throughDoubled (quote : Char) (allowed : Char → Bool) : Text → Option Text
  | [] => none
  | x :: t =>
    if x = quote then
      (match t with
        | [] => none
        | y :: t =>
          if y = quote then (throughDoubled quote allowed t).map (x :: y :: ·) else none).or
        (some [x])
    else if allowed x then (throughDoubled quote allowed t).map (x :: ·)
    else none

section

variable {quote x y : Char} {plain escapes allowed : Char → Bool} {t : Text}

theorem throughQuote_quote : throughQuote quote plain escapes (quote :: t) = some [quote] := by
  rw [throughQuote.eq_def]
  simp

theorem throughQuote_backslash (other : quote ≠ '\\') :
    throughQuote quote plain escapes ('\\' :: y :: t) =
      if escapes y then (throughQuote quote plain escapes t).map ('\\' :: y :: ·) else none := by
  rw [throughQuote.eq_def]
  simp [other.symm]

theorem throughQuote_other (unquoted : x ≠ quote) (unescaped : x ≠ '\\') :
    throughQuote quote plain escapes (x :: t) =
      if plain x then (throughQuote quote plain escapes t).map (x :: ·) else none := by
  rw [throughQuote.eq_def]
  simp [unquoted, unescaped]

theorem throughDoubled_pair :
    throughDoubled quote allowed (quote :: quote :: t) =
      ((throughDoubled quote allowed t).map (quote :: quote :: ·)).or (some [quote]) := by
  rw [throughDoubled.eq_def]
  simp

theorem throughDoubled_single (alone : ∀ y ∈ t.head?, y ≠ quote) :
    throughDoubled quote allowed (quote :: t) = some [quote] := by
  rw [throughDoubled.eq_def]
  cases t with
  | nil => simp
  | cons y t => simp [alone y rfl]

theorem throughDoubled_other (unquoted : x ≠ quote) :
    throughDoubled quote allowed (x :: t) =
      if allowed x then (throughDoubled quote allowed t).map (x :: ·) else none := by
  rw [throughDoubled.eq_def]
  simp [unquoted]

end

namespace Pattern

open Reader

/-- A continuation that accepts every position. -/
def Accepting (next : Continuation) : Prop := ∀ c m, (next c m).isSome = true

/-- Whatever follows, the pattern matches what the reader reads and nothing else. -/
def ReadsOnly (p : Pattern) (f : Reader) : Prop :=
  ∀ next c m, p.run next c m = (f c.before c.rest).bind fun front => next (c.pass front) m

/-- If all positions are accepted behind it, the pattern matches what the reader reads. -/
def ReadsFirst (p : Pattern) (f : Reader) : Prop :=
  ∀ next, Accepting next → ∀ c m,
    p.run next c m = (f c.before c.rest).bind fun front => next (c.pass front) m

variable {p q : Pattern} {f g : Reader} {next : Continuation} {c : Cursor} {m : Marks}

theorem run_append : (p ++ q).run next c m = p.run (q.run next) c m := rfl

theorem run_either : (either p q).run next c m = (p.run next c m).or (q.run next c m) := by
  rw [run]
  cases p.run next c m <;> rfl

theorem ReadsOnly.first (only : p.ReadsOnly f) : p.ReadsFirst f := fun next _ => only next

/-! ### Composition -/

private theorem bind_andThen :
    ((f c.before c.rest).bind fun s =>
      (g (c.pass s).before (c.pass s).rest).bind fun t => next ((c.pass s).pass t) m) =
    (f.andThen g c.before c.rest).bind fun front => next (c.pass front) m := by
  simp only [andThen, Option.bind_assoc, Option.bind_map, Cursor.pass_pass]
  rfl

theorem ReadsOnly.seq (first : p.ReadsOnly f) (second : q.ReadsOnly g) :
    ReadsOnly (p ++ q) (f.andThen g) := by
  intro next c m
  rw [← bind_andThen, run_append, first]
  congr 1
  funext s
  exact second next (c.pass s) m

theorem ReadsFirst.seq (first : p.ReadsOnly f) (second : q.ReadsFirst g) :
    ReadsFirst (p ++ q) (f.andThen g) := by
  intro next accepting c m
  rw [← bind_andThen, run_append, first]
  congr 1
  funext s
  exact second next accepting (c.pass s) m

/-- An opening text, then a body and an end. -/
theorem ReadsFirst.opens {r : Pattern} {s : Text} (opening : p.ReadsOnly (literal s))
    (behind : ReadsFirst (q ++ r) g) : ReadsFirst (p ++ q ++ r) (Reader.opens s g) := by
  have both : ReadsFirst (p ++ (q ++ r)) (Reader.opens s g) := .seq opening behind
  exact both

theorem ReadsFirst.either (first : p.ReadsFirst f) (second : q.ReadsFirst g) :
    ReadsFirst (either p q) (f.orElse g) := by
  intro next accepting c m
  rw [run_either, first next accepting, second next accepting, orElse]
  cases f c.before c.rest with
  | none => rfl
  | some front =>
      obtain ⟨found, accepted⟩ := Option.isSome_iff_exists.1 (accepting (c.pass front) m)
      simp [accepted]

/-! ### Single patterns -/

section

variable {before : Option Char} {offset : Nat} {x y : Char} {t : Text}

theorem run_one_cons {accepts : Char → Bool} :
    (one accepts).run next ⟨before, offset, x :: t⟩ m =
      if accepts x then next ⟨some x, offset + x.utf8Size, t⟩ m else none := rfl

theorem run_char_cons :
    (char x).run next ⟨before, offset, y :: t⟩ m =
      if y = x then next ⟨some y, offset + y.utf8Size, t⟩ m else none := by
  simp [char, run_one_cons]

/-- To go on behind a character and what is read after it. -/
theorem bind_map_cons (read : Option Text) :
    ((read.map (x :: ·)).bind fun front => next (Cursor.pass ⟨before, offset, x :: t⟩ front) m) =
      read.bind fun front => next (Cursor.pass ⟨some x, offset + x.utf8Size, t⟩ front) m := by
  cases read with
  | none => rfl
  | some front => rw [Option.map_some, Option.bind_some, Option.bind_some, Cursor.pass_cons]

end

theorem readsOnly_char (x : Char) : (char x).ReadsOnly (literal [x]) := by
  rintro next ⟨before, offset, rest⟩ m
  cases rest with
  | nil => rfl
  | cons y t =>
      rw [run_char_cons]
      by_cases same : y = x
      · subst same
        simp [literal, Cursor.pass_cons]
      · simp [literal, same, Ne.symm same]

theorem readsOnly_lit (s : String) : (lit s).ReadsOnly (literal s.toList) := by
  rw [lit]
  induction s.toList with
  | nil =>
      intro next c m
      simp [literal, all, run]
  | cons x t ih =>
      have both := (readsOnly_char x).seq ih
      rw [literal_andThen] at both
      exact both

theorem readsOnly_here (holds : Option Char → Option Char → Bool) :
    (here holds).ReadsOnly (check holds) := by
  intro next c m
  rw [run, check]
  split
  · rw [Option.bind_some, Cursor.pass_nil]
  · rfl

/-! ### Repetitions -/

/-- The outcome of a repetition, from what one round and the end of it lead to.  Fuel is of no
concern here: a round goes on at a later position, where the outcome is known. -/
theorem run_many_of_unroll {body : Pattern} {greedy : Bool} {next : Continuation} {m : Marks}
    {outcome : Cursor → Option (Cursor × Marks)}
    (ended : ∀ c, c.rest = [] → next c m = outcome c)
    (unroll : ∀ c again, (∀ s, s ≠ [] → s <+: c.rest → again (c.pass s) m = outcome (c.pass s)) →
      (if greedy then (body.run again c m).or (next c m)
        else (next c m).or (body.run again c m)) = outcome c)
    (c : Cursor) : (many greedy body).run next c m = outcome c := by
  suffices rounds_eq : ∀ (fuel : Text) c, c.rest.length ≤ fuel.length →
      rounds body.run greedy next fuel c m = outcome c from rounds_eq c.rest c (Nat.le_refl _)
  intro fuel
  induction fuel with
  | nil =>
      intro c enough
      exact ended c (List.eq_nil_of_length_eq_zero (Nat.le_zero.1 enough))
  | cons y fuel ih =>
      intro c enough
      have later := unroll c fun c' m' =>
        if c.offset < c'.offset then rounds body.run greedy next fuel c' m' else none
      rw [← later]
      · rw [rounds]
        cases greedy
        · cases next c m <;> rfl
        · simp only [if_true]
          split <;> next round => simp [round]
      · rintro s filled ⟨r, rest⟩
        have forward : c.offset < (c.pass s).offset := by
          have : Text.size s ≠ 0 := fun empty => filled (Text.eq_nil_of_size_eq_zero empty)
          simp only [Cursor.pass]
          omega
        rw [if_pos forward, ih]
        have shorter : 0 < s.length := List.length_pos_iff.2 filled
        simp only [Cursor.pass, List.length_drop]
        simp only [List.length_cons] at enough
        omega

theorem readsFirst_restOfLine : anyInLine.star.ReadsFirst restOfLine := by
  intro next accepting c m
  apply run_many_of_unroll
  · rintro ⟨before, offset, rest⟩ rfl
    rfl
  · rintro ⟨before, offset, rest⟩ again later
    rw [if_pos rfl]
    cases rest with
    | nil => rfl
    | cons x t =>
        rw [anyInLine, run_one_cons]
        by_cases ends : x = '\n'
        · simp [restOfLine, ends]
        · have goesOn : (x != '\n') = true := by simpa using ends
          have step := later [x] (by simp) (by simp)
          rw [Cursor.pass_cons, Cursor.pass_nil] at step
          rw [if_pos goesOn, step]
          obtain ⟨found, accepted⟩ := Option.isSome_iff_exists.1
            (accepting (Cursor.pass ⟨some x, offset + x.utf8Size, t⟩ (t.takeWhile (· != '\n'))) m)
          simp [restOfLine, goesOn, Cursor.pass_cons, accepted]

theorem readsFirst_throughFirst (fence : String) :
    ReadsFirst (any.starLazy ++ lit fence) fun _ => throughFirst fence.toList := by
  intro next accepting c m
  change (many false any).run ((lit fence).run next) c m = _
  apply run_many_of_unroll
  · rintro ⟨before, offset, rest⟩ rfl
    rw [readsOnly_lit]
    rfl
  · rintro ⟨before, offset, rest⟩ again later
    rw [if_neg Bool.false_ne_true, readsOnly_lit]
    dsimp only [literal]
    by_cases starts : fence.toList <+: rest
    · obtain ⟨found, accepted⟩ := Option.isSome_iff_exists.1
        (accepting (Cursor.pass ⟨before, offset, rest⟩ fence.toList) m)
      have here : throughFirst fence.toList rest = some fence.toList := by
        cases rest <;> simp [throughFirst, starts]
      simp [here, starts, accepted]
    · rw [if_neg starts, Option.bind_none, Option.none_or]
      cases rest with
      | nil => simp [throughFirst, starts, any, run]
      | cons x t =>
          have step := later [x] (by simp) (by simp)
          rw [Cursor.pass_cons, Cursor.pass_nil] at step
          rw [any, run_one_cons, if_pos rfl, step, throughFirst, if_neg starts, bind_map_cons]

/-- The body of a string in which a backslash takes the character behind it along. -/
def escapedBody (plain escapes : Char → Bool) : Pattern :=
  either (char '\\' ++ one escapes) (one plain)

theorem readsOnly_throughQuote {quote : Char} {plain escapes : Char → Bool} (other : quote ≠ '\\')
    (noQuote : plain quote = false) (noEscape : plain '\\' = false) :
    ReadsOnly ((escapedBody plain escapes).star ++ char quote) fun _ =>
      throughQuote quote plain escapes := by
  intro next c m
  change (many true (escapedBody plain escapes)).run ((char quote).run next) c m = _
  apply run_many_of_unroll
  · rintro ⟨before, offset, rest⟩ rfl
    rw [readsOnly_char]
    rfl
  · rintro ⟨before, offset, rest⟩ again later
    rw [if_pos rfl]
    rw [escapedBody, run_either, run_append]
    cases rest with
    | nil => rfl
    | cons x t =>
        dsimp only
        rw [run_char_cons, run_one_cons, run_char_cons]
        by_cases quoted : x = quote
        · subst quoted
          simp [other, noQuote, throughQuote_quote, Cursor.pass_cons]
        · by_cases escape : x = '\\'
          · subst escape
            cases t with
            | nil => simp [quoted, noEscape, run, throughQuote]
            | cons y t =>
                have step := later ['\\', y] (by simp) (by simp)
                rw [Cursor.pass_cons, Cursor.pass_cons, Cursor.pass_nil] at step
                rw [throughQuote_backslash other, run_one_cons, step]
                by_cases taken : escapes y = true
                · simp only [taken, noEscape, quoted, if_true, if_false, Option.or_none]
                  cases throughQuote quote plain escapes t <;> simp [Cursor.pass_cons]
                · simp [quoted, noEscape, taken]
          · have step := later [x] (by simp) (by simp)
            rw [Cursor.pass_cons, Cursor.pass_nil] at step
            rw [throughQuote_other quoted escape, step]
            by_cases goesOn : plain x = true
            · simp only [quoted, escape, goesOn, if_true, if_false, Option.none_or, Option.or_none]
              rw [bind_map_cons]
            · simp [quoted, escape, goesOn]

/-- The body of a string in which a quote is written as two. -/
def doubledBody (quote : Char) (allowed : Char → Bool) : Pattern :=
  either (char quote ++ char quote) (one allowed)

theorem readsFirst_throughDoubled {quote : Char} {allowed : Char → Bool}
    (noQuote : allowed quote = false) :
    ReadsFirst ((doubledBody quote allowed).star ++ char quote) fun _ =>
      throughDoubled quote allowed := by
  intro next accepting c m
  change (many true (doubledBody quote allowed)).run ((char quote).run next) c m = _
  apply run_many_of_unroll
  · rintro ⟨before, offset, rest⟩ rfl
    rw [readsOnly_char]
    rfl
  · rintro ⟨before, offset, rest⟩ again later
    rw [if_pos rfl, doubledBody, run_either, run_append]
    cases rest with
    | nil => rfl
    | cons x t =>
        dsimp only
        rw [run_char_cons, run_one_cons, run_char_cons]
        by_cases quoted : x = quote
        · subst quoted
          rw [if_pos rfl, if_pos rfl, noQuote, if_neg Bool.false_ne_true, Option.or_none]
          cases t with
          | nil =>
              rw [throughDoubled_single (by simp)]
              simp [char, run, Cursor.pass_cons]
          | cons y t =>
              rw [run_char_cons]
              by_cases pair : y = x
              · subst pair
                have step := later [y, y] (by simp) (by simp)
                rw [Cursor.pass_cons, Cursor.pass_cons, Cursor.pass_nil] at step
                rw [if_pos rfl, step, throughDoubled_pair]
                dsimp only
                cases throughDoubled y allowed t with
                | none => simp [Cursor.pass_cons]
                | some front =>
                    -- the string that goes on is accepted, so it is not cut at the pair
                    obtain ⟨found, accepted⟩ := Option.isSome_iff_exists.1 (accepting
                      (Cursor.pass ⟨some y, offset + y.utf8Size + y.utf8Size, t⟩ front) m)
                    simp [Cursor.pass_cons, accepted]
              · rw [if_neg pair, throughDoubled_single (by simpa using pair)]
                simp [Cursor.pass_cons]
        · have step := later [x] (by simp) (by simp)
          rw [Cursor.pass_cons, Cursor.pass_nil] at step
          rw [throughDoubled_other quoted, step]
          by_cases goesOn : allowed x = true
          · simp only [quoted, goesOn, if_true, if_false, Option.none_or, Option.or_none]
            rw [bind_map_cons]
          · simp [quoted, goesOn]

/-! ### Marks -/

/-- The match that marks a front of what follows a position. -/
def markedMatch (c : Cursor) (group : Group) (front : Text) : Match :=
  ⟨c.offset, c.pass front, [(group, ⟨c.offset, c.offset + front.size⟩)]⟩

theorem matchAt?_either_marks (first : p.ReadsFirst f) (second : q.ReadsFirst g) (a b : Group)
    (c : Cursor) :
    (either (mark a p) (mark b q)).matchAt? c =
      ((f c.before c.rest).map (markedMatch c a)).or ((g c.before c.rest).map (markedMatch c b)) := by
  have marked : ∀ group, Accepting fun c' m' => some (c', (group, ⟨c.offset, c'.offset⟩) :: m') :=
    fun _ _ _ => rfl
  rw [matchAt?, run_either, run, run, first _ (marked a), second _ (marked b)]
  cases f c.before c.rest with
  | some front => rfl
  | none => cases g c.before c.rest <;> rfl

end Pattern

end CallAtlas
