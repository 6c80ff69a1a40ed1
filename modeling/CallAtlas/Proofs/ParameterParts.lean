/-
Module: CallAtlas.Proofs.ParameterParts
Purpose: Where a list of parameters is cut into parts.  One counter stands for brackets of four
  kinds, and angle brackets are also signs of other things: of comparisons and of arrows.  As long
  as every `>` inside a pair of brackets closes a `<` of that pair, the counter is at least the
  number of pairs that are open, so no comma inside a pair is a cut.  A `>` that closes nothing
  lowers the counter too far.
Main definitions: Text.Nested, Text.AnglesClose, depthAfter, CutsOutside, Covers
Main results: join_splitAtDepth, splitAtDepth_append_comma, nestedFrom_splitAtDepth_iff,
  Covers.run, parts_nested_iff_cuts_outside
-/
import CallAtlas.Proofs.BlockPlaces
import CallAtlas.Proofs.VisibleText
import CallAtlas.Scan.Parameter
import Mathlib.Algebra.Ring.Nat

namespace CallAtlas

/-! ### Pairs of brackets -/

/-- The bracket that closes an opening one.  Angle brackets are not among them. -/
def closerOf? (c : Char) : Option Char :=
  if c = '(' then some ')' else if c = '[' then some ']' else if c = '{' then some '}' else none

/-- The brackets that are still to be closed behind one more character, the innermost one first.
There are none behind a bracket that closes nothing, or not what was opened last. -/
def pendingStep (pending : List Char) (c : Char) : Option (List Char) :=
  match closerOf? c with
  | some closer => some (closer :: pending)
  | none =>
    if isClosing c then
      match pending with
      | [] => none
      | closer :: more => if closer = c then some more else none
    else some pending

/-- The brackets that are still to be closed behind a text. -/
def pendingAfter? (pending : List Char) (t : Text) : Option (List Char) :=
  t.foldlM pendingStep pending

/-- Every bracket `(`, `[` or `{` of a text is closed by its own kind, in the right order, and
nothing else is closed. -/
def Text.Nested (t : Text) : Prop := pendingAfter? [] t = some []

instance (t : Text) : Decidable t.Nested := inferInstanceAs (Decidable (_ = _))

/-- The numbers of angle brackets that are open in each open pair, the innermost pair first, behind
one more character.  There are none behind a `>` that closes no `<` of the innermost pair.  Outside
all pairs angle brackets are not counted. -/
def angleStep (counts : List Nat) (c : Char) : Option (List Nat) :=
  if isOpening c then some (0 :: counts)
  else if isClosing c then some counts.tail
  else
    match counts with
    | [] => some []
    | n :: more =>
      if c = '<' then some ((n + 1) :: more)
      else if c = '>' then if n = 0 then none else some ((n - 1) :: more)
      else some (n :: more)

/-- The numbers of open angle brackets behind a text. -/
def anglesAfter? (counts : List Nat) (t : Text) : Option (List Nat) := t.foldlM angleStep counts

/-- Every `>` inside a pair of brackets closes a `<` of that pair. -/
def Text.AnglesClose (t : Text) : Prop := (anglesAfter? [] t).isSome = true

instance (t : Text) : Decidable t.AnglesClose := inferInstanceAs (Decidable (_ = _))

section Pairs

variable {c : Char} {pending : List Char} {t : Text}

theorem pendingAfter?_cons :
    pendingAfter? pending (c :: t) =
      (pendingStep pending c).bind fun after => pendingAfter? after t :=
  rfl

theorem pendingAfter?_append (s : Text) :
    pendingAfter? pending (s ++ t) =
      (pendingAfter? pending s).bind fun after => pendingAfter? after t := by
  rw [pendingAfter?, List.foldlM_append]
  rfl

theorem closerOf?_isSome : (closerOf? c).isSome = isOpening c := by
  unfold closerOf? isOpening
  split
  · next same => simp [same]
  · next notRound =>
      split
      · next same => simp [same]
      · next notSquare =>
          split
          · next same => simp [same]
          · next notCurly => simp [notRound, notSquare, notCurly]

/-- What a character does to the pending brackets. -/
theorem pendingStep_cases {after : List Char} (step : pendingStep pending c = some after) :
    (isOpening c = true ∧ ∃ closer, after = closer :: pending) ∨
      (isOpening c = false ∧ isClosing c = true ∧ pending = c :: after) ∨
      (isOpening c = false ∧ isClosing c = false ∧ after = pending) := by
  unfold pendingStep at step
  split at step
  · next closer opens =>
      refine .inl ⟨?_, closer, (Option.some.inj step).symm⟩
      rw [← closerOf?_isSome, opens]
      rfl
  · next none =>
      have opens : isOpening c = false := by
        rw [← closerOf?_isSome, none]
        rfl
      split at step
      · next closes =>
          cases pending with
          | nil => cases step
          | cons closer more =>
              simp only at step
              split at step
              · next same =>
                  obtain rfl := Option.some.inj step
                  exact .inr (.inl ⟨opens, closes, by rw [same]⟩)
              · cases step
      · next closes =>
          have closes : isClosing c = false := by simpa using closes
          exact .inr (.inr ⟨opens, closes, (Option.some.inj step).symm⟩)

theorem pendingStep_of_no_bracket (opens : isOpening c = false) (closes : isClosing c = false) :
    pendingStep pending c = some pending := by
  have none : closerOf? c = none := by
    rw [← Option.not_isSome_iff_eq_none, closerOf?_isSome, opens]
    exact Bool.false_ne_true
  unfold pendingStep
  rw [none]
  simp [closes]

/-- Characters that are no brackets change nothing. -/
theorem pendingAfter?_of_no_brackets
    (plain : ∀ c ∈ t, isOpening c = false ∧ isClosing c = false) :
    pendingAfter? pending t = some pending := by
  induction t with
  | nil => rfl
  | cons c t ih =>
      obtain ⟨opens, closes⟩ := plain c List.mem_cons_self
      rw [pendingAfter?_cons, pendingStep_of_no_bracket opens closes, Option.bind_some]
      exact ih fun x listed => plain x (List.mem_cons_of_mem c listed)

end Pairs

/-! ### The counter -/

/-- The counter behind one more character. -/
def depthStep (depth : Nat) (c : Char) : Nat :=
  if opensGroup c then depth + 1 else if closesGroup c then depth - 1 else depth

/-- The counter behind a text. -/
def depthAfter (depth : Nat) (t : Text) : Nat := t.foldl depthStep depth

section Counter

variable {depth : Nat} {c : Char} {t : Text}

theorem splitAtDepth_comma : splitAtDepth 0 (',' :: t) = [] :: splitAtDepth 0 t := by
  rw [splitAtDepth]
  rfl

theorem splitAtDepth_ne_nil (depth : Nat) (t : Text) : splitAtDepth depth t ≠ [] := by
  cases t with
  | nil => simp [splitAtDepth]
  | cons c t =>
      rw [splitAtDepth]
      split
      · simp
      · dsimp only
        generalize splitAtDepth _ t = pieces
        cases pieces <;> simp

/-- A character that is no cut belongs to the first piece of the rest. -/
theorem splitAtDepth_cons (goesOn : ¬ (c = ',' ∧ depth = 0)) :
    ∃ piece pieces, splitAtDepth (depthStep depth c) t = piece :: pieces ∧
      splitAtDepth depth (c :: t) = (c :: piece) :: pieces := by
  rw [splitAtDepth, if_neg (by simpa using goesOn)]
  cases rest : splitAtDepth (depthStep depth c) t with
  | nil => exact absurd rest (splitAtDepth_ne_nil _ t)
  | cons piece pieces =>
      refine ⟨piece, pieces, rfl, ?_⟩
      rw [depthStep] at rest
      dsimp only
      rw [rest]

/-- Nothing but the commas between them is missing from the pieces. -/
theorem join_splitAtDepth (depth : Nat) (t : Text) :
    Text.join [','] (splitAtDepth depth t) = t := by
  induction t generalizing depth with
  | nil => rfl
  | cons c t ih =>
      by_cases cut : c = ',' ∧ depth = 0
      · obtain ⟨rfl, rfl⟩ := cut
        have joined := ih 0
        rw [splitAtDepth_comma]
        cases rest : splitAtDepth 0 t with
        | nil => exact absurd rest (splitAtDepth_ne_nil 0 t)
        | cons piece pieces =>
            rw [rest] at joined
            exact congrArg (',' :: ·) joined
      · obtain ⟨piece, pieces, rest, whole⟩ := splitAtDepth_cons (t := t) cut
        have joined := ih (depthStep depth c)
        rw [rest] at joined
        rw [whole]
        cases pieces with
        | nil => exact congrArg (c :: ·) joined
        | cons next more => exact congrArg (c :: ·) joined

end Counter

/-! ### Cuts and pairs -/

/-- Wherever the counter is zero at a comma of a text, no bracket is pending. -/
def CutsOutside (depth : Nat) (pending : List Char) (t : Text) : Prop :=
  ∀ p s, t = p ++ ',' :: s → depthAfter depth p = 0 → pendingAfter? pending p = some []

/-- The first of some pieces closes what is pending, and the others are nested. -/
def NestedFrom (pending : List Char) : List Text → Prop
  | [] => False
  | piece :: others => pendingAfter? pending piece = some [] ∧ ∀ other ∈ others, other.Nested

theorem nestedFrom_nil_iff {pieces : List Text} (filled : pieces ≠ []) :
    NestedFrom [] pieces ↔ ∀ piece ∈ pieces, piece.Nested := by
  cases pieces with
  | nil => exact absurd rfl filled
  | cons piece others =>
      rw [List.forall_mem_cons]
      exact Iff.rfl

section Cuts

variable {depth : Nat} {c : Char} {pending after : List Char} {t : Text}

theorem cutsOutside_cons (step : pendingStep pending c = some after) :
    CutsOutside depth pending (c :: t) ↔
      (c = ',' ∧ depth = 0 → pending = []) ∧ CutsOutside (depthStep depth c) after t := by
  have behind : ∀ p, pendingAfter? pending (c :: p) = pendingAfter? after p := by
    intro p
    rw [pendingAfter?_cons, step, Option.bind_some]
  constructor
  · intro outside
    constructor
    · rintro ⟨rfl, rfl⟩
      exact Option.some.inj (outside [] t rfl rfl)
    · rintro p s rfl atZero
      rw [← behind]
      exact outside (c :: p) s rfl atZero
  · rintro ⟨here, later⟩ p s split atZero
    cases p with
    | nil =>
        obtain ⟨rfl, rfl⟩ := List.cons.inj split
        rw [here ⟨rfl, atZero⟩]
        rfl
    | cons x p =>
        obtain ⟨rfl, rest⟩ := List.cons.inj split
        rw [behind]
        exact later p s rest atZero

/-- The pieces of a text are nested exactly if all cuts are outside all pairs.  The induction goes
along the text, with the brackets that the first piece has to close. -/
theorem nestedFrom_splitAtDepth_iff (closes : pendingAfter? pending t = some []) :
    NestedFrom pending (splitAtDepth depth t) ↔ CutsOutside depth pending t := by
  induction t generalizing depth pending with
  | nil =>
      constructor
      · rintro _ p s split
        cases p <;> cases split
      · intro _
        exact ⟨closes, by simp⟩
  | cons c t ih =>
      obtain ⟨after, step, rest⟩ := Option.bind_eq_some_iff.1 (pendingAfter?_cons ▸ closes)
      rw [cutsOutside_cons step, ← ih rest]
      by_cases cut : c = ',' ∧ depth = 0
      · obtain ⟨rfl, rfl⟩ := cut
        obtain rfl : pending = after := by
          rw [pendingStep_of_no_bracket (by decide) (by decide)] at step
          exact Option.some.inj step
        have first : pendingAfter? pending [] = some [] ↔ pending = [] := Option.some_inj
        have same : depthStep 0 ',' = 0 := rfl
        rw [splitAtDepth_comma, NestedFrom, first, same]
        refine ⟨fun both => ⟨fun _ => both.1, ?_⟩, fun both => ?_⟩
        · rw [both.1, nestedFrom_nil_iff (splitAtDepth_ne_nil 0 t)]
          exact both.2
        · have empty := both.1 ⟨rfl, rfl⟩
          have others := both.2
          rw [empty, nestedFrom_nil_iff (splitAtDepth_ne_nil 0 t)] at others
          exact ⟨empty, others⟩
      · obtain ⟨piece, pieces, whole, wholeCons⟩ := splitAtDepth_cons (t := t) cut
        rw [wholeCons, whole, NestedFrom, NestedFrom, pendingAfter?_cons, step, Option.bind_some]
        exact (and_iff_right fun isCut => absurd isCut cut).symm

end Cuts

/-! ### The counter and the open pairs -/

/-- A comma at which the counter is zero separates two pieces. -/
theorem splitAtDepth_append_comma {depth : Nat} {p : Text} (s : Text)
    (atZero : depthAfter depth p = 0) :
    splitAtDepth depth (p ++ ',' :: s) = splitAtDepth depth p ++ splitAtDepth 0 s := by
  induction p generalizing depth with
  | nil =>
      obtain rfl : depth = 0 := atZero
      exact splitAtDepth_comma
  | cons c p ih =>
      rw [List.cons_append]
      by_cases cut : c = ',' ∧ depth = 0
      · obtain ⟨rfl, rfl⟩ := cut
        have zero : depthAfter 0 p = 0 := atZero
        rw [splitAtDepth_comma, splitAtDepth_comma, ih zero, List.cons_append]
      · obtain ⟨piece, pieces, rest, whole⟩ := splitAtDepth_cons (t := p) cut
        obtain ⟨first, others, restAll, wholeAll⟩ :=
          splitAtDepth_cons (t := p ++ ',' :: s) cut
        rw [ih atZero, rest, List.cons_append] at restAll
        obtain ⟨rfl, rfl⟩ := List.cons.inj restAll
        rw [wholeAll, whole, List.cons_append]

section Invariant

variable {depth : Nat} {c : Char} {pending after : List Char} {counts later : List Nat} {t : Text}

theorem depthStep_of_opening (opens : isOpening c = true) : depthStep depth c = depth + 1 := by
  have group : opensGroup c = true := by
    unfold isOpening at opens
    unfold opensGroup
    grind
  rw [depthStep, if_pos group]

theorem depthStep_of_closing (closes : isClosing c = true) : depthStep depth c = depth - 1 := by
  have group : opensGroup c = false ∧ closesGroup c = true := by
    unfold isClosing at closes
    unfold opensGroup closesGroup
    grind
  rw [depthStep, if_neg (Bool.eq_false_iff.1 group.1), if_pos group.2]

/-- Apart from the brackets that come in pairs only angle brackets are counted. -/
theorem depthStep_of_no_bracket (opens : isOpening c = false) (closes : isClosing c = false) :
    depthStep depth c = if c = '<' then depth + 1 else if c = '>' then depth - 1 else depth := by
  unfold isOpening at opens
  unfold isClosing at closes
  unfold depthStep opensGroup closesGroup
  grind

/-- The counter is at least the number of the open pairs and of the angle brackets that are open in
them. -/
structure Covers (depth : Nat) (pending : List Char) (counts : List Nat) : Prop where
  /-- One number belongs to each open pair. -/
  paired : counts.length = pending.length
  /-- The counter is large enough. -/
  enough : pending.length + counts.sum ≤ depth

/-- Inside a pair an angle bracket changes the counter at least as much as its number. -/
theorem angleStep_inside {n : Nat} (opens : isOpening c = false) (closes : isClosing c = false)
    (angles : angleStep (n :: counts) c = some later) (enough : n ≤ depth) :
    ∃ m, later = m :: counts ∧ m + depth ≤ n + depthStep depth c := by
  unfold angleStep at angles
  rw [if_neg (Bool.eq_false_iff.1 opens), if_neg (Bool.eq_false_iff.1 closes)] at angles
  rw [depthStep_of_no_bracket opens closes]
  dsimp only at angles
  split at angles
  · next less =>
      refine ⟨n + 1, (Option.some.inj angles).symm, ?_⟩
      rw [if_pos less]
      omega
  · next notLess =>
      rw [if_neg notLess]
      split at angles
      · next greater =>
          rw [if_pos greater]
          split at angles
          · cases angles
          · next some =>
              refine ⟨n - 1, (Option.some.inj angles).symm, ?_⟩
              omega
      · next notGreater =>
          refine ⟨n, (Option.some.inj angles).symm, ?_⟩
          rw [if_neg notGreater]

theorem Covers.step (covers : Covers depth pending counts)
    (brackets : pendingStep pending c = some after) (angles : angleStep counts c = some later) :
    Covers (depthStep depth c) after later := by
  obtain ⟨paired, enough⟩ := covers
  obtain ⟨opens, closer, rfl⟩ | ⟨opens, closes, rfl⟩ | ⟨opens, closes, rfl⟩ :=
    pendingStep_cases brackets
  · unfold angleStep at angles
    rw [if_pos opens] at angles
    obtain rfl := Option.some.inj angles
    rw [depthStep_of_opening opens]
    constructor
    · rw [List.length_cons, List.length_cons, paired]
    · rw [List.length_cons, List.sum_cons]
      omega
  · unfold angleStep at angles
    rw [if_neg (Bool.eq_false_iff.1 opens), if_pos closes] at angles
    obtain rfl := Option.some.inj angles
    rw [depthStep_of_closing closes]
    cases counts with
    | nil => cases paired
    | cons n more =>
        rw [List.length_cons, List.sum_cons] at enough
        refine ⟨Nat.succ.inj paired, ?_⟩
        rw [List.tail_cons]
        omega
  · cases counts with
    | nil =>
        -- Outside all pairs angle brackets are not counted, and nothing has to be covered.
        obtain rfl := List.eq_nil_of_length_eq_zero paired.symm
        unfold angleStep at angles
        rw [if_neg (Bool.eq_false_iff.1 opens), if_neg (Bool.eq_false_iff.1 closes)] at angles
        obtain rfl := Option.some.inj angles
        exact ⟨rfl, Nat.zero_le _⟩
    | cons n more =>
        rw [List.sum_cons] at enough
        have below : n ≤ depth := by omega
        obtain ⟨m, rfl, change⟩ := angleStep_inside opens closes angles below
        refine ⟨paired, ?_⟩
        rw [List.sum_cons]
        omega

/-- The counter covers the open pairs behind every text whose angle brackets close. -/
theorem Covers.run (covers : Covers depth pending counts)
    (brackets : pendingAfter? pending t = some after)
    (angles : anglesAfter? counts t = some later) : Covers (depthAfter depth t) after later := by
  induction t generalizing depth pending counts with
  | nil =>
      obtain rfl := Option.some.inj brackets
      obtain rfl := Option.some.inj angles
      exact covers
  | cons c t ih =>
      obtain ⟨pending', bracket, brackets⟩ := Option.bind_eq_some_iff.1 brackets
      obtain ⟨counts', angle, angles⟩ := Option.bind_eq_some_iff.1 angles
      exact ih (covers.step bracket angle) brackets angles

/-- Without angle brackets the counter is the number of open pairs. -/
theorem depthAfter_of_no_angles (plain : ∀ c ∈ t, c ≠ '<' ∧ c ≠ '>')
    (brackets : pendingAfter? pending t = some after) :
    depthAfter pending.length t = after.length := by
  induction t generalizing pending with
  | nil =>
      obtain rfl := Option.some.inj brackets
      rfl
  | cons c t ih =>
      obtain ⟨pending', bracket, brackets⟩ := Option.bind_eq_some_iff.1 brackets
      have step : depthStep pending.length c = pending'.length := by
        obtain ⟨opens, closer, rfl⟩ | ⟨opens, closes, rfl⟩ | ⟨opens, closes, rfl⟩ :=
          pendingStep_cases bracket
        · exact depthStep_of_opening opens
        · exact depthStep_of_closing closes
        · obtain ⟨notLess, notGreater⟩ := plain c List.mem_cons_self
          rw [depthStep_of_no_bracket opens closes, if_neg notLess, if_neg notGreater]
      rw [← ih (fun x listed => plain x (List.mem_cons_of_mem c listed)) brackets, ← step]
      rfl

end Invariant

section Prefixes

variable {p t : Text}

theorem Text.Nested.exists_pending (nested : (p ++ t).Nested) :
    ∃ pending, pendingAfter? [] p = some pending := by
  unfold Text.Nested at nested
  rw [pendingAfter?_append] at nested
  obtain ⟨pending, before, -⟩ := Option.bind_eq_some_iff.1 nested
  exact ⟨pending, before⟩

theorem Text.AnglesClose.exists_counts (close : (p ++ t).AnglesClose) :
    ∃ counts, anglesAfter? [] p = some counts := by
  obtain ⟨all, run⟩ := Option.isSome_iff_exists.1 close
  rw [anglesAfter?, List.foldlM_append] at run
  obtain ⟨counts, before, -⟩ := Option.bind_eq_some_iff.1 run
  exact ⟨counts, before⟩

end Prefixes

theorem cutsOutside_of_anglesClose {t : Text} (nested : t.Nested) (close : t.AnglesClose) :
    CutsOutside 0 [] t := by
  rintro p s rfl atZero
  obtain ⟨pending, brackets⟩ := nested.exists_pending
  obtain ⟨counts, angles⟩ := close.exists_counts
  have start : Covers 0 [] [] := ⟨rfl, Nat.le_refl 0⟩
  have enough := (start.run brackets angles).enough
  rw [atZero] at enough
  have empty : pending = [] := by
    apply List.eq_nil_of_length_eq_zero
    omega
  rw [brackets, empty]

/-! ### Trimmed parts -/

theorem Text.nested_trim_iff (t : Text) : t.trim.Nested ↔ t.Nested := by
  obtain ⟨front, kept, back, trimmed, split, blankFront, blankBack, -, -⟩ :=
    exists_dropped_ends isBlank t
  have trimmed : t.trim = kept := trimmed
  have atFront : pendingAfter? [] front = some [] :=
    pendingAfter?_of_no_brackets fun c listed => no_bracket_of_isBlank (blankFront c listed)
  have atBack : ∀ pending, pendingAfter? pending back = some pending := fun pending =>
    pendingAfter?_of_no_brackets fun c listed => no_bracket_of_isBlank (blankBack c listed)
  have whole : pendingAfter? [] t = pendingAfter? [] kept := by
    calc
      pendingAfter? [] t = pendingAfter? [] (front ++ (kept ++ back)) := by
        rw [split, List.append_assoc]
      _ = pendingAfter? [] (kept ++ back) := by
        rw [pendingAfter?_append, atFront, Option.bind_some]
      _ = (pendingAfter? [] kept).bind some := by
        rw [pendingAfter?_append]
        exact congrArg _ (funext atBack)
      _ = pendingAfter? [] kept := Option.bind_fun_some _
  unfold Text.Nested
  rw [whole, trimmed]

/-- Trimming the pieces and leaving out the empty ones does not change whether they are nested. -/
theorem nested_splitTopLevel_iff (t : Text) :
    (∀ part ∈ splitTopLevel t, part.Nested) ↔ ∀ piece ∈ splitAtDepth 0 t, piece.Nested := by
  constructor
  · intro parts piece listed
    rw [← piece.nested_trim_iff]
    cases empty : piece.trim with
    | nil => rfl
    | cons c rest =>
        rw [← empty]
        apply parts
        refine List.mem_filter.2 ⟨List.mem_map_of_mem listed, ?_⟩
        rw [empty]
        rfl
  · intro pieces part listed
    obtain ⟨piece, cut, rfl⟩ := List.mem_map.1 (List.mem_filter.1 listed).1
    exact piece.nested_trim_iff.2 (pieces piece cut)

/-- How a text with nested brackets is cut into parts.  The parts are nested exactly if no comma
inside a pair meets a counter of zero, and that is so if every `>` inside a pair closes a `<` of
that pair.  Without angle brackets every comma outside all pairs is a cut. -/
theorem parts_nested_iff_cuts_outside (t : Text) (nested : t.Nested) :
    Text.join [','] (splitAtDepth 0 t) = t ∧
      ((∀ part ∈ splitTopLevel t, part.Nested) ↔ CutsOutside 0 [] t) ∧
      (t.AnglesClose → ∀ part ∈ splitTopLevel t, part.Nested) ∧
      ((∀ c ∈ t, c ≠ '<' ∧ c ≠ '>') → ∀ p s, t = p ++ ',' :: s → p.Nested →
        splitAtDepth 0 t = splitAtDepth 0 p ++ splitAtDepth 0 s) := by
  have exactly : (∀ part ∈ splitTopLevel t, part.Nested) ↔ CutsOutside 0 [] t := by
    rw [nested_splitTopLevel_iff, ← nestedFrom_nil_iff (splitAtDepth_ne_nil 0 t)]
    exact nestedFrom_splitAtDepth_iff nested
  refine ⟨join_splitAtDepth 0 t, exactly, ?_, ?_⟩
  · intro close
    exact exactly.2 (cutsOutside_of_anglesClose nested close)
  · rintro plain p s rfl outside
    have angleFree : ∀ c ∈ p, c ≠ '<' ∧ c ≠ '>' := by
      intro c listed
      exact plain c (List.mem_append_left _ listed)
    apply splitAtDepth_append_comma
    exact depthAfter_of_no_angles angleFree outside

/-- Commas between type arguments, in a destructured parameter and in its default are no cuts, and
an arrow outside all pairs does no harm. -/
theorem commas_inside_pairs_kept :
    let t : Text := "m: Map<K, (v: Set<V>) => W>, \x7b a, b = [1, 2] \x7d: P".toList
    let u : Text := "a, b = [1, 2], c".toList
    t.Nested ∧ t.AnglesClose ∧
      splitTopLevel t =
        ["m: Map<K, (v: Set<V>) => W>".toList, "\x7b a, b = [1, 2] \x7d: P".toList] ∧
      (∀ part ∈ splitTopLevel t, part.Nested) ∧
      splitAtDepth 0 u = splitAtDepth 0 "a, b = [1, 2]".toList ++ splitAtDepth 0 " c".toList := by
  intro t u
  refine ⟨by decide, by decide, by decide, ?_, ?_⟩
  · exact (parts_nested_iff_cuts_outside _ (by decide)).2.2.1 (by decide)
  · have all : u.all (fun c => decide (c ≠ '<' ∧ c ≠ '>')) = true := by decide
    have plain : ∀ c ∈ u, c ≠ '<' ∧ c ≠ '>' := fun c listed =>
      of_decide_eq_true (List.all_eq_true.1 all c listed)
    exact (parts_nested_iff_cuts_outside _ (by decide)).2.2.2 plain _ _ rfl (by decide)

/-- The arrow of a function type inside a pair lowers the counter to zero, so the comma behind it
cuts the pair in two, although all brackets of the text are nested. -/
theorem arrow_inside_pair_cuts_it :
    let t : Text := "cb: (a: () => void, b: number) => void, y".toList
    t.Nested ∧ ¬ t.AnglesClose ∧
      splitTopLevel t =
        ["cb: (a: () => void".toList, "b: number) => void".toList, "y".toList] ∧
      ¬ Text.Nested "cb: (a: () => void".toList ∧ ¬ Text.Nested "b: number) => void".toList := by
  decide

end CallAtlas
