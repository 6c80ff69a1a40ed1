/-
Module: CallAtlas.Proofs.BodyEnds
Purpose: From the end of a body back to its header.  Between the parts of an `if` there are only
  blanks, and a block is known by its end as well as by its start.  So the end of a body in braces
  tells which keyword the body belongs to; a body without braces ends behind a semicolon, and many
  bodies can end there.
Main definitions: Text.GapBehind, OwnText.ElseBehind, OwnText.BracedBody, OwnText.ifBodyEnd?
Main results: Text.GapBehind.unique, Block.opening_eq_of_stop_eq, OwnText.stop_unique,
  OwnText.keyword_unique_of_parentheses, OwnText.brace_unique_of_upToBrace
-/
import CallAtlas.Proofs.BodyPlaces
import CallAtlas.Proofs.BraceMatching
import CallAtlas.Proofs.StringLiterals

namespace CallAtlas

/-! ### Gaps -/

namespace Text

/-- Behind a visible character, which ends at the first offset, there are only blanks up to the
second one. -/
def GapBehind (t : Text) (x : Char) (start stop : Nat) : Prop :=
  ∃ p b s, t = p ++ x :: (b ++ s) ∧ size p + x.utf8Size = start ∧ start + size b = stop ∧
    isBlank x = false ∧ ∀ y ∈ b, isBlank y = true

/-- The last visible character before an offset is known by that offset. -/
theorem GapBehind.unique {t : Text} {x x' : Char} {start start' stop : Nat}
    (gap : t.GapBehind x start stop) (gap' : t.GapBehind x' start' stop) :
    x = x' ∧ start = start' := by
  obtain ⟨p, b, s, split, width, place, visible, blank⟩ := gap
  obtain ⟨p', b', s', split', width', place', visible', blank'⟩ := gap'
  have same : (p ++ x :: b) ++ s = (p' ++ x' :: b') ++ s' := by
    calc
      (p ++ x :: b) ++ s = t := by rw [split]; simp
      _ = (p' ++ x' :: b') ++ s' := by rw [split']; simp
  have sizes : size (p ++ x :: b) = size (p' ++ x' :: b') := by
    simp only [size_append, size_cons]
    omega
  have trimmed := congrArg trimEnd (append_inj_of_size same sizes).1
  rw [trimEnd_append_blank visible blank, trimEnd_append_blank visible' blank'] at trimmed
  obtain ⟨rfl, last⟩ := List.append_inj' trimmed rfl
  obtain ⟨rfl, -⟩ := List.cons.inj last
  exact ⟨rfl, width.symm.trans width'⟩

end Text

/-! ### Blocks -/

section Blocks

variable {t : Text} {start start' : Nat} {opening closing : Char} {b b' : Block}

/-- Of two blocks with one end neither begins inside the other: the brackets between the two starts
would have to make up for the bracket that opens the inner block. -/
theorem Block.not_opening_lt (asciiO : IsAscii opening) (asciiC : IsAscii closing)
    (differ : opening ≠ closing) (found : Block.braced? t start opening closing = some b)
    (found' : Block.braced? t start' opening closing = some b') (same : b.stop = b'.stop) :
    ¬ b.opening < b'.opening := by
  intro before
  have matching := Block.braced?_matching asciiO asciiC differ found
  have matching' := Block.braced?_matching asciiO asciiC differ found'
  obtain ⟨p, q, s, split, -, atOpening, atBody, atClose, atStop, body⟩ := Block.braced?_spec found
  obtain ⟨p', q', s', split', -, atOpening', atBody', atClose', atStop', body'⟩ :=
    Block.braced?_spec found'
  have fronts : (p ++ opening :: q) ++ closing :: s = (p' ++ opening :: q') ++ closing :: s' := by
    calc
      (p ++ opening :: q) ++ closing :: s = t := by rw [split]; simp
      _ = (p' ++ opening :: q') ++ closing :: s' := by rw [split']; simp
  have sizes : Text.size (p ++ opening :: q) = Text.size (p' ++ opening :: q') := by
    simp only [Text.size_append, Text.size_cons]
    omega
  obtain ⟨d, rfl, inner⟩ :=
    Text.exists_append_of_size_le (Text.append_inj_of_size fronts sizes).1 (by omega)
  cases d with
  | nil =>
      rw [List.append_nil] at atOpening'
      omega
  | cons x d =>
      rw [List.cons_append] at inner
      obtain ⟨rfl, rfl⟩ := List.cons.inj inner
      have even := matching.even
      have even' := matching'.even
      have nested := matching.nested d ⟨opening :: q', body.symm⟩
      rw [body, List.count_append, List.count_append, List.count_cons_self,
        List.count_cons_of_ne differ] at even
      rw [body'] at even'
      omega

/-- A block is known by its end. -/
theorem Block.opening_eq_of_stop_eq (asciiO : IsAscii opening) (asciiC : IsAscii closing)
    (differ : opening ≠ closing) (found : Block.braced? t start opening closing = some b)
    (found' : Block.braced? t start' opening closing = some b') (same : b.stop = b'.stop) :
    b.opening = b'.opening := by
  have first := Block.not_opening_lt asciiO asciiC differ found found' same
  have second := Block.not_opening_lt asciiO asciiC differ found' found same.symm
  omega

/-- The search for a block begins with the character at its start. -/
theorem Block.opening_eq_of_here {p s : Text} (split : t = p ++ opening :: s)
    (place : Text.size p = start) (found : Block.braced? t start opening closing = some b) :
    b.opening = start := by
  have here : ∀ (q : Text) (offset : Nat), offset + Text.size q = start →
      openingFrom? opening start offset (q ++ opening :: s) = some (start, s) := by
    intro q
    induction q with
    | nil =>
        intro offset reached
        have late : start ≤ offset := by simpa using Nat.le_of_eq reached.symm
        rw [List.nil_append, openingFrom?, if_pos (by simpa using late), ← reached]
        rfl
    | cons x q ih =>
        intro offset reached
        have positive := x.utf8Size_pos
        rw [Text.size_cons] at reached
        have early : ¬ start ≤ offset := by omega
        rw [List.cons_append, openingFrom?, if_neg (by simp [early])]
        apply ih
        omega
  simp only [Block.braced?, Option.bind_eq_bind, Option.bind_eq_some_iff] at found
  obtain ⟨⟨openAt, inner⟩, opened, _, _, _, _, made⟩ := found
  rw [split, here p 0 (by rw [Nat.zero_add, place])] at opened
  obtain ⟨rfl, -⟩ := Prod.mk.inj (Option.some.inj opened)
  obtain rfl := Option.some.inj made
  rfl

end Blocks

/-! ### Statements -/

/-- A statement ends behind a semicolon, at a bracket that closes what surrounds it, or with the
text. -/
theorem statementEndFrom_side (depth offset : Nat) (t : Text) :
    ∃ q s, t = q ++ s ∧ statementEndFrom false depth offset t = offset + Text.size q ∧
      (s = [] ∨ (∃ x r, s = x :: r ∧ isClosing x = true) ∨ ∃ r, q = r ++ [';']) := by
  induction t generalizing depth offset with
  | nil => exact ⟨[], [], rfl, rfl, .inl rfl⟩
  | cons c t ih =>
      have further : ∀ depth, ∃ q s, c :: t = q ++ s ∧
          statementEndFrom false depth (offset + c.utf8Size) t = offset + Text.size q ∧
          (s = [] ∨ (∃ x r, s = x :: r ∧ isClosing x = true) ∨ ∃ r, q = r ++ [';']) := by
        intro depth
        obtain ⟨q, s, rfl, place, side⟩ := ih depth (offset + c.utf8Size)
        refine ⟨c :: q, s, rfl, by rw [place, Text.size_cons, Nat.add_assoc], ?_⟩
        rcases side with ended | closed | ⟨r, rfl⟩
        · exact .inl ended
        · exact .inr (.inl closed)
        · exact .inr (.inr ⟨c :: r, rfl⟩)
      rw [statementEndFrom]
      split
      · exact further _
      · split
        · next closes =>
            split
            · exact ⟨[], c :: t, rfl, rfl, .inr (.inl ⟨c, t, rfl, closes⟩)⟩
            · exact further _
        · split
          · next ends =>
              simp only [Bool.and_eq_true, beq_iff_eq] at ends
              obtain ⟨rfl, -⟩ := ends
              exact ⟨[';'], t, rfl, rfl, .inr (.inr ⟨[], rfl⟩)⟩
          · split
            · next ends =>
                simp at ends
            · exact further _

/-! ### The next character -/

/-- Where a text goes on with a character. -/
theorem Text.exists_split_of_head? {t : Text} {c : Char} {n : Nat}
    (here : (t.rest n).head? = some c) : ∃ p s, t = p ++ c :: s ∧ Text.size p = n := by
  obtain ⟨s, goesOn⟩ := List.head?_eq_some_iff.1 here
  have filled : t.rest n ≠ [] := by
    rw [goesOn]
    simp
  obtain ⟨p, split, place⟩ := Text.split_of_rest_ne_nil filled
  rw [goesOn] at split
  exact ⟨p, s, split, place⟩

namespace OwnText

variable {own : OwnText} {offset n : Nat} {x : Char}

/-- The next visible character, seen from the visible character before the blanks. -/
theorem gapBehind_of_next? {p s : Text} (split : own.code = p ++ x :: s)
    (ends : Text.size p + x.utf8Size = offset) (visible : isBlank x = false)
    (next : own.next? offset (fun y => !isBlank y) = some n) : own.code.GapBehind x offset n := by
  obtain ⟨front, q, c, r, split', place, reached, -, before⟩ := next?_eq_some_iff.1 next
  have same : (p ++ [x]) ++ s = front ++ (q ++ c :: r) := by
    rw [← split', split]
    simp
  have sizes : Text.size (p ++ [x]) = Text.size front := by
    rw [Text.size_append, Text.size_cons, Text.size_nil]
    omega
  obtain ⟨-, rfl⟩ := Text.append_inj_of_size same sizes
  refine ⟨p, q, c :: r, split, ends, reached, visible, ?_⟩
  intro y listed
  simpa using before y listed

theorem nextIs?_eq_some_iff {c : Char} : own.nextIs? offset c = some n ↔
    own.next? offset (fun y => !isBlank y) = some n ∧ (own.code.rest n).head? = some c := by
  simp only [nextIs?, Option.bind_eq_bind, Option.bind_eq_some_iff]
  constructor
  · rintro ⟨k, next, here⟩
    split at here
    · next isThere =>
        obtain rfl := Option.some.inj here
        exact ⟨next, isThere⟩
    · cases here
  · rintro ⟨next, isThere⟩
    exact ⟨n, next, if_pos isThere⟩

theorem nextIs?_of_split {c : Char} {p b s : Text} (split : own.code = p ++ (b ++ c :: s))
    (visible : isBlank c = false) (blank : ∀ y ∈ b, isBlank y = true) :
    own.nextIs? (Text.size p) c = some (Text.size p + Text.size b) := by
  refine nextIs?_eq_some_iff.2 ⟨next?_eq_some_iff.2 ⟨p, b, c, s, split, rfl, rfl, ?_, ?_⟩, ?_⟩
  · rw [visible]
    rfl
  · intro y listed
    rw [blank y listed]
    rfl
  · rw [split, ← List.append_assoc, ← Text.size_append, Text.rest_append]
    rfl

/-- A block that is looked for at a character begins with it. -/
theorem opening_eq_of_head? {opening closing : Char} {block : Block}
    (here : (own.code.rest n).head? = some opening)
    (braced : Block.braced? own.code n opening closing = some block) : block.opening = n := by
  obtain ⟨p, s, split, place⟩ := Text.exists_split_of_head? here
  exact Block.opening_eq_of_here split place braced

/-! ### Bodies before an `else` -/

/-- Behind an offset there are blanks and then an `else`. -/
def ElseBehind (own : OwnText) (stop elseAt : Nat) : Prop :=
  ∃ p b s, own.code = p ++ (b ++ ("else".toList ++ s)) ∧ Text.size p = stop ∧
    stop + Text.size b = elseAt ∧ ∀ y ∈ b, isBlank y = true

/-- A body in braces between two offsets. -/
structure BracedBody (own : OwnText) (opening stop : Nat) : Prop where
  here : (own.code.rest opening).head? = some '{'
  braced : ∃ block, Block.braced? own.code opening '{' '}' = some block ∧ block.stop = stop

variable {stop stop' elseAt : Nat}

theorem BracedBody.opening_unique {opening opening' : Nat} (body : own.BracedBody opening stop)
    (body' : own.BracedBody opening' stop) : opening = opening' := by
  obtain ⟨block, braced, rfl⟩ := body.braced
  obtain ⟨block', braced', same⟩ := body'.braced
  rw [← opening_eq_of_head? body.here braced, ← opening_eq_of_head? body'.here braced']
  exact Block.opening_eq_of_stop_eq (by decide) (by decide) (by decide) braced braced' same.symm

theorem BracedBody.opening_lt {opening : Nat} (body : own.BracedBody opening stop) :
    opening < stop := by
  obtain ⟨block, braced, rfl⟩ := body.braced
  rw [← opening_eq_of_head? body.here braced]
  obtain ⟨p, q, s, -, -, atOpening, atBody, atClose, atStop, -⟩ := Block.braced?_spec braced
  have positive := Char.utf8Size_pos '}'
  omega

/-- A body in braces ends with a brace. -/
theorem BracedBody.gapBehind {opening : Nat} (body : own.BracedBody opening stop)
    (behind : own.ElseBehind stop elseAt) : own.code.GapBehind '}' stop elseAt := by
  obtain ⟨block, braced, rfl⟩ := body.braced
  obtain ⟨p, q, s, split, -, atOpening, atBody, atClose, atStop, -⟩ := Block.braced?_spec braced
  obtain ⟨front, b, r, split', place, reached, blank⟩ := behind
  have same : (p ++ '{' :: (q ++ ['}'])) ++ s = front ++ (b ++ ("else".toList ++ r)) := by
    rw [← split', split]
    simp
  have sizes : Text.size (p ++ '{' :: (q ++ ['}'])) = Text.size front := by
    simp only [Text.size_append, Text.size_cons, Text.size_nil]
    omega
  obtain ⟨-, rfl⟩ := Text.append_inj_of_size same sizes
  refine ⟨p ++ '{' :: q, b, "else".toList ++ r, by rw [split]; simp, ?_, reached, by decide, blank⟩
  simp only [Text.size_append, Text.size_cons]
  omega

/-- A single statement before an `else` ends with a semicolon: neither a bracket nor the end of the
text comes next. -/
theorem statementEnd_gapBehind {start : Nat} (boundary : own.code.IsBoundary start)
    (behind : own.ElseBehind (statementEnd own.code start) elseAt) :
    own.code.GapBehind ';' (statementEnd own.code start) elseAt := by
  obtain ⟨p, r, split, place⟩ := boundary
  obtain ⟨front, b, r', split', place', reached, blank⟩ := behind
  have rest : own.code.rest start = r := by
    rw [split, ← place, Text.rest_append]
  obtain ⟨q, s, rfl, ends, side⟩ := statementEndFrom_side 0 start r
  have stop : statementEnd own.code start = start + Text.size q := by
    rw [statementEnd, rest, ends]
  have same : (p ++ q) ++ s = front ++ (b ++ ("else".toList ++ r')) := by
    rw [← split', split]
    simp
  have sizes : Text.size (p ++ q) = Text.size front := by
    rw [Text.size_append]
    omega
  obtain ⟨-, rfl⟩ := Text.append_inj_of_size same sizes
  rcases side with ended | ⟨x, more, goesOn, closes⟩ | ⟨q, rfl⟩
  · simp at ended
  · have other : isClosing x = false := by
      cases b with
      | nil =>
          obtain ⟨rfl, -⟩ := List.cons.inj goesOn
          decide
      | cons y b =>
          obtain ⟨rfl, -⟩ := List.cons.inj goesOn
          exact (no_bracket_of_isBlank (blank y List.mem_cons_self)).2
    rw [other] at closes
    cases closes
  · refine ⟨p ++ q, b, "else".toList ++ r', by rw [split]; simp, ?_, reached, by decide, blank⟩
    rw [stop]
    simp only [Text.size_append, Text.size_cons, Text.size_nil]
    omega

/-- A body before an `else` is one in braces, or its end is behind a semicolon. -/
theorem bodyEnd?_side (ends : own.bodyEnd? offset = some stop)
    (behind : own.ElseBehind stop elseAt) :
    (∃ opening, own.next? offset (fun y => !isBlank y) = some opening ∧
        own.BracedBody opening stop) ∨ own.code.GapBehind ';' stop elseAt := by
  simp only [bodyEnd?, Option.bind_eq_bind, Option.bind_eq_some_iff] at ends
  obtain ⟨start, next, ends⟩ := ends
  split at ends
  · next here =>
      obtain ⟨block, braced, rfl⟩ := Option.map_eq_some_iff.1 ends
      exact .inl ⟨start, next, here, block, braced, rfl⟩
  · obtain rfl := Option.some.inj ends
    exact .inr (statementEnd_gapBehind (next?_isBoundary next) behind)

/-! ### Bodies of an `if` -/

/-- End of the body of the `if` whose keyword stands at an offset. -/
def ifBodyEnd? (own : OwnText) (form : ConditionForm) (ifAt : Nat) : Option Nat :=
  (own.conditionAt? (ifAt + 2) form).bind fun condition => own.bodyEnd? condition.2

/-- The keyword of an `if` stands at an offset. -/
def IfAt (own : OwnText) (ifAt : Nat) : Prop := own.code.HasAt ifAt "if".toList

variable {ifAt ifAt' : Nat}

theorem IfAt.gapBehind_of_next? (isIf : own.IfAt ifAt)
    (next : own.next? (ifAt + 2) (fun y => !isBlank y) = some n) :
    own.code.GapBehind 'f' (ifAt + 2) n := by
  obtain ⟨p, s, split, place⟩ := isIf
  have letters : own.code = (p ++ ['i']) ++ 'f' :: s := by
    rw [split]
    simp
  have ends : Text.size (p ++ ['i']) + Char.utf8Size 'f' = ifAt + 2 := by
    rw [Text.size_append, place]
    rfl
  exact OwnText.gapBehind_of_next? letters ends (by decide) next

/-- The condition of an `if` in parentheses. -/
structure Parenthesized (own : OwnText) (ifAt opening stop : Nat) : Prop where
  next : own.next? (ifAt + 2) (fun y => !isBlank y) = some opening
  here : (own.code.rest opening).head? = some '('
  braced : ∃ block, Block.braced? own.code opening '(' ')' = some block ∧ block.stop = stop

/-- The end of a condition in parentheses tells which keyword it belongs to. -/
theorem Parenthesized.keyword_unique {opening opening' : Nat} (isIf : own.IfAt ifAt)
    (isIf' : own.IfAt ifAt') (condition : own.Parenthesized ifAt opening stop)
    (condition' : own.Parenthesized ifAt' opening' stop) : ifAt = ifAt' := by
  obtain ⟨block, braced, rfl⟩ := condition.braced
  obtain ⟨block', braced', same⟩ := condition'.braced
  have openings : opening = opening' := by
    rw [← opening_eq_of_head? condition.here braced, ← opening_eq_of_head? condition'.here braced']
    exact Block.opening_eq_of_stop_eq (by decide) (by decide) (by decide) braced braced' same.symm
  have gap := isIf.gapBehind_of_next? condition.next
  have gap' := isIf'.gapBehind_of_next? (openings ▸ condition'.next)
  have := (gap.unique gap').2
  omega

/-- Behind a condition in parentheses the next visible character follows a parenthesis. -/
theorem Parenthesized.gapBehind_of_next? {opening : Nat}
    (condition : own.Parenthesized ifAt opening stop)
    (next : own.next? stop (fun y => !isBlank y) = some n) : own.code.GapBehind ')' stop n := by
  obtain ⟨block, braced, rfl⟩ := condition.braced
  obtain ⟨p, q, s, split, -, atOpening, atBody, atClose, atStop, -⟩ := Block.braced?_spec braced
  have closed : own.code = (p ++ '(' :: q) ++ ')' :: s := by
    rw [split]
    simp
  have ends : Text.size (p ++ '(' :: q) + Char.utf8Size ')' = block.stop := by
    rw [Text.size_append, Text.size_cons]
    omega
  exact OwnText.gapBehind_of_next? closed ends (by decide) next

theorem exists_parenthesized (ends : own.ifBodyEnd? .parentheses ifAt = some stop) :
    ∃ opening after, own.Parenthesized ifAt opening after ∧ own.bodyEnd? after = some stop := by
  obtain ⟨⟨condition, after⟩, read, ends⟩ := Option.bind_eq_some_iff.1 ends
  simp only [conditionAt?, Option.bind_eq_bind, Option.bind_eq_some_iff] at read
  obtain ⟨opening, next, block, braced, made⟩ := read
  obtain ⟨-, rfl⟩ := Prod.mk.inj (Option.some.inj made)
  obtain ⟨next, here⟩ := nextIs?_eq_some_iff.1 next
  exact ⟨opening, block.stop, ⟨next, here, block, braced, rfl⟩, ends⟩

/-- Up to its brace a condition has no other brace, and the body begins with it. -/
theorem exists_upToBrace (ends : own.ifBodyEnd? .upToBrace ifAt = some stop) :
    ∃ opening, own.next? (ifAt + 2) (· == '{') = some opening ∧ own.BracedBody opening stop := by
  obtain ⟨⟨condition, after⟩, read, ends⟩ := Option.bind_eq_some_iff.1 ends
  simp only [conditionAt?, Option.bind_eq_bind, Option.bind_eq_some_iff] at read
  obtain ⟨opening, next, made⟩ := read
  obtain ⟨-, rfl⟩ := Prod.mk.inj (Option.some.inj made)
  have here : (own.code.rest opening).head? = some '{' := by
    obtain ⟨front, q, c, s, split, place, reached, isBrace, -⟩ := next?_eq_some_iff.1 next
    obtain rfl : c = '{' := by simpa using isBrace
    have size : opening = Text.size (front ++ q) := by
      rw [Text.size_append]
      omega
    rw [split, ← List.append_assoc, size, Text.rest_append]
    rfl
  have start : own.next? opening (fun y => !isBlank y) = some opening := by
    obtain ⟨s, goesOn⟩ := List.head?_eq_some_iff.1 here
    rw [next?, goesOn]
    rfl
  simp only [bodyEnd?, Option.bind_eq_bind, start, Option.bind_some, here, if_true] at ends
  obtain ⟨block, braced, rfl⟩ := Option.map_eq_some_iff.1 ends
  exact ⟨opening, next, here, block, braced, rfl⟩

/-- A body before an `else` ends with a visible character. -/
theorem exists_gapBehind_of_ifBodyEnd? {form : ConditionForm}
    (ends : own.ifBodyEnd? form ifAt = some stop) (behind : own.ElseBehind stop elseAt) :
    ∃ x, own.code.GapBehind x stop elseAt := by
  cases form with
  | parentheses =>
      obtain ⟨opening, after, -, body⟩ := exists_parenthesized ends
      rcases bodyEnd?_side body behind with ⟨start, -, braced⟩ | semicolon
      · exact ⟨'}', braced.gapBehind behind⟩
      · exact ⟨';', semicolon⟩
  | upToBrace =>
      obtain ⟨opening, -, braced⟩ := exists_upToBrace ends
      exact ⟨'}', braced.gapBehind behind⟩

/-- An `else` tells where the body before it ends. -/
theorem stop_unique {form : ConditionForm} (ends : own.ifBodyEnd? form ifAt = some stop)
    (ends' : own.ifBodyEnd? form ifAt' = some stop') (behind : own.ElseBehind stop elseAt)
    (behind' : own.ElseBehind stop' elseAt) : stop = stop' := by
  obtain ⟨x, gap⟩ := exists_gapBehind_of_ifBodyEnd? ends behind
  obtain ⟨x', gap'⟩ := exists_gapBehind_of_ifBodyEnd? ends' behind'
  exact (gap.unique gap').2

/-- Two bodies in parentheses before one `else` belong to one keyword, unless the `else` follows a
semicolon. -/
theorem keyword_unique_of_parentheses (isIf : own.IfAt ifAt) (isIf' : own.IfAt ifAt')
    (ends : own.ifBodyEnd? .parentheses ifAt = some stop)
    (ends' : own.ifBodyEnd? .parentheses ifAt' = some stop)
    (behind : own.ElseBehind stop elseAt) :
    ifAt = ifAt' ∨ own.code.GapBehind ';' stop elseAt := by
  obtain ⟨opening, after, condition, body⟩ := exists_parenthesized ends
  obtain ⟨opening', after', condition', body'⟩ := exists_parenthesized ends'
  rcases bodyEnd?_side body behind with ⟨start, next, braced⟩ | semicolon
  · rcases bodyEnd?_side body' behind with ⟨start', next', braced'⟩ | semicolon'
    · left
      obtain rfl := braced.opening_unique braced'
      have gap := condition.gapBehind_of_next? next
      have gap' := condition'.gapBehind_of_next? next'
      obtain ⟨-, rfl⟩ := gap.unique gap'
      exact Parenthesized.keyword_unique isIf isIf' condition condition'
    · exact .inr semicolon'
  · exact .inr semicolon

/-- Two bodies behind a brace that end at one place are one body. -/
theorem brace_unique_of_upToBrace (ends : own.ifBodyEnd? .upToBrace ifAt = some stop)
    (ends' : own.ifBodyEnd? .upToBrace ifAt' = some stop) :
    own.next? (ifAt + 2) (· == '{') = own.next? (ifAt' + 2) (· == '{') := by
  obtain ⟨opening, next, braced⟩ := exists_upToBrace ends
  obtain ⟨opening', next', braced'⟩ := exists_upToBrace ends'
  obtain rfl := braced.opening_unique braced'
  rw [next, next']

theorem le_of_next? {p : Char → Bool} (found : own.next? offset p = some n) : offset ≤ n := by
  obtain ⟨front, q, c, s, -, -, reached, -, -⟩ := next?_eq_some_iff.1 found
  omega

theorem le_of_bodyEnd? (ends : own.bodyEnd? offset = some stop) : offset ≤ stop := by
  simp only [bodyEnd?, Option.bind_eq_bind, Option.bind_eq_some_iff] at ends
  obtain ⟨start, next, ends⟩ := ends
  apply Nat.le_trans (le_of_next? next)
  split at ends
  · next here =>
      obtain ⟨block, braced, rfl⟩ := Option.map_eq_some_iff.1 ends
      exact Nat.le_of_lt (BracedBody.opening_lt ⟨here, block, braced, rfl⟩)
  · obtain rfl := Option.some.inj ends
    exact (statementEndFrom_firm false 0 (next?_isBoundary next)).2

/-- A body ends behind its keyword. -/
theorem lt_of_ifBodyEnd? {form : ConditionForm} (ends : own.ifBodyEnd? form ifAt = some stop) :
    ifAt < stop := by
  cases form with
  | parentheses =>
      obtain ⟨opening, after, condition, body⟩ := exists_parenthesized ends
      have first := le_of_next? condition.next
      have last := le_of_bodyEnd? body
      obtain ⟨block, braced, rfl⟩ := condition.braced
      obtain ⟨p, q, s, -, late, atOpening, atBody, atClose, atStop, -⟩ := Block.braced?_spec braced
      omega
  | upToBrace =>
      obtain ⟨opening, next, braced⟩ := exists_upToBrace ends
      have first := le_of_next? next
      have last := braced.opening_lt
      omega

end OwnText

end CallAtlas
