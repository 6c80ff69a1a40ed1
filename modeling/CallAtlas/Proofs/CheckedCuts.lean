/-
Module: CallAtlas.Proofs.CheckedCuts
Purpose: Reading that stops at the first offset that cannot be used.  A text is cut by byte offsets,
  and a difference of offsets may be negative, a range may reach beyond the text or end inside a
  character.  The checked operations refuse that.  Blocks are found by them without an error, from
  any offset between delimiters and from any position between statements.
Main definitions: Checked.subtract, Checked.slice, Checked.charAt, Checked.cursorAt,
  Checked.ofOption, Checked.collect, Checked.group, Checked.braced, Checked.keyword,
  KeywordPair.consumes
Main results: Checked.collect_eq, Checked.braced_eq, Checked.keyword_eq
-/
import CallAtlas.Proofs.BlockPlaces
import CallAtlas.Text.Cut

namespace CallAtlas

namespace Checked

/-! ### Operations -/

/-- The difference of two offsets. -/
def subtract (first second : Nat) : Checked Nat :=
  if second ≤ first then .ok (first - second) else .error (.underflow first second)

/-- The items of a range. -/
def slice {α : Type} (items : List α) (range : Span) : Checked (List α) :=
  if range.start ≤ range.stop ∧ range.stop ≤ items.length then
    .ok ((items.drop range.start).take (range.stop - range.start))
  else .error (.outside range items.length)

/-- The character at a byte offset. -/
def charAt (t : Text) (offset : Nat) : Checked Char :=
  match t.from? offset with
  | some (c :: _) => .ok c
  | _ => .error (.outside ⟨offset, offset + 1⟩ t.size)

/-- The position at a byte offset. -/
def cursorAt (t : Text) (offset : Nat) : Checked Cursor :=
  match Cursor.ofOffset? t offset with
  | some c => .ok c
  | none => .error (.outside ⟨offset, t.size⟩ t.size)

theorem subtract_eq {first second : Nat} (ordered : second ≤ first) :
    subtract first second = .ok (first - second) := if_pos ordered

theorem slice_middle {α : Type} (front part back : List α) :
    slice (front ++ (part ++ back)) ⟨front.length, front.length + part.length⟩ = .ok part := by
  rw [slice, if_pos ⟨Nat.le_add_right _ _, by simp⟩, List.drop_left, Nat.add_sub_cancel_left,
    List.take_left]

theorem charAt_append (p : Text) (c : Char) (s : Text) : charAt (p ++ c :: s) p.size = .ok c := by
  rw [charAt, Text.from?_append]

theorem cursorAt_eq {t : Text} {c : Cursor} (inside : c.In t) : cursorAt t c.offset = .ok c := by
  rw [cursorAt, inside.ofOffset?]

end Checked

theorem Text.cut_eq {t q : Text} {range : Span} (cut : t.slice? range = some q) :
    t.cut range = .ok q := by
  rw [Text.cut, cut]

theorem Text.cut_append (p q s : Text) :
    Text.cut (p ++ (q ++ s)) ⟨p.size, p.size + q.size⟩ = .ok q :=
  Text.cut_eq (Text.slice?_eq_some_iff.2 ⟨p, s, rfl, rfl⟩)

theorem Text.cut_front (p s : Text) : Text.cut (p ++ s) ⟨0, p.size⟩ = .ok p := by
  have cut := Text.cut_append [] p s
  rwa [List.nil_append, Text.size_nil, Nat.zero_add] at cut

theorem Text.cut_back (p s : Text) : Text.cut (p ++ s) ⟨p.size, Text.size (p ++ s)⟩ = .ok s := by
  have cut := Text.cut_append p s []
  rwa [List.append_nil, ← Text.size_append] at cut

/-- What can be cut is what the plain cut gives. -/
theorem Text.cut_eq_slice {t : Text} {range : Span} (cut : (t.slice? range).isSome = true) :
    t.cut range = .ok (t.slice range) := by
  obtain ⟨q, cut⟩ := Option.isSome_iff_exists.1 cut
  rw [Text.cut_eq cut, Text.slice, cut, Option.getD_some]

theorem Text.IsBoundary.cut_before {t : Text} {n : Nat} (boundary : t.IsBoundary n) :
    t.cut ⟨0, n⟩ = .ok (t.slice ⟨0, n⟩) := by
  have first : t.IsBoundary 0 := ⟨[], t, rfl, rfl⟩
  exact Text.cut_eq_slice (first.isSome_slice? boundary (Nat.zero_le n))

/-! ### Results that may be missing -/

namespace Checked

variable {α β : Type}

/-- Something that may be missing, without an error. -/
def ofOption (found : Option α) : OptionT Checked α := OptionT.mk (.ok found)

/-- What may be missing, as a result that is there in any case. -/
def attempt (found : OptionT Checked α) : OptionT Checked (Option α) := OptionT.lift found.run

@[simp] theorem attempt_ofOption (found : Option α) :
    attempt (ofOption found) = ofOption (some found) := rfl

@[simp] theorem ofOption_none_bind (f : α → OptionT Checked β) :
    ofOption none >>= f = ofOption none := rfl

@[simp] theorem ofOption_some_bind (a : α) (f : α → OptionT Checked β) :
    ofOption (some a) >>= f = f a := rfl

@[simp] theorem lift_ok (a : α) :
    (liftM (Except.ok a : Checked α) : OptionT Checked α) = ofOption (some a) := rfl

@[simp] theorem pure_eq (a : α) : (pure a : OptionT Checked α) = ofOption (some a) := rfl

theorem ofOption_bind (found : Option α) (f : α → Option β) :
    (ofOption found >>= fun a => ofOption (f a)) = ofOption (found.bind f) := by
  cases found with
  | none => rfl
  | some a => rfl

theorem ofOption_map (found : Option α) (f : α → β) :
    (ofOption found >>= fun a => ofOption (some (f a))) = ofOption (found.map f) := by
  cases found with
  | none => rfl
  | some a => rfl

theorem ofOption_ite (c : Prop) [Decidable c] (found other : Option α) :
    (if c then ofOption found else ofOption other) = ofOption (if c then found else other) := by
  split
  · rfl
  · rfl

/-- What is found for the items of a list, from left to right. -/
def collect (f : α → OptionT Checked β) : List α → Checked (List β)
  | [] => return []
  | a :: more => do
    let found ← (f a).run
    return found.toList ++ (← collect f more)

theorem collect_eq {f : α → OptionT Checked β} {g : α → Option β} {items : List α}
    (same : ∀ a ∈ items, f a = ofOption (g a)) : collect f items = .ok (items.filterMap g) := by
  induction items with
  | nil => rfl
  | cons a more ih =>
      rw [collect, same a List.mem_cons_self,
        ih fun b listed => same b (List.mem_cons_of_mem a listed)]
      cases found : g a with
      | none =>
          rw [List.filterMap_cons_none found]
          rfl
      | some b =>
          rw [List.filterMap_cons_some found]
          rfl

theorem mapM_eq {f : α → Checked β} {g : α → β} {items : List α}
    (same : ∀ a ∈ items, f a = .ok (g a)) : items.mapM f = .ok (items.map g) := by
  induction items with
  | nil => rfl
  | cons a more ih =>
      rw [List.mapM_cons, same a List.mem_cons_self,
        ih fun b listed => same b (List.mem_cons_of_mem a listed)]
      rfl

/-- What is found for the items of a list, put together. -/
def flatMap (f : α → Checked (List β)) (items : List α) : Checked (List β) := do
  return (← items.mapM f).flatten

theorem flatMap_eq {f : α → Checked (List β)} {g : α → List β} {items : List α}
    (same : ∀ a ∈ items, f a = .ok (g a)) : flatMap f items = .ok (items.flatMap g) := by
  rw [flatMap, mapM_eq same, List.flatMap_def]
  rfl

/-- A loop whose steps all succeed gives what the plain loop gives. -/
theorem foldlM_eq {f : β → α → Checked β} {g : β → α → β} {items : List α}
    (same : ∀ b, ∀ a ∈ items, f b a = .ok (g b a)) (b : β) :
    items.foldlM f b = .ok (items.foldl g b) := by
  induction items generalizing b with
  | nil => rfl
  | cons a more ih =>
      rw [List.foldlM_cons, same b a List.mem_cons_self, List.foldl_cons]
      exact ih (fun b c listed => same b c (List.mem_cons_of_mem a listed)) (g b a)

/-! ### Marked parts -/

/-- The text of a marked part of a match. -/
def group (m : Match) (t : Text) (g : Group) : OptionT Checked Text := do
  let span ← ofOption (m.group? g)
  t.cut span

end Checked

theorem Pattern.FoundIn.cut_group {p : Pattern} {t : Text} {m : Match} {g : Group} {span : Span}
    (found : p.FoundIn t m) (isMarked : m.group? g = some span) :
    t.cut span = .ok (t.slice span) := by
  obtain ⟨_, _, c₁, c₂, _, first, second, inner, rfl, _⟩ := found.exists_group isMarked
  exact Text.cut_eq_slice (first.isBoundary.isSome_slice? second.isBoundary inner.le)

namespace Checked

theorem group_eq {p : Pattern} {t : Text} {m : Match} (found : p.FoundIn t m) (g : Group) :
    group m t g = ofOption ((m.group? g).map t.slice) := by
  rw [group]
  cases isMarked : m.group? g with
  | none => rfl
  | some span =>
      rw [ofOption_some_bind, found.cut_group isMarked]
      rfl

/-! ### Blocks between characters -/

/-- Byte offset of the `closing` that brings the nesting depth down to zero. -/
def closingFrom (opening closing : Char) (depth offset : Nat) : Text → OptionT Checked Nat
  | [] => ofOption none
  | c :: t =>
    if c == opening then closingFrom opening closing (depth + 1) (offset + c.utf8Size) t
    else if c == closing then do
      let left ← subtract depth 1
      if left = 0 then return offset
      else closingFrom opening closing left (offset + c.utf8Size) t
    else closingFrom opening closing depth (offset + c.utf8Size) t

/-- The block of the first `opening` at or after a byte offset. -/
def braced (t : Text) (start : Nat) (opening closing : Char) : OptionT Checked Block := do
  let (openAt, inner) ← ofOption (openingFrom? opening start 0 t)
  let bodyStart := openAt + opening.utf8Size
  let close ← closingFrom opening closing 1 bodyStart inner
  let body ← t.cut ⟨bodyStart, close⟩
  return ⟨openAt, bodyStart, close, close + closing.utf8Size, body⟩

/-- The depth is never taken below zero: a scan with nothing open is over. -/
theorem closingFrom_eq (opening closing : Char) {depth : Nat} (isOpen : 0 < depth) (offset : Nat)
    (t : Text) :
    closingFrom opening closing depth offset t =
      ofOption (closingFrom? opening closing depth offset t) := by
  induction t generalizing depth offset with
  | nil => rfl
  | cons c t ih =>
      rw [closingFrom, closingFrom?]
      split
      · exact ih (Nat.succ_pos depth) _
      split
      · rw [subtract_eq isOpen]
        by_cases last : depth ≤ 1
        · rw [if_pos last]
          have closed : depth - 1 = 0 := by omega
          simp only [closed]
          rfl
        · rw [if_neg last, ← ih (by omega)]
          have goesOn : depth - 1 ≠ 0 := by omega
          exact if_neg goesOn
      · exact ih isOpen _

theorem braced_eq (t : Text) (start : Nat) (opening closing : Char) :
    braced t start opening closing = ofOption (Block.braced? t start opening closing) := by
  rw [braced, Block.braced?]
  cases opens : openingFrom? opening start 0 t with
  | none => rfl
  | some found =>
      obtain ⟨openAt, inner⟩ := found
      obtain ⟨p, split, atOpening, _⟩ := openingFrom?_spec opens
      have closing_eq :=
        closingFrom_eq opening closing Nat.one_pos (openAt + opening.utf8Size) inner
      cases closes : closingFrom? opening closing 1 (openAt + opening.utf8Size) inner with
      | none => simp [closing_eq, closes]
      | some close =>
          obtain ⟨q, s, rfl, rfl⟩ := closingFrom?_spec closes
          have bodyStart : openAt + opening.utf8Size = Text.size (p ++ [opening]) := by
            rw [atOpening, Nat.zero_add, Text.size_append, Text.size_cons, Text.size_nil,
              Nat.add_zero]
          have cut := Text.cut_append (p ++ [opening]) q (closing :: s)
          rw [← bodyStart, List.append_assoc, List.singleton_append, ← split] at cut
          simp [closing_eq, closes, cut, Text.upTo?_append]

/-! ### Blocks between statements -/

/-- The closing statement of a block, for a scan at a byte offset with so many statements open.
`fuel` is a text longer than what is left. -/
def closingStatement (pair : KeywordPair) (t : Text) : Text → Nat → Nat → OptionT Checked Match
  | [], _, _ => ofOption none
  | _ :: fuel, depth, place => do
    let c ← cursorAt t place
    match pair.next? c with
    | none => ofOption none
    | some (.opening m) =>
      closingStatement pair t fuel (depth + 1) (max m.stop (m.start + 1))
    | some (.closing m) => do
      let left ← subtract depth 1
      if left = 0 then return m
      else closingStatement pair t fuel left (max m.stop (m.start + 1))

/-- The block of the first opening statement at or after a byte offset. -/
def keyword (t : Text) (start : Nat) (pair : KeywordPair) : OptionT Checked Block := do
  let c ← cursorAt t start
  let opening ← ofOption (pair.opener.searchFrom? c)
  let closing ← closingStatement pair t t 1 opening.stop
  let body ← t.cut ⟨opening.stop, closing.start⟩
  return ⟨opening.start, opening.stop, closing.start, closing.stop, body⟩

end Checked

/-- Whether the statements that open and close a block end in visible characters, so that none of
them is empty. -/
def KeywordPair.consumes (pair : KeywordPair) : Bool :=
  pair.opener.endsVisible && pair.closer.endsVisible

/-- A scan goes on right behind a statement that is not empty. -/
theorem Pattern.FoundIn.resume_eq {p : Pattern} {t : Text} {m : Match} (found : p.FoundIn t m)
    (ends : p.endsVisible = true) :
    m.resume = m.after ∧ max m.stop (m.start + 1) = m.resume.offset := by
  obtain ⟨c, inside, start, there⟩ := found.exists_matches
  obtain ⟨s, x, reads, _⟩ := there.ends_visible ends
  have width := x.utf8Size_pos
  have moved := reads.offset
  rw [Text.size_append, Text.size_cons, Text.size_nil] at moved
  have longer : m.start < m.after.offset := by omega
  rw [Match.resume, if_pos longer]
  exact ⟨rfl, Nat.max_eq_left longer⟩

namespace Checked

theorem closingStatement_eq {pair : KeywordPair} {t : Text} (consumes : pair.consumes = true)
    (fuel : Text) {depth : Nat} (isOpen : 0 < depth) {c : Cursor} (inside : c.In t) :
    closingStatement pair t fuel depth c.offset =
      ofOption (KeywordScan.run pair fuel ⟨depth, c⟩) := by
  induction fuel generalizing depth c with
  | nil => rfl
  | cons x fuel ih =>
      rw [closingStatement, cursorAt_eq inside]
      rw [KeywordPair.consumes, Bool.and_eq_true] at consumes
      cases next : pair.next? c with
      | none => simp [KeywordScan.run, KeywordScan.step, KeywordScan.closing?, next]
      | some bound =>
          cases bound with
          | opening m =>
              have searched := (KeywordPair.next?_eq_opening.1 next).1
              have found := (Pattern.searchFrom?_sound inside searched).1
              have further := ih (Nat.succ_pos depth) found.resume_in
              simp [KeywordScan.run, KeywordScan.step, next, (found.resume_eq consumes.1).2,
                further]
          | closing m =>
              have searched := (KeywordPair.next?_eq_closing.1 next).1
              have found := (Pattern.searchFrom?_sound inside searched).1
              by_cases last : depth ≤ 1
              · have closed : depth - 1 = 0 := by omega
                simp [KeywordScan.run, KeywordScan.step, KeywordScan.closing?, next, last, closed,
                  subtract_eq isOpen]
              · have goesOn : depth - 1 ≠ 0 := by omega
                have further := ih (Nat.pos_of_ne_zero goesOn) found.resume_in
                simp [KeywordScan.run, KeywordScan.step, next, last, goesOn, subtract_eq isOpen,
                  (found.resume_eq consumes.2).2, further]

/-- From the start of a header on, a block between statements is found without an error. -/
theorem keyword_eq {pair : KeywordPair} {header : Pattern} {t : Text} {m : Match}
    (consumes : pair.consumes = true) (opened : header.FoundIn t m) :
    keyword t m.start pair = ofOption (Block.keyword? t m.start pair) := by
  obtain ⟨c, inside, start, _⟩ := opened.exists_matches
  rw [keyword, Block.keyword?, start, cursorAt_eq inside, inside.ofOffset?]
  cases searched : pair.opener.searchFrom? c with
  | none => simp [searched]
  | some opening =>
      have found := (Pattern.searchFrom?_sound inside searched).1
      have closing_eq := closingStatement_eq consumes t Nat.one_pos found.after_in
      cases closed : KeywordScan.run pair t ⟨1, opening.after⟩ with
      | none => simp [searched, Match.stop, closing_eq, closed]
      | some closing =>
          obtain ⟨closes, late⟩ := KeywordScan.run_sound found.after_in closed
          obtain ⟨body, cut⟩ := Option.isSome_iff_exists.1
            (found.after_in.isBoundary.isSome_slice? closes.start_isBoundary late)
          simp [searched, Match.stop, closing_eq, closed, cut, Text.cut_eq cut]

end Checked

end CallAtlas
