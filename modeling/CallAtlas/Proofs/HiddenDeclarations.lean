/-
Module: CallAtlas.Proofs.HiddenDeclarations
Purpose: A declaration does not see the declarations inside it.  The text that is searched for a
  declaration is its body in a view, with a space for every byte in the range of an enclosed
  declaration.  However many such ranges there are and however they overlap, nothing that is read
  from that text comes from one of them: no call, no construct and nothing that adds to the
  complexity.
Main definitions: Declaration.Hides, HiddenIn
Main results: covers_nestedRanges, HiddenIn.ofWindow, HiddenIn.not_hidden,
  nested_declarations_are_hidden
-/
import CallAtlas.Proofs.RecordPositions

namespace CallAtlas

/-! ### What is hidden -/

/-- An offset lies in the range of another declaration that a declaration encloses. -/
def Declaration.Hides (declarations : List Declaration) (index : Nat) (d : Declaration)
    (offset : Nat) : Prop :=
  ∃ j e, j ≠ index ∧ declarations[j]? = some e ∧ d.encloses e = true ∧
    e.span.contains offset = true

theorem covers_nestedRanges {declarations : List Declaration} {index : Nat} {d : Declaration}
    {offset : Nat} :
    covers (nestedRanges declarations index d) offset = true ↔
      d.Hides declarations index offset := by
  simp only [covers, nestedRanges, List.any_map, List.any_filter, List.any_eq_true, Prod.exists,
    List.mem_zipIdx_iff_getElem?, Function.comp_apply, Bool.and_eq_true, bne_iff_ne]
  constructor
  · rintro ⟨e, j, listed, ⟨other, enclosed⟩, inside⟩
    exact ⟨j, e, other, listed, enclosed, inside⟩
  · rintro ⟨j, e, other, listed, enclosed, inside⟩
    exact ⟨e, j, listed, ⟨other, enclosed⟩, inside⟩

theorem Declaration.Owns.not_hides {declarations : List Declaration} {index : Nat} {d : Declaration}
    {offset : Nat} (owns : d.Owns declarations index offset) :
    ¬ d.Hides declarations index offset := by
  rw [← covers_nestedRanges, owns.notNested]
  exact Bool.false_ne_true

/-! ### Bodies with something hidden -/

/-- A text is the body of a declaration in a view, byte for byte, except for what is hidden: there
every byte but a line feed is a space. -/
structure HiddenIn (view : Text) (body : Span) (hides : Nat → Prop) (own : Text) : Prop where
  length : (Utf8.encode own).length = body.stop - body.start
  hidden : ∀ n, body.contains n = true → hides n → (Utf8.encode view)[n]? ≠ some 0x0a →
    (Utf8.encode own)[n - body.start]? = some 0x20
  kept : ∀ n, body.contains n = true → ¬ hides n ∨ (Utf8.encode view)[n]? = some 0x0a →
    (Utf8.encode own)[n - body.start]? = (Utf8.encode view)[n]?

/-- A byte of a text belongs to a character. -/
theorem Text.exists_character {t : Text} {n : Nat} (inside : n < t.size) :
    ∃ p x s i, t = p ++ x :: s ∧ i < x.utf8Size ∧ n = size p + i := by
  induction t generalizing n with
  | nil => cases inside
  | cons c t ih =>
      by_cases first : n < c.utf8Size
      · exact ⟨[], c, t, n, rfl, first, by simp⟩
      · rw [size_cons] at inside
        have later : n - c.utf8Size < size t := by omega
        obtain ⟨p, x, s, i, rfl, within, place⟩ := ih later
        exact ⟨c :: p, x, s, i, rfl, within, by rw [size_cons]; omega⟩

namespace HiddenIn

/-- A window with whole characters blanked hides what is covered. -/
theorem ofWindow {p q s : Text} {body : Span} {ranges : List Span} {hides : Nat → Prop}
    (start : Text.size p = body.start) (width : Text.size q = body.stop - body.start)
    (bounded : Bounded ranges (p ++ (q ++ s))) (covered : ∀ n, covers ranges n = true ↔ hides n) :
    HiddenIn (p ++ (q ++ s)) body hides (maskCharacters (covers ranges) p.size q) := by
  have bytes := maskBytes_encode (wholeCharacters_covers bounded)
  have window : ∀ n, body.contains n = true →
      (Utf8.encode (p ++ (q ++ s)))[n]? = (Utf8.encode q)[n - body.start]? := by
    intro n inside
    simp only [Span.contains, Bool.and_eq_true, decide_eq_true_eq] at inside
    rw [Utf8.encode_append, Utf8.encode_append,
      List.getElem?_append_right (by rw [Utf8.length_encode]; omega),
      List.getElem?_append_left (by rw [Utf8.length_encode, Utf8.length_encode]; omega),
      Utf8.length_encode, start]
  have masked : ∀ n, body.contains n = true →
      (Utf8.encode (maskCharacters (covers ranges) p.size q))[n - body.start]? =
        (Utf8.encode (p ++ (q ++ s)))[n]?.map fun b =>
          if covers ranges n && b != 0x0a then 0x20 else b := by
    intro n inside
    have place : body.start + (n - body.start) = n := by
      simp only [Span.contains, Bool.and_eq_true, decide_eq_true_eq] at inside
      omega
    rw [← bytes, getElem?_maskBytes, window n inside, start, place]
  refine ⟨by rw [Utf8.length_encode, size_maskCharacters, width], ?_, ?_⟩
  · intro n inside isHidden noLineFeed
    obtain ⟨b, byte⟩ : ∃ b, (Utf8.encode (p ++ (q ++ s)))[n]? = some b := by
      rw [window n inside]
      simp only [Span.contains, Bool.and_eq_true, decide_eq_true_eq] at inside
      exact ⟨_, List.getElem?_eq_getElem (by rw [Utf8.length_encode]; omega)⟩
    rw [byte, ne_eq, Option.some.injEq] at noLineFeed
    rw [masked n inside, byte, (covered n).2 isHidden]
    simp [noLineFeed]
  · intro n inside free
    rw [masked n inside]
    rcases free with shown | lineFeed
    · rw [← covered n, Bool.not_eq_true] at shown
      simp [shown]
    · rw [lineFeed]
      simp

/-- A visible character of the text stands where nothing is hidden, in all of its bytes. -/
theorem not_hidden {view own p s : Text} {body : Span} {hides : Nat → Prop} {x : Char} {i : Nat}
    (agrees : HiddenIn view body hides own) (split : own = p ++ x :: s)
    (visible : isBlank x = false) (within : i < x.utf8Size) :
    ¬ hides (body.start + (Text.size p + i)) := by
  intro isHidden
  have inside : body.contains (body.start + (Text.size p + i)) = true := by
    have length := agrees.length
    rw [split, Utf8.length_encode, Text.size_append, Text.size_cons] at length
    simp only [Span.contains, Bool.and_eq_true, decide_eq_true_eq]
    omega
  obtain ⟨byte, there⟩ : ∃ byte, (String.utf8EncodeChar x)[i]? = some byte :=
    ⟨_, List.getElem?_eq_getElem (by rwa [String.length_utf8EncodeChar])⟩
  have ownByte : (Utf8.encode own)[Text.size p + i]? = some byte := by
    rw [split, Utf8.encode_append, Utf8.encode_cons, ← Utf8.length_encode p,
      List.getElem?_append_right (by omega), Nat.add_sub_cancel_left,
      List.getElem?_append_left (by rwa [String.length_utf8EncodeChar]), there]
  have shown : ∀ n : Nat, n < 0x80 → byte = UInt8.ofNat n → isBlank (Char.ofNat n) = false := by
    intro n ascii same
    have code := Utf8.toNat_eq_of_mem_utf8EncodeChar ascii (same ▸ List.mem_of_getElem? there)
    rw [← code, Char.ofNat_toNat, visible]
  -- what is hidden is a line feed or a space, and both are blank
  by_cases lineFeed : (Utf8.encode view)[body.start + (Text.size p + i)]? = some 0x0a
  · have same := agrees.kept _ inside (.inr lineFeed)
    rw [Nat.add_sub_cancel_left, ownByte, lineFeed] at same
    exact absurd (shown 0x0a (by decide) (Option.some.inj same)) (by decide)
  · have same := agrees.hidden _ inside isHidden lineFeed
    rw [Nat.add_sub_cancel_left, ownByte] at same
    exact absurd (shown 0x20 (by decide) (Option.some.inj same)) (by decide)

/-- A match of visible characters reads nothing that is hidden. -/
theorem not_hidden_in_match {view own : Text} {body : Span} {hides : Nat → Prop} {p : Pattern}
    {m : Match} (agrees : HiddenIn view body hides own) (found : p.FoundIn own m)
    (check : p.leadsVisible = true) {n : Nat} (inside : m.span.contains n = true) :
    ¬ hides (body.start + n) := by
  obtain ⟨c, inText, start, whole⟩ := found.exists_matches
  obtain ⟨s, reads, visible⟩ := whole.reads_visible check
  obtain ⟨front, split, offset, _⟩ := inText.split
  simp only [Match.span, Match.stop, Span.contains, Bool.and_eq_true, decide_eq_true_eq, start,
    reads.offset] at inside
  have within : n - c.offset < Text.size s := by omega
  obtain ⟨q, x, r, i, word, within, place⟩ := Text.exists_character within
  have cut : own = (front ++ q) ++ x :: (r ++ m.after.rest) := by
    rw [split, reads.rest, word]
    simp
  have free := agrees.not_hidden cut (visible x (by rw [word]; simp)) within
  rwa [Text.size_append, ← offset, Nat.add_assoc, ← place, Nat.add_sub_cancel' inside.1] at free

end HiddenIn

/-! ### Decisions and junctions -/

namespace Grammar

/-- The decisions and junctions in a text: what adds to its complexity. -/
def countedIn (g : Grammar) (code : Text) : List Match :=
  g.decisions.findAll code ++ g.junctions.findAll code

theorem complexityOf_eq (g : Grammar) (code : Text) :
    g.complexityOf code = 1 + (g.countedIn code).length := by
  rw [complexityOf, countedIn, List.length_append, Nat.add_assoc]

/-- What adds to the complexity holds no blank and is not empty. -/
def countsVisibly (g : Grammar) : Bool :=
  [g.decisions, g.junctions].all fun p => p.leadsVisible && p.startsVisible

/-- What adds to the complexity of a text reads something, and nothing that is hidden. -/
theorem not_hidden_of_mem_countedIn {g : Grammar} {view code : Text} {body : Span}
    {hides : Nat → Prop} {m : Match} (check : g.countsVisibly = true)
    (agrees : HiddenIn view body hides code) (counted : m ∈ g.countedIn code) :
    m.start < m.stop ∧ ∀ n, m.span.contains n = true → ¬ hides (body.start + n) := by
  obtain ⟨p, visible, found⟩ : ∃ p : Pattern,
      (p.leadsVisible && p.startsVisible) = true ∧ p.FoundIn code m := by
    rw [countsVisibly, List.all_eq_true] at check
    rcases List.mem_append.1 counted with decision | junction
    · exact ⟨_, check g.decisions (by simp), Pattern.mem_findAll decision⟩
    · exact ⟨_, check g.junctions (by simp), Pattern.mem_findAll junction⟩
  rw [Bool.and_eq_true] at visible
  refine ⟨?_, fun n inside => agrees.not_hidden_in_match found visible.1 inside⟩
  obtain ⟨c, _, start, whole⟩ := found.exists_matches
  obtain ⟨x, s, reads, _⟩ := whole.starts_visible visible.2
  have positive := x.utf8Size_pos
  rw [start, Match.stop, reads.offset, Text.size_cons]
  omega

end Grammar

theorem Language.countsVisibly_of_grammar? {lang : Language} {g : Grammar}
    (scanned : lang.grammar? = some g) : g.countsVisibly = true :=
  Language.passes_of_grammar? (by decide +kernel) scanned

/-! ### Declarations with a body -/

/-- The own text of a declaration is its body with the enclosed declarations hidden, in either
view. -/
theorem Language.ownTextOf_hiddenIn {lang : Language} {g : Grammar} {t : Text} {index : Nat}
    {d : Declaration} {body : Span} (scanned : lang.grammar? = some g)
    (listed : (g.declared t)[index]? = some d) (isBody : d.body = some body) (kind : ViewKind) :
    HiddenIn (g.viewOf t kind) body (d.Hides (g.declared t) index)
      ((ownTextOf (Views.of g.language t) (g.nestedIn t index d) body).view kind) := by
  obtain ⟨bounded, p, q, s, split, start, width⟩ :=
    Language.exists_body_split scanned (List.mem_of_getElem? listed) index kind isBody
  rw [g.view_ownTextOf, ← width, ← start]
  rw [split] at bounded ⊢
  rw [blankRanges_eq bounded]
  exact .ofWindow start width bounded fun n => covers_nestedRanges

/-- What is found in the body of a declaration is found in texts that agree with the body in the two
views, byte for byte, except that all bytes but line feeds are spaces in the ranges of the other
declarations that it encloses.  So no call and no construct of the declaration starts in such a
range, and no decision and no junction that adds to its complexity has a byte in one. -/
theorem nested_declarations_are_hidden {lang : Language} {g : Grammar}
    (scanned : lang.grammar? = some g) (t : Text) {index : Nat} {d : Declaration} {body : Span}
    (listed : (g.declared t)[index]? = some d) (isBody : d.body = some body) :
    ∃ own : OwnText,
      g.found t index d =
        ⟨body.start, g.complexityOf own.code, findCalls g own, findConstructs g own⟩ ∧
      (∀ kind, HiddenIn (g.viewOf t kind) body (d.Hides (g.declared t) index) (own.view kind)) ∧
      (∀ offset ∈ (g.found t index d).callOffsets, ¬ d.Hides (g.declared t) index offset) ∧
      (∀ offset ∈ (g.found t index d).constructOffsets, ¬ d.Hides (g.declared t) index offset) ∧
      (g.found t index d).complexity = 1 + (g.countedIn own.code).length ∧
      ∀ m ∈ g.countedIn own.code, m.start < m.stop ∧
        ∀ n, m.span.contains n = true → ¬ d.Hides (g.declared t) index (body.start + n) := by
  have declared := List.mem_of_getElem? listed
  have hiddenIn := Language.ownTextOf_hiddenIn scanned listed isBody
  refine ⟨ownTextOf (Views.of g.language t) (g.nestedIn t index d) body,
    Grammar.found_of_body isBody, hiddenIn, ?_, ?_, ?_, ?_⟩
  · intro offset called
    exact (Language.owns_of_mem_callOffsets scanned declared called).not_hides
  · intro offset standing
    exact (Language.owns_of_mem_constructOffsets scanned declared standing).not_hides
  · rw [Grammar.found_of_body isBody]
    exact g.complexityOf_eq _
  · intro m counted
    have check := Language.countsVisibly_of_grammar? scanned
    exact Grammar.not_hidden_of_mem_countedIn check (hiddenIn .code) counted

/-- A function around another one, with a third one inside that.  The innermost one has an
expression for a body and ends where the body around it ends. -/
def doublyNested : Text :=
  "function f()\x7bvar h=()=>\x7bvar i=()=>b&&k()\x7d;if(a)g()\x7d".toList

theorem nested_declarations_are_hidden_twice :
    ∃ d, (Grammar.javascript.declared doublyNested)[0]? = some d ∧ d.body = some ⟨13, 50⟩ ∧
      d.Hides (Grammar.javascript.declared doublyNested) 0 37 ∧
      (Grammar.javascript.found doublyNested 0 d).callOffsets = [47] ∧
      (Grammar.javascript.found doublyNested 0 d).complexity = 2 ∧
      ∃ own : OwnText, ∀ kind, HiddenIn (Grammar.javascript.viewOf doublyNested kind) ⟨13, 50⟩
        (d.Hides (Grammar.javascript.declared doublyNested) 0) (own.view kind) := by
  have first : (Grammar.javascript.declared doublyNested)[0]?.map (fun d =>
      (d.body, covers (nestedRanges (Grammar.javascript.declared doublyNested) 0 d) 37,
        (Grammar.javascript.found doublyNested 0 d).callOffsets,
        (Grammar.javascript.found doublyNested 0 d).complexity)) =
      some (some ⟨13, 50⟩, true, [47], 2) := by
    simp only [Grammar.found, Grammar.declared, Grammar.declarationsOf_eq_insertionSort]
    decide +kernel
  obtain ⟨d, listed, same⟩ := Option.map_eq_some_iff.1 first
  simp only [Prod.mk.injEq] at same
  obtain ⟨isBody, nested, calls, complexity⟩ := same
  have scanned : Language.javascript.grammar? = some Grammar.javascript := rfl
  obtain ⟨own, _, hiddenIn, _⟩ := nested_declarations_are_hidden scanned doublyNested listed isBody
  exact ⟨d, listed, isBody, covers_nestedRanges.1 nested, calls, complexity, own, hiddenIn⟩

end CallAtlas
