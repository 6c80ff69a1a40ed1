/-
Module: CallAtlas.Proofs.RecordPositions
Purpose: Records say where they stand in the text.  A name is found in a view and a call in a window
  of a view with the enclosed declarations blanked; the lines of both are lines of the text, at an
  offset where the text has the name, or the start of the callee.  The callee itself is read across
  enclosed declarations, so it need not be in the text.
Main definitions: Grammar.scannedView, Function.NamedAt, Call.ReadAt
Main results: Language.exists_name, Language.call_readAt, record_positions_are_text_positions,
  callee_is_spliced_around_declaration
-/
import Mathlib.Data.List.Forall2
import CallAtlas.Proofs.LineContainment
import CallAtlas.Proofs.VisibleText

namespace CallAtlas

/-! ### Names -/

/-- The names of all forms begin with something visible. -/
def Grammar.namesVisibly (g : Grammar) : Bool :=
  g.declarations.all fun form => (form.header.marked .name).all (·.opensVisible)

theorem Language.namesVisibly_of_grammar? {lang : Language} {g : Grammar}
    (scanned : lang.grammar? = some g) : g.namesVisibly = true :=
  Language.passes_of_grammar? (by decide +kernel) scanned

/-- The part of a text between two positions. -/
theorem Cursor.In.slice {t s : Text} {c c' : Cursor} (inside : c.In t) (reads : c.Reads s c') :
    ∃ p r, t = p ++ (s ++ r) ∧ Text.size p = c.offset ∧ t.slice ⟨c.offset, c'.offset⟩ = s := by
  obtain ⟨p, split, offset, _⟩ := inside.split
  rw [reads.rest] at split
  refine ⟨p, c'.rest, split, offset.symm, ?_⟩
  rw [split, reads.offset, offset]
  exact Text.slice_eq

/-- The first word of a name stands in the text where the name is said to start. -/
theorem Language.exists_name {lang : Language} {g : Grammar} {t : Text} {d : Declaration}
    (scanned : lang.grammar? = some g) (listed : d ∈ g.declared t) :
    ∃ word more p s, Text.words d.name.toList = word :: more ∧ t = p ++ (word ++ s) ∧
      Text.size p = d.nameAt := by
  obtain ⟨form, inTable, m, searched, read⟩ := Grammar.exists_header_of_mem_declarationsOf listed
  obtain ⟨span, _, _, isMarked, _, _, nameAt, _, name⟩ := DeclarationForm.read?_cases read
  obtain ⟨q, isPart, c₁, c₂, _, inside, _, inner, rfl, _, _⟩ :=
    (Pattern.mem_findAll searched).exists_group isMarked
  have check := Language.namesVisibly_of_grammar? scanned
  simp only [Grammar.namesVisibly, List.all_eq_true] at check
  obtain ⟨x, s, reads, visible⟩ := inner.opens_visible (check form inTable q isPart)
  obtain ⟨p, r, split, offset, slice⟩ := inside.slice reads
  obtain ⟨word, rest, wordSplit, shown, words⟩ := Text.exists_first_word (t := s) visible
  rw [slice] at name
  have view : maskCharacters (covers (hiddenRanges g.language t)) 0 t =
      p ++ (x :: word ++ (rest ++ r)) := by
    rw [← codeView_eq, List.cons_append, ← List.append_assoc word, ← wordSplit]
    exact split
  obtain ⟨p', s', textSplit, width⟩ := split_of_maskCharacters view visible
    fun q y r within => Or.inr (shown y (by rw [within]; simp))
  refine ⟨x :: word, Text.words rest, p', s', ?_, textSplit, ?_⟩
  · rw [name, String.toList_ofList, Text.words_collapse, words]
  · rw [width, offset, nameAt]

/-! ### Scanned views -/

namespace Grammar

/-- The view of a text that a form is looked for in. -/
def viewOf (g : Grammar) (t : Text) : ViewKind → Text
  | .code => codeView g.language t
  | .literal => literalView g.language t

/-- The ranges of the declarations that a declaration of a text encloses. -/
def nestedIn (g : Grammar) (t : Text) (index : Nat) (d : Declaration) : List Span :=
  nestedRanges (g.declared t) index d

/-- A view of a text without the declarations that one declaration encloses: what is searched for
the calls of that declaration, within its body. -/
def scannedView (g : Grammar) (t : Text) (index : Nat) (d : Declaration) (kind : ViewKind) : Text :=
  mask (g.nestedIn t index d) (g.viewOf t kind)

theorem exists_viewOf_eq (g : Grammar) (t : Text) (kind : ViewKind) :
    ∃ covered, g.viewOf t kind = maskCharacters covered 0 t := by
  cases kind with
  | code => exact ⟨_, codeView_eq g.language t⟩
  | literal => exact ⟨_, literalView_eq g.language t⟩

theorem view_ownTextOf (g : Grammar) (t : Text) (index : Nat) (d : Declaration) (kind : ViewKind)
    (body : Span) :
    (ownTextOf (Views.of g.language t) (g.nestedIn t index d) body).view kind =
      blankRanges (g.viewOf t kind) body.start (body.stop - body.start) (g.nestedIn t index d) := by
  cases kind with
  | code => rfl
  | literal => rfl

end Grammar

section Window

variable {covered : Nat → Bool} {p q s a r b : Text} {x : Char}

/-- A part of a masked window is a part of the masked text. -/
theorem slice_of_window (own : maskCharacters covered p.size q = a ++ (r ++ b)) :
    Text.slice (maskCharacters covered 0 (p ++ (q ++ s)))
      ⟨p.size + a.size, p.size + (a.size + r.size)⟩ = r := by
  have whole : maskCharacters covered 0 (p ++ (q ++ s)) =
      (maskCharacters covered 0 p ++ a) ++
        (r ++ (b ++ maskCharacters covered (p.size + q.size) s)) := by
    rw [maskCharacters_append, maskCharacters_append, Nat.zero_add, own]
    simp
  have start : p.size + a.size = Text.size (maskCharacters covered 0 p ++ a) := by simp
  rw [whole, ← Nat.add_assoc, start]
  exact Text.slice_eq

/-- A part of a masked window of which nothing is hidden is a part of the text. -/
theorem split_of_window (own : maskCharacters covered p.size q = a ++ (x :: r ++ b))
    (visible : isBlank x = false)
    (kept : ∀ n, p.size + a.size + x.utf8Size ≤ n →
      n < p.size + (a.size + Text.size (x :: r)) → covered n = false) :
    ∃ p' s', p ++ (q ++ s) = p' ++ (x :: r ++ s') ∧ Text.size p' = p.size + a.size := by
  obtain ⟨a', s', rfl, width⟩ := split_of_maskCharacters own visible fun q' y r' within => by
    have positive := y.utf8Size_pos
    refine Or.inl (kept _ (by omega) ?_)
    rw [within, Text.size_cons, Text.size_append, Text.size_cons]
    omega
  exact ⟨p ++ a', s' ++ s, by simp, by simp [width]⟩

end Window

section Calls

variable {lang : Language} {g : Grammar} {t : Text} {index : Nat} {d : Declaration}

theorem Language.placed_in_viewOf (scanned : lang.grammar? = some g) (listed : d ∈ g.declared t)
    (kind : ViewKind) : d.Placed (g.viewOf t kind).IsBoundary := by
  cases kind with
  | code => exact (Language.placed_in_views scanned listed).1
  | literal => exact (Language.placed_in_views scanned listed).2

/-- The body of a declaration is a part of each view, and the declarations in it begin and end
between characters. -/
theorem Language.exists_body_split (scanned : lang.grammar? = some g) (listed : d ∈ g.declared t)
    (index : Nat) (kind : ViewKind) {body : Span} (isBody : d.body = some body) :
    Bounded (g.nestedIn t index d) (g.viewOf t kind) ∧ ∃ p q s, g.viewOf t kind = p ++ (q ++ s) ∧
      Text.size p = body.start ∧ Text.size q = body.stop - body.start := by
  have placed : ∀ e ∈ g.declared t, e.Placed (g.viewOf t kind).IsBoundary :=
    fun e declared => Language.placed_in_viewOf scanned declared kind
  have known := (placed d listed).body
  refine ⟨nestedRanges_bounded index d placed, ?_⟩
  exact (known.bodyStart body isBody).between (known.bodyStop body isBody)
    (known.ordered body isBody).2.1

/-- The text that is searched for the calls of a declaration is the window of its body in the
scanned view. -/
theorem Language.exists_window (scanned : lang.grammar? = some g) (listed : d ∈ g.declared t)
    (index : Nat) (kind : ViewKind) {body : Span} (isBody : d.body = some body) :
    ∃ p q s, g.viewOf t kind = p ++ (q ++ s) ∧ Text.size p = body.start ∧
      blankRanges (g.viewOf t kind) body.start (body.stop - body.start) (g.nestedIn t index d) =
        maskCharacters (covers (g.nestedIn t index d)) (Text.size p) q ∧
      g.scannedView t index d kind =
        maskCharacters (covers (g.nestedIn t index d)) 0 (p ++ (q ++ s)) := by
  obtain ⟨bounded, p, q, s, split, start, width⟩ :=
    Language.exists_body_split scanned listed index kind isBody
  refine ⟨p, q, s, split, start, ?_, ?_⟩
  · rw [← width, ← start, split]
    exact blankRanges_eq (split ▸ bounded)
  · rw [Grammar.scannedView, mask_eq bounded, split]

theorem Grammar.exists_call_match {site : CallSite} (called : site ∈ (g.found t index d).calls) :
    ∃ body, d.body = some body ∧ (g.found t index d).base = body.start ∧
      ∃ form ∈ g.calls, ∃ m ∈ form.pattern.findAll (blankRanges (g.viewOf t form.view) body.start
        (body.stop - body.start) (g.nestedIn t index d)), ∃ span,
        m.group? .callee = some span ∧ site.offset = span.start ∧
        site.callee.toList = ((blankRanges (g.viewOf t form.view) body.start
          (body.stop - body.start) (g.nestedIn t index d)).slice span).squeeze := by
  cases isBody : d.body with
  | none =>
      rw [Grammar.found_of_no_body isBody] at called
      cases called
  | some body =>
      rw [Grammar.found_of_body isBody] at called ⊢
      obtain ⟨form, inTable, found⟩ := exists_match_of_mem_findCalls called
      have window := g.view_ownTextOf t index d form.view body
      rw [Grammar.nestedIn] at window
      rw [window] at found
      exact ⟨body, rfl, rfl, form, inTable, found⟩

/-! ### Positions of records -/

/-- A function is on the line of an offset at which the text has the first word of its name. -/
structure Function.NamedAt (f : Function) (t : Text) (offset : Nat) : Prop where
  line : f.line = 1 + ((Utf8.encode t).take offset).count 0x0a
  name : ∃ word more p s, Text.words f.name.toList = word :: more ∧ t = p ++ (word ++ s) ∧
    Text.size p = offset

/-- A call is on the line of an offset in the body of its declaration at which a match begins to
read the callee.  The callee is what the view without the enclosed declarations has from there to
the end of the match, without blanks, and begins with the character of the text. -/
structure Call.ReadAt (c : Call) (g : Grammar) (t : Text) (index : Nat) (d : Declaration)
    (offset : Nat) : Prop where
  line : c.line = 1 + ((Utf8.encode t).take offset).count 0x0a
  callee : ∃ body form m span, d.body = some body ∧ body.contains offset = true ∧
    form ∈ g.calls ∧
    m ∈ form.pattern.findAll (blankRanges (g.viewOf t form.view) body.start
      (body.stop - body.start) (g.nestedIn t index d)) ∧
    m.group? .callee = some span ∧ offset = body.start + span.start ∧
    c.calleeName = String.ofList (((g.scannedView t index d form.view).slice
      ⟨offset, body.start + span.stop⟩).filter fun x => !isBlank x) ∧
    -- where no enclosed declaration is in between, this is the view itself
    ((∀ n, offset ≤ n → n < body.start + span.stop → covers (g.nestedIn t index d) n = false) →
      c.calleeName = String.ofList (((g.viewOf t form.view).slice
        ⟨offset, body.start + span.stop⟩).filter fun x => !isBlank x))
  first : ∃ p x s, t = p ++ x :: s ∧ Text.size p = offset ∧ c.calleeName.toList.head? = some x

theorem Language.call_readAt (scanned : lang.grammar? = some g) {file : SourceFile}
    (declared : d ∈ g.declared file.text) {site : CallSite}
    (called : site ∈ (g.found file.text index d).calls) (callerId : String) (number : Nat) :
    (site.record file callerId (g.found file.text index d).base number).ReadAt g file.text index d
      ((g.found file.text index d).base + site.offset) := by
  have offset : (g.found file.text index d).base + site.offset ∈
      (g.found file.text index d).callOffsets := List.mem_map_of_mem called
  obtain ⟨body, isBody, base, form, inTable, m, searched, span, isMarked, start, callee⟩ :=
    Grammar.exists_call_match called
  obtain ⟨_, isBody', inBody⟩ := (Language.owns_of_mem_callOffsets scanned declared offset).inBody
  obtain rfl := Option.some.inj (isBody.symm.trans isBody')
  obtain ⟨p, q, s, split, atStart, own, view⟩ :=
    Language.exists_window scanned declared index form.view isBody
  obtain ⟨part, isPart, c₁, c₂, _, inside, _, inner, rfl, _, _⟩ :=
    (Pattern.mem_findAll searched).exists_group isMarked
  have check := Language.readsVisibly_of_grammar? scanned
  simp only [Grammar.readsVisibly, Bool.and_eq_true, List.all_eq_true] at check
  obtain ⟨x, r, reads, visible⟩ := inner.starts_visible (check.1 form inTable part isPart)
  obtain ⟨a, b, ownSplit, atCallee, slice⟩ := inside.slice reads
  have name : site.callee = String.ofList ((x :: r).filter fun y => !isBlank y) := by
    rw [← Text.squeeze_eq_filter, ← slice, ← callee, String.ofList_toList]
  rw [own] at ownSplit
  have starts : body.start + site.offset = p.size + a.size := by rw [start, atStart, atCallee]
  have stops : body.start + c₂.offset = p.size + (a.size + Text.size (x :: r)) := by
    rw [reads.offset, atStart, atCallee]
  rw [base] at inBody ⊢
  refine ⟨file.text.lineAt_eq_count _, ⟨body, form, m, _, isBody, inBody, inTable, searched,
    isMarked, by rw [start], ?_, ?_⟩, ?_⟩
  · rw [starts, stops, view, slice_of_window ownSplit]
    exact name
  · intro free
    rw [starts, stops] at free ⊢
    obtain ⟨p', s', viewSplit, size⟩ :=
      split_of_window (s := s) ownSplit visible fun n late early => free n (by omega) early
    rw [split, viewSplit, ← Nat.add_assoc, ← size, Text.slice_eq]
    exact name
  · -- the first character is visible in the window, so in the view, so in the text
    have first : maskCharacters (covers (g.nestedIn file.text index d)) p.size q =
        a ++ ([x] ++ (r ++ b)) := ownSplit
    obtain ⟨p', s', viewSplit, size⟩ := split_of_window (s := s) first visible (by simp; omega)
    obtain ⟨covered, masked⟩ := g.exists_viewOf_eq file.text form.view
    rw [← split, masked] at viewSplit
    obtain ⟨front, rest, textSplit, width⟩ := split_of_maskCharacters viewSplit visible (by simp)
    refine ⟨front, x, rest, textSplit, by rw [width, size, starts], ?_⟩
    rw [CallSite.record, name, String.toList_ofList, List.filter_cons_of_pos (by simp [visible])]
    rfl

end Calls

/-! ### All records of a file -/

theorem recordsFrom_forall₂ (file : SourceFile) (limit calls flows : Nat)
    (owned : List (Declaration × Findings)) :
    List.Forall₂ (fun own o => ∃ calls flows, o = .of file limit calls flows own.1 own.2) owned
      (recordsFrom file limit calls flows owned) := by
  induction owned generalizing calls flows with
  | nil => exact .nil
  | cons own more ih => exact .cons ⟨calls, flows, rfl⟩ (ih _ _)

/-- The records of a file come from its declarations, in order.  Each function is on the line of the
offset at which its name stands in the text, and each call on the line of an offset in the body of
its declaration at which its callee stands in the view without the enclosed declarations. -/
theorem record_positions_are_text_positions {lang : Language} {g : Grammar}
    (scanned : lang.grammar? = some g) (file : SourceFile) (limit : Nat) :
    (lang.extract file limit).functions = (g.recordsByOwner file limit).map (·.function) ∧
    (lang.extract file limit).calls = (g.recordsByOwner file limit).flatMap (·.calls) ∧
    List.Forall₂ (fun d o =>
        o.function.name = d.1.name ∧ o.function.NamedAt file.text d.1.nameAt ∧
        ∀ c ∈ o.calls, c.callerId = o.function.id ∧
          ∃ offset, c.ReadAt g file.text d.2 d.1 offset)
      (g.declared file.text).zipIdx (g.recordsByOwner file limit) := by
  have extracted : lang.declaredWith Python.outline file limit = g.extract file limit := by
    rw [Language.declaredWith, scanned]
  have records := extracted.trans (g.extract_eq_recordsByOwner file limit)
  refine ⟨congrArg FileRecords.functions records, congrArg FileRecords.calls records, ?_⟩
  have paired := List.forall₂_map_left_iff.1 (recordsFrom_forall₂ file limit 0 0 (g.owned file.text))
  have listed := (List.forall₂_and_left _ _).2 ⟨fun _ => id, paired⟩
  refine listed.imp ?_
  rintro ⟨d, index⟩ _ ⟨indexed, calls, flows, rfl⟩
  have declared : d ∈ g.declared file.text := List.fst_mem_of_mem_zipIdx indexed
  refine ⟨rfl, ⟨file.text.lineAt_eq_count _, Language.exists_name scanned declared⟩, ?_⟩
  intro c recorded
  obtain ⟨i, bound, rfl⟩ := List.mem_mapIdx.1 recorded
  exact ⟨rfl, _, Language.call_readAt scanned declared (List.getElem_mem bound) _ _⟩

/-- A chain of names that a comment and the end of a line break. -/
def brokenChain : SourceFile :=
  ⟨"m.js", "m", "/* é */ function f() \x7b\n  a // b\n  .c();\n\x7d\n".toList⟩

theorem record_positions_are_text_positions_chain :
    (Grammar.javascript.recordsByOwner brokenChain 80).map (fun o =>
        (o.function.name, o.function.line, o.calls.map fun c => (c.calleeName, c.line))) =
      [("f", 1, [("a.c", 2)])] ∧
    List.Forall₂ (fun d o =>
        o.function.name = d.1.name ∧ o.function.NamedAt brokenChain.text d.1.nameAt ∧
        ∀ c ∈ o.calls, c.callerId = o.function.id ∧
          ∃ offset, c.ReadAt Grammar.javascript brokenChain.text d.2 d.1 offset)
      (Grammar.javascript.declared brokenChain.text).zipIdx
      (Grammar.javascript.recordsByOwner brokenChain 80) := by
  have scanned : Language.javascript.grammar? = some Grammar.javascript := rfl
  exact ⟨by decide +kernel, (record_positions_are_text_positions scanned brokenChain 80).2.2⟩

/-! ### Callees that are not in the text -/

/-- A function between two names.  Its text ends with its line, so the text around it that is
searched for calls goes on with the second line of its value. -/
def splicedChain : SourceFile :=
  ⟨"m.js", "m",
    "function f() \x7b\n  let x = foo\n  const g = (y) => items\n    .map(y)\n\x7d\n".toList⟩

/-- A call is recorded as `foo.map` in a text that nowhere has such a chain: no part of its code,
with or without its strings, is `foo.map` once the blanks are taken out. -/
theorem callee_is_spliced_around_declaration :
    (Language.javascript.extract splicedChain 80).calls.map
        (fun c => (c.callerId, c.calleeName, c.line)) = [("m.f:1", "foo.map", 2)] ∧
      ∀ kind range, "foo.map" ≠ String.ofList
        (((Grammar.javascript.viewOf splicedChain.text kind).slice range).filter
          fun x => !isBlank x) := by
  constructor
  · simp only [Language.extract, Language.extractWith, Language.declaredWith, Grammar.extract,
      Grammar.declarationsOf_eq_insertionSort]
    decide +kernel
  intro kind range spelled
  -- what a part of the view spells without blanks is a part of what the view spells
  have part : "foo.map".toList <:+:
      (Grammar.javascript.viewOf splicedChain.text kind).filter fun x => !isBlank x := by
    rw [spelled, String.toList_ofList]
    exact (Text.slice_infix _ range).filter _
  revert part
  cases kind with
  | code => decide +kernel
  | literal => decide +kernel

end CallAtlas
