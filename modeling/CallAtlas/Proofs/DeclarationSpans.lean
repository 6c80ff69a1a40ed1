/-
Module: CallAtlas.Proofs.DeclarationSpans
Purpose: The ranges of declarations are well formed.  A name has at least one character and its
  header ends before the body, so start, name, body and end are in order; all of them are positions
  of the text and of both views, and whatever is cut at them can be cut.
Main definitions: Declaration.InOrder, Declaration.offsets, DeclarationForm.CutsAt, ExactCut
Main results: DeclarationForm.read?_inOrder, DeclarationForm.firm_of_mem_offsets,
  Language.cutsAt_of_mem_findAll, Language.exactCut_own, declaration_spans_are_well_formed
-/
import CallAtlas.Proofs.CheckedExtraction
import CallAtlas.Proofs.DecoratorPlaces
import CallAtlas.Proofs.RecordPositions

namespace CallAtlas

/-! ### Order -/

/-- A declaration starts at or before its name, the name stands before the end and before the body,
and the body ends at or before the end, which is no further than a text of the given size. -/
structure Declaration.InOrder (size : Nat) (d : Declaration) : Prop where
  start : d.span.start ≤ d.nameAt
  name : d.nameAt < d.span.stop
  stop : d.span.stop ≤ size
  body : ∀ b, d.body = some b → d.nameAt < b.start ∧ b.start ≤ b.stop ∧ b.stop ≤ d.span.stop

/-- All offsets of a declaration. -/
def Declaration.offsets (d : Declaration) : List Nat :=
  [d.span.start, d.nameAt, d.span.stop] ++ d.body.toList.flatMap fun b => [b.start, b.stop]

theorem after_le_of_bodyAfterTail? {code : Text} {after stop : Nat} {tail : Pattern}
    (read : bodyAfterTail? code after tail = some (none, stop)) : after ≤ stop := by
  simp only [bodyAfterTail?, Option.bind_eq_bind, Option.bind_eq_some_iff] at read
  obtain ⟨rest, _, found, _, read⟩ := read
  split at read
  · obtain ⟨block, _, made⟩ := Option.bind_eq_some_iff.1 read
    cases made
  · split at read
    · cases read
    · obtain ⟨_, rfl⟩ := Prod.mk.inj (Option.some.inj read)
      exact Nat.le_add_right _ _

theorem BodyForm.exists_body_of_read? {form : BodyForm} {code : Text} {m : Match}
    {after stop : Nat} {body : Option Span} (read : form.read? code m after = some (body, stop)) :
    ∃ b, body = some b := by
  cases form with
  | braces =>
      obtain ⟨_, _, same⟩ := Option.map_eq_some_iff.1 read
      exact ⟨_, (Prod.mk.inj same).1.symm⟩
  | keywords pair =>
      obtain ⟨_, _, same⟩ := Option.map_eq_some_iff.1 read
      exact ⟨_, (Prod.mk.inj same).1.symm⟩
  | upTo boundary => exact ⟨_, (Prod.mk.inj (Option.some.inj read)).1.symm⟩

namespace DeclarationForm

variable {g : Grammar} {form : DeclarationForm} {views : Views} {containers : List Container}
  {m : Match} {d : Declaration}

/-- No declaration ends inside its header. -/
theorem stop_le_of_read? (anchored : form.Anchored) (found : form.header.FoundIn views.code m)
    (read : form.read? g views containers m = some d) : m.stop ≤ d.span.stop := by
  cases isBody : d.body with
  | some body =>
      have ordered := (read?_bodyPlaced anchored found read).ordered body isBody
      omega
  | none =>
      -- only what a tail announces can be a declaration without a body
      obtain ⟨_, parameters, after, _, listed, bounded, _⟩ := read?_cases read
      have late := ParameterSource.stop_le_of_read? listed
      rw [isBody] at bounded
      cases isTail : form.tail with
      | some tail =>
          rw [isTail] at bounded
          exact Nat.le_trans late (after_le_of_bodyAfterTail? bounded)
      | none =>
          rw [isTail] at bounded
          obtain ⟨_, isSome⟩ := BodyForm.exists_body_of_read? bounded
          cases isSome

/-- A name begins with a visible character of the header. -/
theorem nameAt_of_read? (names : (form.header.marked .name).all (·.opensVisible) = true)
    (found : form.header.FoundIn views.code m)
    (read : form.read? g views containers m = some d) :
    views.code.Firm d.nameAt ∧ d.nameAt < m.stop := by
  obtain ⟨name, _, _, isMarked, _, _, nameAt, _⟩ := read?_cases read
  obtain ⟨q, isPart, c₁, c₂, _, inside, _, inner, rfl, _, before⟩ := found.exists_group isMarked
  have opens := List.all_eq_true.1 names q isPart
  rw [nameAt]
  refine ⟨inside.firm_of_not_atBlank (inner.not_atBlank opens), ?_⟩
  obtain ⟨x, s, reads, _⟩ := inner.opens_visible opens
  have width := x.utf8Size_pos
  have moved := reads.offset
  rw [Text.size_cons] at moved
  dsimp only
  omega

theorem read?_inOrder (anchored : form.Anchored)
    (names : (form.header.marked .name).all (·.opensVisible) = true)
    (found : form.header.FoundIn views.code m)
    (read : form.read? g views containers m = some d) : d.InOrder views.code.size := by
  have placed := read?_placed anchored found read
  have bodyPlaced := read?_bodyPlaced anchored found read
  have late := stop_le_of_read? anchored found read
  have before := (nameAt_of_read? names found read).2
  refine ⟨placed.name, by omega, placed.body.ends.isBoundary.le_size, ?_⟩
  intro body isBody
  have ordered := bodyPlaced.ordered body isBody
  omega

/-- All offsets of a declaration have something else than a space on one side. -/
theorem firm_of_mem_offsets (anchored : form.Anchored)
    (names : (form.header.marked .name).all (·.opensVisible) = true)
    (found : form.header.FoundIn views.code m)
    (read : form.read? g views containers m = some d) {n : Nat} (listed : n ∈ d.offsets) :
    views.code.Firm n := by
  have placed := read?_placed anchored found read
  simp only [Declaration.offsets, List.mem_append, List.mem_cons, List.not_mem_nil, or_false,
    List.mem_flatMap, Option.mem_toList] at listed
  rcases listed with (rfl | rfl | rfl) | ⟨body, isBody, rfl | rfl⟩
  · exact placed.start
  · exact (nameAt_of_read? names found read).1
  · exact placed.body.ends
  · exact placed.body.bodyStart body isBody
  · exact placed.body.bodyStop body isBody

end DeclarationForm

/-! ### Cuts -/

/-- All that is cut out of the views when a header is read can be cut out. -/
structure DeclarationForm.CutsAt (form : DeclarationForm) (views : Views)
    (containers : List Container) (m : Match) : Prop where
  /-- The text before the header, for a doc comment. -/
  before : (views.raw.upTo? m.start).isSome
  /-- The marked parts of the header. -/
  marked : ∀ group span, m.group? group = some span → (views.code.slice? span).isSome
  /-- The decorators, with their strings. -/
  decorators : ∀ span, m.group? .decorators = some span → (views.literal.slice? span).isSome
  /-- The body of the container around the name, up to the name. -/
  inner : ∀ span c, m.group? .name = some span →
    containers.reverse.find? (·.holds span.start) = some c →
    (views.code.slice? ⟨c.bodyStart, span.start⟩).isSome
  /-- What follows the parameters. -/
  rest : ∀ parameters after, form.parameters.read? views.code m = some (parameters, after) →
    (views.code.from? after).isSome

theorem ParameterSource.isBoundary_of_read? {source : ParameterSource} {header : Pattern}
    {code parameters : Text} {m : Match} {after : Nat} (found : header.FoundIn code m)
    (read : source.read? code m = some (parameters, after)) : code.IsBoundary after := by
  cases source with
  | parentheses =>
      obtain ⟨b, braced, same⟩ := Option.map_eq_some_iff.1 read
      obtain ⟨_, rfl⟩ := Prod.mk.inj same
      exact (Block.braced?_standsIn braced (by decide) (by decide)).1.stop.isBoundary
  | header =>
      obtain ⟨_, rfl⟩ := Prod.mk.inj (Option.some.inj read)
      exact found.after_in.isBoundary
  | nowhere =>
      obtain ⟨_, rfl⟩ := Prod.mk.inj (Option.some.inj read)
      exact found.after_in.isBoundary

theorem Language.cutsAt_of_mem_findAll {lang : Language} {g : Grammar} {t : Text}
    {form : DeclarationForm} {m : Match} (scanned : lang.grammar? = some g)
    (inTable : form ∈ g.declarations)
    (listed : m ∈ form.header.findAll (codeView g.language t)) :
    form.CutsAt (Views.of g.language t) (findContainers g (codeView g.language t)) m := by
  have found := Pattern.mem_findAll listed
  refine ⟨?_, ?_, ?_, ?_, ?_⟩
  · have start := found.start_firm (Language.anchored_of_grammar? scanned form inTable).header
    exact Text.isSome_upTo?_iff.2 start.in_views.1
  · intro group span isMarked
    obtain ⟨_, _, c₁, c₂, _, first, second, inner, rfl, _⟩ := found.exists_group isMarked
    exact first.isBoundary.isSome_slice? second.isBoundary inner.le
  · intro span isMarked
    have check := List.all_eq_true.1 (Language.decoratesInFront_of_grammar? scanned) form inTable
    obtain ⟨start, stop, ordered⟩ := form.decorators_firm check found isMarked
    exact start.in_views.2.2.isSome_slice? stop.in_views.2.2 ordered
  · intro span c isMarked around
    obtain ⟨_, _, c₁, c₂, _, first, _, _, rfl, _⟩ := found.exists_group isMarked
    have isContainer := List.mem_reverse.1 (List.mem_of_find?_eq_some around)
    have holds : c.holds c₁.offset = true :=
      List.find?_some (p := fun c : Container => c.holds c₁.offset) around
    exact (bodyStart_of_mem_findContainers isContainer).isSome_slice? first.isBoundary
      (Container.holds_iff.1 holds).1
  · intro parameters after read
    exact Text.isSome_from?_iff.2 (ParameterSource.isBoundary_of_read? found read)

/-! ### Own texts -/

/-- Nothing but spaces is added by blanking characters. -/
theorem mem_of_mem_maskCharacters {covered : Nat → Bool} {offset : Nat} {t : Text} {x : Char}
    (listed : x ∈ maskCharacters covered offset t) (shown : x ≠ ' ') : x ∈ t := by
  induction t generalizing offset with
  | nil => cases listed
  | cons c t ih =>
      rw [maskCharacters, List.mem_append] at listed
      rcases listed with first | later
      · split at first
        · exact absurd (List.eq_of_mem_replicate first) shown
        · rw [List.mem_singleton.1 first]
          exact List.mem_cons_self
      · exact List.mem_cons_of_mem c (ih later)

/-- The bytes of a body in a view, with the given ranges blanked. -/
def blankedBytes (view : Text) (nested : List Span) (body : Span) : List UInt8 :=
  maskBytes (covers nested) body.start
    (((Utf8.encode view).drop body.start).take (body.stop - body.start))

/-- A text is cut out of a view for a body: it has as many bytes as the body, and no bytes are
replaced when those with the given ranges blanked are read as text. -/
structure ExactCut (t view : Text) (nested : List Span) (body : Span) (own : Text) : Prop where
  size : (Utf8.encode own).length = body.stop - body.start
  readable : Utf8.decode? (blankedBytes view nested body) = some own
  /-- Replacement characters are those that the text has in the body. -/
  replacement : Utf8.replacement ∈ own → Utf8.replacement ∈ t.slice body

theorem exactCut_blankRanges {covered : Nat → Bool} {t : Text} {nested : List Span} {body : Span}
    (start : t.IsBoundary body.start) (stop : t.IsBoundary body.stop)
    (ordered : body.start ≤ body.stop) (bounded : Bounded nested (maskCharacters covered 0 t)) :
    ExactCut t (maskCharacters covered 0 t) nested body
      (blankRanges (maskCharacters covered 0 t) body.start (body.stop - body.start) nested) := by
  obtain ⟨p, q, s, rfl, atStart, width⟩ := start.between stop ordered
  have isBody : body = ⟨p.size, p.size + q.size⟩ := by
    rw [atStart, width, Nat.add_sub_cancel' ordered]
  -- the window of the view is what stands there for the window of the text
  have view : maskCharacters covered 0 (p ++ (q ++ s)) = maskCharacters covered 0 p ++
      (maskCharacters covered p.size q ++ maskCharacters covered (p.size + q.size) s) := by
    rw [maskCharacters_append, maskCharacters_append, Nat.zero_add]
  rw [view] at bounded ⊢
  have window := take_drop_encode (maskCharacters covered 0 p) (maskCharacters covered p.size q)
    (maskCharacters covered (p.size + q.size) s)
  have whole := wholeCharacters_covers bounded
  have own := blankRanges_eq bounded
  simp only [size_maskCharacters] at window whole own
  rw [← width, ← atStart, own]
  refine ⟨?_, ?_, ?_⟩
  · rw [← width, Utf8.length_encode, size_maskCharacters, size_maskCharacters]
  · rw [blankedBytes, ← width, ← atStart, window, maskBytes_encode whole, Utf8.decode?_encode]
  · intro listed
    rw [isBody, Text.slice_eq]
    have inView := mem_of_mem_maskCharacters listed (by decide)
    exact mem_of_mem_maskCharacters inView (by decide)

section Scanned

variable {lang : Language} {g : Grammar} {t : Text} {d : Declaration}

/-- The declarations of a text are in order, and their offsets are firm in the view in which they
are found. -/
theorem Language.spans_of_mem_declared (scanned : lang.grammar? = some g)
    (listed : d ∈ g.declared t) :
    d.InOrder t.size ∧ ∀ n ∈ d.offsets, (codeView g.language t).Firm n := by
  obtain ⟨form, inTable, m, searched, read⟩ := Grammar.exists_header_of_mem_declarationsOf listed
  have found := Pattern.mem_findAll searched
  have anchored := Language.anchored_of_grammar? scanned form inTable
  have names := List.all_eq_true.1 (Language.namesVisibly_of_grammar? scanned) form inTable
  have inOrder := form.read?_inOrder anchored names found read
  have sameSize : (codeView g.language t).size = t.size := by
    rw [codeView_eq, size_maskCharacters]
  refine ⟨sameSize ▸ inOrder, fun n listed => ?_⟩
  exact form.firm_of_mem_offsets anchored names found read listed

/-- The own texts of a declaration are cut out exactly. -/
theorem Language.exactCut_own (scanned : lang.grammar? = some g) (listed : d ∈ g.declared t)
    {body : Span} (isBody : d.body = some body) (index : Nat) (kind : ViewKind) :
    ExactCut t (g.viewOf t kind) (g.nestedIn t index d) body
      ((ownTextOf (Views.of g.language t) (g.nestedIn t index d) body).view kind) := by
  obtain ⟨bounded, _⟩ := Language.exists_body_split scanned listed index kind isBody
  obtain ⟨inOrder, firm⟩ := Language.spans_of_mem_declared scanned listed
  rw [g.view_ownTextOf]
  obtain ⟨covered, isView⟩ := g.exists_viewOf_eq t kind
  rw [isView] at bounded ⊢
  refine exactCut_blankRanges ?_ ?_ (inOrder.body body isBody).2.1 bounded
  · exact (firm body.start (by simp [Declaration.offsets, isBody])).in_views.1
  · exact (firm body.stop (by simp [Declaration.offsets, isBody])).in_views.1

end Scanned

/-- Every declaration found in a text of a scanned language starts at or before its name, which
stands before the end and before the body, and all its offsets are positions of the text and of both
views.  So both own texts have exactly the bytes of the body and nothing in them is replaced, every
part that is cut out of a view for a header can be cut out, and extraction meets no difference that
is negative and no range that cannot be cut. -/
theorem declaration_spans_are_well_formed {lang : Language} {g : Grammar}
    (scanned : lang.grammar? = some g) (file : SourceFile) (limit : Nat) :
    let views := Views.of g.language file.text
    (∀ d ∈ g.declared file.text, d.InOrder file.text.size ∧
      ∀ n ∈ d.offsets,
        file.text.IsBoundary n ∧ views.code.IsBoundary n ∧ views.literal.IsBoundary n) ∧
    (∀ d ∈ g.declared file.text, ∀ body, d.body = some body → ∀ index kind,
      ExactCut file.text (g.viewOf file.text kind) (g.nestedIn file.text index d) body
        ((ownTextOf views (g.nestedIn file.text index d) body).view kind)) ∧
    (∀ form ∈ g.declarations, ∀ m ∈ form.header.findAll views.code,
      form.CutsAt views (findContainers g views.code) m) ∧
    g.extractChecked file limit = .ok (g.extract file limit) := by
  refine ⟨?_, ?_, ?_, ?_⟩
  · intro d listed
    obtain ⟨inOrder, firm⟩ := Language.spans_of_mem_declared scanned listed
    exact ⟨inOrder, fun n isOffset => (firm n isOffset).in_views⟩
  · intro d listed body isBody index kind
    exact Language.exactCut_own scanned listed isBody index kind
  · intro form inTable m searched
    exact Language.cutsAt_of_mem_findAll scanned inTable searched
  · refine Language.extractChecked_eq scanned ?_ ?_ limit
    · exact fun d listed => (Language.placed_in_views scanned listed).1
    · exact fun d listed => (Language.placed_in_views scanned listed).2

/-- A decorated method with a function in its body, and characters of two bytes in the strings of
both. -/
def decoratedMethod : SourceFile :=
  ⟨"m.js", "m", "class C \x7b\n@a('é') m() \x7b\nfunction h() \x7b k('ü'); \x7d\n\x7d\n\x7d".toList⟩

theorem declaration_spans_are_well_formed_decorated :
    (Grammar.javascript.declared decoratedMethod.text).map
      (fun d => (d.name, d.decorators, d.span, d.nameAt, d.body)) =
      [("m", ["a('é')"], ⟨10, 52⟩, 19, some ⟨24, 51⟩), ("h", [], ⟨25, 50⟩, 34, some ⟨39, 49⟩)] ∧
    (∀ d ∈ Grammar.javascript.declared decoratedMethod.text,
      d.InOrder decoratedMethod.text.size ∧ ∀ n ∈ d.offsets, decoratedMethod.text.IsBoundary n) ∧
    Grammar.javascript.extractChecked decoratedMethod 80 =
      .ok (Grammar.javascript.extract decoratedMethod 80) := by
  have scanned : Language.javascript.grammar? = some Grammar.javascript := rfl
  obtain ⟨spans, _, _, extracted⟩ := declaration_spans_are_well_formed scanned decoratedMethod 80
  refine ⟨?_, fun d listed => ?_, extracted⟩
  · simp only [Grammar.declared, Grammar.declarationsOf_eq_insertionSort]
    decide +kernel
  exact ⟨(spans d listed).1, fun n isOffset => ((spans d listed).2 n isOffset).1⟩

end CallAtlas
