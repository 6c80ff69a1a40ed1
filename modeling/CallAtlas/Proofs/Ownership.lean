/-
Module: CallAtlas.Proofs.Ownership
Purpose: Which declaration a call or a construct belongs to.  The declarations inside a body are
  blanked out of it, so what is found in the rest stands in the body and in none of them.  That
  gives every offset one owner as long as bodies are nested or apart; two bodies that overlap
  otherwise are both searched where they overlap.
Main definitions: Grammar.owned, Declaration.Owns, Declaration.Crosses
Main results: Grammar.declarationsOf_eq_insertionSort, Language.owns_of_mem_callOffsets,
  Language.owns_of_mem_constructs, Declaration.Owns.crosses, shared_offsets_lie_in_crossing_bodies
-/
import Mathlib.Data.List.Sort
import CallAtlas.Proofs.BodyPlaces
import CallAtlas.Proofs.DeclarationPlaces

namespace CallAtlas

/-! ### Bodies with ranges blanked -/

/-- What stands for a covered character is blank. -/
theorem uncovered_of_visible {hidden : Bool} {c x : Char} {n : Nat}
    (listed : x ∈ if hidden && c != '\n' then List.replicate n ' ' else [c])
    (visible : isBlank x = false) : hidden = false := by
  cases hidden with
  | false => rfl
  | true =>
      have blank : isBlank x = true := by
        split at listed
        · rw [List.eq_of_mem_replicate listed]
          decide
        · next kept =>
            -- only a line feed is left as it is
            have lineFeed : c = '\n' := by simpa using kept
            rw [List.mem_singleton.1 listed, lineFeed]
            decide
      rw [visible] at blank
      cases blank

/-- A visible character of a masked text is not covered. -/
theorem visibleAt_maskCharacters {covered : Nat → Bool} {offset n : Nat} {t : Text}
    (visible : (maskCharacters covered offset t).VisibleAt n) : covered (offset + n) = false := by
  induction t generalizing offset n with
  | nil =>
      obtain ⟨p, x, s, split, _⟩ := visible
      cases p <;> cases split
  | cons c t ih =>
      obtain ⟨p, x, s, split, rfl, shown⟩ := visible
      rw [maskCharacters] at split
      have width : Text.size (if covered offset && c != '\n' then List.replicate c.utf8Size ' '
          else [c]) = c.utf8Size := by
        split <;> simp
      have later : ∀ p', maskCharacters covered (offset + c.utf8Size) t = p' ++ x :: s →
          covered (offset + (c.utf8Size + Text.size p')) = false := by
        intro p' rest
        rw [← Nat.add_assoc]
        exact ih ⟨p', x, s, rest, rfl, shown⟩
      rcases List.append_eq_append_iff.1 split with ⟨p', rfl, rest⟩ | ⟨s', piece, cut⟩
      · -- the character is behind what stands for the first one
        rw [Text.size_append, width]
        exact later p' rest
      · cases s' with
        | nil =>
            -- it is the very next one
            rw [List.append_nil] at piece
            rw [← piece, width]
            exact later [] cut.symm
        | cons y s' =>
            obtain ⟨rfl, _⟩ := List.cons.inj cut
            have free : covered offset = false :=
              uncovered_of_visible (by rw [piece]; simp) shown
            rw [free] at piece
            have empty : p = [] := by
              cases p with
              | nil => rfl
              | cons z p =>
                  have length := congrArg List.length piece
                  simp at length
            rw [empty]
            exact free

/-- The own text of a body is the body with whole characters blanked. -/
theorem blankRanges_body {view : Text} {nested : List Span} {body : Span}
    (start : view.IsBoundary body.start) (stop : view.IsBoundary body.stop)
    (ordered : body.start ≤ body.stop) (bounded : Bounded nested view) :
    ∃ q, Text.size q = body.stop - body.start ∧
      blankRanges view body.start (body.stop - body.start) nested =
        maskCharacters (covers nested) body.start q := by
  obtain ⟨p, q, s, rfl, atStart, width⟩ := start.between stop ordered
  refine ⟨q, width, ?_⟩
  rw [← width, ← atStart]
  exact blankRanges_eq bounded

/-! ### What a declaration owns -/

/-- An offset lies in the body of a declaration and in none of the declarations that it encloses. -/
structure Declaration.Owns (declarations : List Declaration) (index : Nat) (d : Declaration)
    (offset : Nat) : Prop where
  inBody : ∃ body, d.body = some body ∧ body.contains offset = true
  notNested : covers (nestedRanges declarations index d) offset = false

theorem nestedRanges_bounded {view : Text} {declarations : List Declaration} (index : Nat)
    (d : Declaration) (placed : ∀ e ∈ declarations, e.Placed view.IsBoundary) :
    Bounded (nestedRanges declarations index d) view := by
  intro r listed
  obtain ⟨⟨e, j⟩, kept, rfl⟩ := List.mem_map.1 listed
  have known := placed e (List.fst_mem_of_mem_zipIdx (List.mem_filter.1 kept).1)
  exact ⟨known.start, known.body.ends⟩

section OwnText

variable {view : Text} {declarations : List Declaration} {d : Declaration} {index : Nat}
  {body : Span}

theorem Declaration.Placed.blankRanges_eq (index : Nat)
    (placed : ∀ e ∈ declarations, e.Placed view.IsBoundary) (listed : d ∈ declarations)
    (isBody : d.body = some body) :
    ∃ q, Text.size q = body.stop - body.start ∧
      blankRanges view body.start (body.stop - body.start) (nestedRanges declarations index d) =
        maskCharacters (covers (nestedRanges declarations index d)) body.start q := by
  have known := (placed d listed).body
  exact blankRanges_body (known.bodyStart body isBody) (known.bodyStop body isBody)
    (known.ordered body isBody).2.1 (nestedRanges_bounded index d placed)

/-- A visible character of the own text of a declaration is the declaration's own. -/
theorem Declaration.Placed.owns_of_visibleAt {n : Nat}
    (placed : ∀ e ∈ declarations, e.Placed view.IsBoundary) (listed : d ∈ declarations)
    (isBody : d.body = some body)
    (visible : (blankRanges view body.start (body.stop - body.start)
      (nestedRanges declarations index d)).VisibleAt n) :
    d.Owns declarations index (body.start + n) := by
  obtain ⟨q, width, own⟩ := Declaration.Placed.blankRanges_eq index placed listed isBody
  rw [own] at visible
  refine ⟨⟨body, isBody, ?_⟩, visibleAt_maskCharacters visible⟩
  have inside := visible.lt_size
  rw [size_maskCharacters, width] at inside
  simp only [Span.contains, Bool.and_eq_true, decide_eq_true_eq]
  omega

end OwnText

/-! ### Declarations in order

What is found is sorted by a stable sort.  Sorting by insertion gives the same order and computes,
so that the declarations of a given text can be evaluated.
-/

/-- The order need not be antisymmetric: two declarations may have the same place in it. -/
theorem mergeSort_eq_insertionSort {α : Type} {le : α → α → Bool}
    (trans : ∀ a b c, le a b = true → le b c = true → le a c = true)
    (total : ∀ a b, (le a b || le b a) = true) (l : List α) :
    l.mergeSort le = l.insertionSort fun a b => le a b = true := by
  induction l with
  | nil => rw [List.mergeSort_nil, List.insertionSort_nil]
  | cons a l ih =>
      obtain ⟨front, back, whole, rest, before⟩ := List.mergeSort_cons trans total a l
      have sorted := List.pairwise_mergeSort trans total (a :: l)
      rw [whole, List.pairwise_append, List.pairwise_cons] at sorted
      have passes : ∀ b ∈ front, decide (¬ le a b = true) = true := by
        intro b listed
        simpa using before b listed
      have stops : back.takeWhile (fun b => decide ¬ le a b = true) = [] ∧
          back.dropWhile (fun b => decide ¬ le a b = true) = back := by
        cases back with
        | nil => exact ⟨rfl, rfl⟩
        | cons b back => simp [sorted.2.1.1 b List.mem_cons_self]
      rw [whole, List.insertionSort_cons, ← ih, rest, List.orderedInsert_eq_take_drop,
        List.takeWhile_append_of_pos passes, List.dropWhile_append_of_pos passes, stops.1, stops.2,
        List.append_nil]

theorem mergeSort_by_key {α : Type} (key : α → Nat) (l : List α) :
    l.mergeSort (fun a b => key a ≤ key b) =
      l.insertionSort fun a b => decide (key a ≤ key b) = true := by
  apply mergeSort_eq_insertionSort
  · intro a b c
    simp only [decide_eq_true_eq]
    exact Nat.le_trans
  · intro a b
    simpa using Nat.le_total (key a) (key b)

theorem findContainers_eq_insertionSort (g : Grammar) (code : Text) :
    findContainers g code = withPaths [] ((g.containers.flatMap (·.findAll code)).insertionSort
      fun a b => decide (a.start ≤ b.start) = true) := by
  rw [findContainers, mergeSort_by_key Container.start]

/-- Whether a declaration is not listed behind another one. -/
def Declaration.precedes (a b : Declaration) : Bool :=
  a.span.start < b.span.start || (a.span.start == b.span.start && a.nameAt ≤ b.nameAt)

theorem Grammar.declarationsOf_eq_insertionSort (g : Grammar) (views : Views) :
    g.declarationsOf views =
      (firstByName [] (g.declarations.flatMap fun form => (form.header.findAll views.code).filterMap
        (form.read? g views (findContainers g views.code)))).insertionSort
          fun a b => a.precedes b = true := by
  rw [declarationsOf, findDeclarations]
  refine mergeSort_eq_insertionSort ?_ ?_ _
  · intro a b c
    simp only [Bool.or_eq_true, Bool.and_eq_true, decide_eq_true_eq, beq_iff_eq]
    omega
  · intro a b
    simp only [Bool.or_eq_true, Bool.and_eq_true, decide_eq_true_eq, beq_iff_eq]
    omega

/-! ### Calls and constructs -/

namespace Grammar

/-- The declarations of a text. -/
def declared (g : Grammar) (t : Text) : List Declaration :=
  g.declarationsOf (Views.of g.language t)

/-- What the body of a declaration of a text holds. -/
def found (g : Grammar) (t : Text) (index : Nat) (d : Declaration) : Findings :=
  g.findings (Views.of g.language t) (g.declared t) index d

/-- The declarations of a text, each with what its body holds. -/
def owned (g : Grammar) (t : Text) : List (Declaration × Findings) :=
  (g.declared t).zipIdx.map fun (d, index) => (d, g.found t index d)

variable {g : Grammar} {t : Text} {index : Nat} {d : Declaration}

theorem found_of_body {body : Span} (isBody : d.body = some body) :
    g.found t index d =
      let own := ownTextOf (Views.of g.language t) (nestedRanges (g.declared t) index d) body
      ⟨body.start, g.complexityOf own.code, findCalls g own, findConstructs g own⟩ := by
  rw [found, findings, isBody]

theorem found_of_no_body (isBody : d.body = none) : g.found t index d = ⟨0, 1, [], []⟩ := by
  rw [found, findings, isBody]

/-- The records of a file are those of its declarations, one declaration after the other. -/
theorem extract_eq_foldl_owned (g : Grammar) (file : SourceFile) (limit : Nat) :
    g.extract file limit =
      (g.owned file.text).foldl (fun records o => records.addDeclaration file limit o.1 o.2)
        ⟨file.path, file.moduleName, [], [], [], []⟩ := by
  rw [owned, List.foldl_map]
  rfl

end Grammar

/-- The byte offsets at which the calls of a declaration start. -/
def Findings.callOffsets (found : Findings) : List Nat :=
  found.calls.map fun site => found.base + site.offset

/-- The byte offsets at which the constructs of a declaration start. -/
def Findings.constructOffsets (found : Findings) : List Nat :=
  found.constructs.map fun site => found.base + site.start

section Findings

variable {lang : Language} {g : Grammar} {t : Text} {d : Declaration} {index : Nat}

/-- The declarations of a text stand at positions of both of its views. -/
theorem Language.placed_in_views (scanned : lang.grammar? = some g) (listed : d ∈ g.declared t) :
    d.Placed (codeView g.language t).IsBoundary ∧ d.Placed (literalView g.language t).IsBoundary :=
  (Grammar.declarationsOf_placed (Language.anchored_of_grammar? scanned) listed).in_views

theorem Language.owns_of_mem_callOffsets (scanned : lang.grammar? = some g) {offset : Nat}
    (listed : d ∈ g.declared t) (found : offset ∈ (g.found t index d).callOffsets) :
    d.Owns (g.declared t) index offset := by
  cases isBody : d.body with
  | none =>
      rw [Grammar.found_of_no_body isBody] at found
      cases found
  | some body =>
      rw [Grammar.found_of_body isBody] at found
      obtain ⟨site, called, rfl⟩ := List.mem_map.1 found
      have check := Language.readsVisibly_of_grammar? scanned
      simp only [Grammar.readsVisibly, Bool.and_eq_true, List.all_eq_true] at check
      obtain ⟨form, _, visible⟩ := findCalls_visibleAt check.1 called
      -- a form is looked for in one of the two views
      cases view : form.view with
      | code =>
          rw [view] at visible
          exact Declaration.Placed.owns_of_visibleAt
            (fun e declared => (Language.placed_in_views scanned declared).1) listed isBody visible
      | literal =>
          rw [view] at visible
          exact Declaration.Placed.owns_of_visibleAt
            (fun e declared => (Language.placed_in_views scanned declared).2) listed isBody visible

/-- A construct starts at an offset of its own and ends inside the body. -/
theorem Language.owns_of_mem_constructs (scanned : lang.grammar? = some g) {site : Construct}
    (listed : d ∈ g.declared t) (found : site ∈ (g.found t index d).constructs) :
    d.Owns (g.declared t) index ((g.found t index d).base + site.start) ∧
      ∃ body, d.body = some body ∧ (g.found t index d).base + site.stop ≤ body.stop := by
  cases isBody : d.body with
  | none =>
      rw [Grammar.found_of_no_body isBody] at found
      cases found
  | some body =>
      rw [Grammar.found_of_body isBody] at found ⊢
      have check := Language.readsVisibly_of_grammar? scanned
      simp only [Grammar.readsVisibly, Bool.and_eq_true, List.all_eq_true] at check
      have stands := findConstructs_standsIn check.2 found
      have placed : ∀ e ∈ g.declared t, e.Placed (codeView g.language t).IsBoundary :=
        fun e declared => (Language.placed_in_views scanned declared).1
      refine ⟨Declaration.Placed.owns_of_visibleAt placed listed isBody stands.start, body, rfl, ?_⟩
      obtain ⟨q, width, own⟩ := Declaration.Placed.blankRanges_eq index placed listed isBody
      have inside : site.stop ≤ Text.size (blankRanges (codeView g.language t) body.start
        (body.stop - body.start) (nestedRanges (g.declared t) index d)) := stands.stop
      rw [own, size_maskCharacters, width] at inside
      have ordered := (placed d listed).body.ordered body isBody
      dsimp only
      omega

theorem Language.owns_of_mem_constructOffsets (scanned : lang.grammar? = some g) {offset : Nat}
    (listed : d ∈ g.declared t) (found : offset ∈ (g.found t index d).constructOffsets) :
    d.Owns (g.declared t) index offset := by
  obtain ⟨site, standing, rfl⟩ := List.mem_map.1 found
  exact (Language.owns_of_mem_constructs scanned listed standing).1

end Findings

/-! ### Two declarations -/

/-- An offset lies in the bodies of two declarations although neither encloses the other. -/
structure Declaration.Crosses (d e : Declaration) (offset : Nat) : Prop where
  inFirst : ∃ body, d.body = some body ∧ body.contains offset = true
  inSecond : ∃ body, e.body = some body ∧ body.contains offset = true
  notAround : d.encloses e = false
  notInside : e.encloses d = false

/-- What one declaration owns lies in no body that it encloses. -/
theorem Declaration.Owns.encloses_eq_false {declarations : List Declaration} {d e : Declaration}
    {i j offset : Nat} {here : Nat → Prop} (owns : d.Owns declarations i offset)
    (second : declarations[j]? = some e) (differ : i ≠ j) (placed : e.Placed here)
    (inBody : ∃ body, e.body = some body ∧ body.contains offset = true) :
    d.encloses e = false := by
  cases around : d.encloses e with
  | false => rfl
  | true =>
      obtain ⟨body, isBody, inside⟩ := inBody
      have ordered := placed.body.ordered body isBody
      have name := placed.name
      -- the body of the enclosed declaration lies in the range that is blanked
      have hidden : covers (nestedRanges declarations i d) offset = true := by
        refine List.any_eq_true.2 ⟨e.span, List.mem_map.2 ⟨(e, j), ?_, rfl⟩, ?_⟩
        · refine List.mem_filter.2 ⟨List.mem_zipIdx_iff_getElem?.2 second, ?_⟩
          simp [around, differ.symm]
        · simp only [Span.contains, Bool.and_eq_true, decide_eq_true_eq] at inside ⊢
          omega
      rw [owns.notNested] at hidden
      cases hidden

theorem Declaration.Owns.crosses {declarations : List Declaration} {d e : Declaration}
    {i j offset : Nat} {here : Nat → Prop} (placed : ∀ e ∈ declarations, e.Placed here)
    (first : declarations[i]? = some d) (second : declarations[j]? = some e) (differ : i ≠ j)
    (ownsFirst : d.Owns declarations i offset) (ownsSecond : e.Owns declarations j offset) :
    d.Crosses e offset where
  inFirst := ownsFirst.inBody
  inSecond := ownsSecond.inBody
  notAround := by
    have placedSecond := placed e (List.mem_of_getElem? second)
    exact ownsFirst.encloses_eq_false second differ placedSecond ownsSecond.inBody
  notInside := by
    have placedFirst := placed d (List.mem_of_getElem? first)
    exact ownsSecond.encloses_eq_false first differ.symm placedFirst ownsFirst.inBody

/-- The records of a file are those of its declarations, one declaration after the other, and a byte
offset at which calls of two declarations start, or constructs of two declarations, lies in the
bodies of both although neither encloses the other.  Where bodies are nested or apart, every call
and every construct belongs to one declaration. -/
theorem shared_offsets_lie_in_crossing_bodies {lang : Language} {g : Grammar}
    (scanned : lang.grammar? = some g) (file : SourceFile) (limit : Nat) :
    g.extract file limit =
      (g.owned file.text).foldl (fun records o => records.addDeclaration file limit o.1 o.2)
        ⟨file.path, file.moduleName, [], [], [], []⟩ ∧
    (g.owned file.text).Pairwise fun a b => ∀ offset,
      offset ∈ a.2.callOffsets ∧ offset ∈ b.2.callOffsets ∨
        offset ∈ a.2.constructOffsets ∧ offset ∈ b.2.constructOffsets →
      a.1.Crosses b.1 offset := by
  refine ⟨g.extract_eq_foldl_owned file limit, ?_⟩
  have placed : ∀ d ∈ g.declared file.text, d.Placed (codeView g.language file.text).IsBoundary :=
    fun d listed => (Language.placed_in_views scanned listed).1
  rw [Grammar.owned, List.pairwise_map, List.pairwise_iff_getElem]
  intro i j hi hj before offset shared
  rw [List.getElem_zipIdx, List.getElem_zipIdx, Nat.zero_add, Nat.zero_add] at shared
  rw [List.getElem_zipIdx, List.getElem_zipIdx]
  have first := List.getElem?_eq_getElem (l := g.declared file.text) (i := i) (by simpa using hi)
  have second := List.getElem?_eq_getElem (l := g.declared file.text) (i := j) (by simpa using hj)
  refine Declaration.Owns.crosses placed first second (Nat.ne_of_lt before) ?_ ?_
  · rcases shared with ⟨calls, _⟩ | ⟨constructs, _⟩
    · exact Language.owns_of_mem_callOffsets scanned (List.getElem_mem _) calls
    · exact Language.owns_of_mem_constructOffsets scanned (List.getElem_mem _) constructs
  · rcases shared with ⟨_, calls⟩ | ⟨_, constructs⟩
    · exact Language.owns_of_mem_callOffsets scanned (List.getElem_mem _) calls
    · exact Language.owns_of_mem_constructOffsets scanned (List.getElem_mem _) constructs

/-- A function in the body of another one. -/
def nestedFunctions : SourceFile :=
  ⟨"m.js", "m", "function f() \x7b\nfunction g() \x7b h(); \x7d\nk(); \x7d".toList⟩

theorem shared_offsets_lie_in_crossing_bodies_nested :
    (Grammar.javascript.owned nestedFunctions.text).map (fun o => (o.1.name, o.2.callOffsets)) =
      [("f", [37]), ("g", [30])] ∧
    (Grammar.javascript.owned nestedFunctions.text).Pairwise fun a b => ∀ offset,
      offset ∈ a.2.callOffsets ∧ offset ∈ b.2.callOffsets ∨
        offset ∈ a.2.constructOffsets ∧ offset ∈ b.2.constructOffsets →
      a.1.Crosses b.1 offset := by
  have scanned : Language.javascript.grammar? = some Grammar.javascript := rfl
  refine ⟨?_, (shared_offsets_lie_in_crossing_bodies scanned nestedFunctions 80).2⟩
  simp only [Grammar.owned, Grammar.found, Grammar.declared,
    Grammar.declarationsOf_eq_insertionSort]
  decide +kernel

/-- A variable whose value is a named function, written on the next line: both names are declared,
with one body. -/
def namedFunctionValue : Text :=
  "const a =\nfunction b(x) \x7b\n  if (x) \x7b g(); \x7d\n\x7d;\n".toList

/-- The call and the `if` in a body of two declarations belong to both of them. -/
theorem named_function_value_has_two_owners :
    ¬ (Grammar.javascript.owned namedFunctionValue).Pairwise
      (fun a b => ∀ offset ∈ a.2.callOffsets, offset ∉ b.2.callOffsets) ∧
    ¬ (Grammar.javascript.owned namedFunctionValue).Pairwise
      (fun a b => ∀ offset ∈ a.2.constructOffsets, offset ∉ b.2.constructOffsets) := by
  have offsets : (Grammar.javascript.owned namedFunctionValue).map
      (fun o => (o.2.callOffsets, o.2.constructOffsets)) = [([37], [28]), ([37], [28])] := by
    simp only [Grammar.owned, Grammar.found, Grammar.declared,
      Grammar.declarationsOf_eq_insertionSort]
    decide +kernel
  have calls : ¬ ([([37], [28]), ([37], [28])] : List (List Nat × List Nat)).Pairwise
      fun a b => ∀ offset ∈ a.1, offset ∉ b.1 := by decide
  have constructs : ¬ ([([37], [28]), ([37], [28])] : List (List Nat × List Nat)).Pairwise
      fun a b => ∀ offset ∈ a.2, offset ∉ b.2 := by decide
  rw [← offsets, List.pairwise_map] at calls constructs
  exact ⟨calls, constructs⟩

end CallAtlas
