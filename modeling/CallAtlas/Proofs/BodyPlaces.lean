/-
Module: CallAtlas.Proofs.BodyPlaces
Purpose: Where calls and constructs stand in the own text of a declaration.  A call starts at a
  visible character, and so does a construct, which ends inside the text with all of its parts.
Main definitions: Construct.StandsIn, ConstructForm.anchored, Grammar.tables, Grammar.readsVisibly
Main results: findCalls_visibleAt, findConstructs_standsIn, Language.passes_of_grammar?,
  Language.readsVisibly_of_grammar?
-/
import CallAtlas.Extraction
import CallAtlas.Proofs.BlockPlaces
import Mathlib.Data.List.TakeWhile

namespace CallAtlas

/-! ### Calls -/

theorem mem_of_mem_firstByOffset {c : CallSite} {seen : List Nat} {found : List (Nat × Text)}
    (listed : c ∈ firstByOffset seen found) : (c.offset, c.callee.toList) ∈ found := by
  induction found generalizing seen with
  | nil => cases listed
  | cons first more ih =>
      obtain ⟨offset, callee⟩ := first
      rw [firstByOffset] at listed
      split at listed
      · exact List.mem_cons_of_mem _ (ih listed)
      · split at listed
        · exact List.mem_cons_of_mem _ (ih listed)
        · rcases List.mem_cons.1 listed with rfl | later
          · rw [String.toList_ofList]
            exact List.mem_cons_self
          · exact List.mem_cons_of_mem _ (ih later)

theorem CallForm.read?_cases {g : Grammar} {form : CallForm} {t callee : Text} {m : Match}
    {offset : Nat} (read : form.read? g t m = some (offset, callee)) :
    ∃ span, m.group? .callee = some span ∧ offset = span.start ∧ callee = (t.slice span).squeeze := by
  simp only [CallForm.read?, Option.bind_eq_bind, Option.bind_eq_some_iff] at read
  obtain ⟨span, isMarked, read⟩ := read
  split at read
  · cases read
  · obtain ⟨rfl, rfl⟩ := Prod.mk.inj (Option.some.inj read)
    exact ⟨span, isMarked, rfl, rfl⟩

/-- A call is the marked part of a match, without its blanks. -/
theorem exists_match_of_mem_findCalls {g : Grammar} {own : OwnText} {c : CallSite}
    (listed : c ∈ findCalls g own) :
    ∃ form ∈ g.calls, ∃ m ∈ form.pattern.findAll (own.view form.view), ∃ span,
      m.group? .callee = some span ∧ c.offset = span.start ∧
      c.callee.toList = ((own.view form.view).slice span).squeeze := by
  have found := mem_of_mem_firstByOffset (List.mem_mergeSort.1 listed)
  obtain ⟨form, inTable, read⟩ := List.mem_flatMap.1 found
  obtain ⟨m, searched, read⟩ := List.mem_filterMap.1 read
  exact ⟨form, inTable, m, searched, CallForm.read?_cases read⟩

/-- A call starts at a visible character of the view that its form is looked for in. -/
theorem findCalls_visibleAt {g : Grammar} {own : OwnText} {c : CallSite}
    (check : ∀ form ∈ g.calls, ∀ q ∈ form.pattern.marked .callee, q.startsVisible = true)
    (listed : c ∈ findCalls g own) :
    ∃ form ∈ g.calls, (own.view form.view).VisibleAt c.offset := by
  obtain ⟨form, inTable, m, searched, span, isMarked, start, _⟩ :=
    exists_match_of_mem_findCalls listed
  obtain ⟨q, isPart, c₁, c₂, _, inside, _, inner, rfl, _, _⟩ :=
    (Pattern.mem_findAll searched).exists_group isMarked
  refine ⟨form, inTable, ?_⟩
  rw [start]
  exact inner.start_visibleAt inside (check form inTable q isPart)

/-! ### The next character -/

/-- The first character that satisfies a test, and those before it. -/
theorem Text.offsetOf?_eq_some_iff {p : Char → Bool} {t : Text} {n : Nat} :
    t.offsetOf? p = some n ↔
      ∃ q c s, t = q ++ c :: s ∧ Text.size q = n ∧ p c = true ∧ ∀ y ∈ q, p y = false := by
  constructor
  · intro found
    induction t generalizing n with
    | nil => cases found
    | cons c t ih =>
        rw [Text.offsetOf?] at found
        split at found
        · next here =>
            obtain rfl := Option.some.inj found
            exact ⟨[], c, t, rfl, rfl, here, by simp⟩
        · next other =>
            obtain ⟨k, later, rfl⟩ := Option.map_eq_some_iff.1 found
            obtain ⟨q, x, s, rfl, rfl, holds, before⟩ := ih later
            refine ⟨c :: q, x, s, rfl, rfl, holds, ?_⟩
            exact List.forall_mem_cons.2 ⟨Bool.eq_false_iff.2 other, before⟩
  · rintro ⟨q, c, s, rfl, rfl, holds, before⟩
    induction q with
    | nil => rw [List.nil_append, Text.offsetOf?, if_pos holds, Text.size_nil]
    | cons x q ih =>
        have fails := before x List.mem_cons_self
        rw [List.cons_append, Text.offsetOf?, if_neg (Bool.eq_false_iff.1 fails),
          ih fun y listed => before y (List.mem_cons_of_mem x listed), Text.size_cons]
        rfl

namespace OwnText

variable {own : OwnText} {offset n : Nat}

/-- The next character that satisfies a test stands in the text. -/
theorem next?_eq_some_iff {p : Char → Bool} : own.next? offset p = some n ↔
    ∃ front q c s, own.code = front ++ (q ++ c :: s) ∧ Text.size front = offset ∧
      offset + Text.size q = n ∧ p c = true ∧ ∀ y ∈ q, p y = false := by
  constructor
  · intro found
    obtain ⟨k, searched, rfl⟩ := Option.map_eq_some_iff.1 found
    obtain ⟨q, c, s, goesOn, rfl, holds, before⟩ := Text.offsetOf?_eq_some_iff.1 searched
    have filled : own.code.rest offset ≠ [] := by
      rw [goesOn]
      simp
    obtain ⟨front, split, place⟩ := Text.split_of_rest_ne_nil filled
    rw [goesOn] at split
    exact ⟨front, q, c, s, split, place, rfl, holds, before⟩
  · rintro ⟨front, q, c, s, split, rfl, rfl, holds, before⟩
    have searched : (q ++ c :: s).offsetOf? p = some (Text.size q) :=
      Text.offsetOf?_eq_some_iff.2 ⟨q, c, s, rfl, rfl, holds, before⟩
    rw [next?, split, Text.rest_append, searched]
    rfl

theorem next?_isBoundary {p : Char → Bool} (found : own.next? offset p = some n) :
    own.code.IsBoundary n := by
  obtain ⟨front, q, c, s, split, place, reached, -, -⟩ := next?_eq_some_iff.1 found
  refine ⟨front ++ q, c :: s, by rw [split, List.append_assoc], ?_⟩
  rw [Text.size_append, place, reached]

theorem next?_lt_size {p : Char → Bool} (found : own.next? offset p = some n) :
    n < own.code.size := by
  obtain ⟨front, q, c, s, split, place, reached, -, -⟩ := next?_eq_some_iff.1 found
  have positive := c.utf8Size_pos
  rw [split, Text.size_append, Text.size_append, Text.size_cons]
  omega

theorem nextIs?_lt_size {c : Char} (found : own.nextIs? offset c = some n) :
    n < own.code.size := by
  simp only [nextIs?, Option.bind_eq_bind, Option.bind_eq_some_iff] at found
  obtain ⟨k, next, here⟩ := found
  split at here
  · obtain rfl := Option.some.inj here
    exact next?_lt_size next
  · cases here

/-! ### Ends of bodies and of parts -/

theorem braced_stop_le_size {t : Text} {start : Nat} {opening closing : Char} {b : Block}
    (found : Block.braced? t start opening closing = some b) : b.stop ≤ t.size := by
  obtain ⟨p, q, s, rfl, _, atOpening, atBody, atClose, atStop, _⟩ := Block.braced?_spec found
  simp only [Text.size_append, Text.size_cons]
  omega

theorem bodyEnd?_le_size (found : own.bodyEnd? offset = some n) : n ≤ own.code.size := by
  simp only [bodyEnd?, Option.bind_eq_bind, Option.bind_eq_some_iff] at found
  obtain ⟨start, next, found⟩ := found
  split at found
  · obtain ⟨b, braced, rfl⟩ := Option.map_eq_some_iff.1 found
    exact braced_stop_le_size braced
  · obtain rfl := Option.some.inj found
    exact (statementEndFrom_firm false 0 (next?_isBoundary next)).1.isBoundary.le_size

theorem parentheses_le_size {condition : Option Text}
    (found : own.conditionAt? offset .parentheses = some (condition, n)) : n ≤ own.code.size := by
  simp only [conditionAt?, Option.bind_eq_bind, Option.bind_eq_some_iff] at found
  obtain ⟨opening, _, b, braced, made⟩ := found
  obtain ⟨_, rfl⟩ := Prod.mk.inj (Option.some.inj made)
  exact braced_stop_le_size braced

theorem pastSemicolon_le_size (before : offset ≤ own.code.size) :
    own.pastSemicolon offset ≤ own.code.size := by
  unfold pastSemicolon
  split
  · next found => exact nextIs?_lt_size found
  · exact before

/-- The parts of an `if` end inside the text. -/
theorem elseParts_le_size (form : ConditionForm) (fuel : Text) {stop : Nat}
    (before : stop ≤ own.code.size) : (own.elseParts form fuel stop).1 ≤ own.code.size := by
  fun_induction own.elseParts form fuel stop with
  | case1 => exact before
  | case2 => exact before
  | case3 stop m _ keyword _ ifAt next found =>
      obtain ⟨_, _, ends⟩ := Option.bind_eq_some_iff.1 found
      exact bodyEnd?_le_size ends
  | case4 stop m _ keyword _ ifAt next found x fuel last labels taken parts ih =>
      obtain ⟨_, _, ends⟩ := Option.bind_eq_some_iff.1 found
      have later := ih (bodyEnd?_le_size ends)
      rwa [parts] at later
  | case5 _ _ _ _ _ _ ends => exact bodyEnd?_le_size ends
  | case6 => exact before
  | case7 => exact before

/-- The parts of a `try` end inside the text. -/
theorem catchParts?_le_size (fuel : Text) {stop last : Nat} {labels : List String}
    (before : stop ≤ own.code.size) (found : own.catchParts? fuel stop = some (last, labels)) :
    last ≤ own.code.size := by
  fun_induction own.catchParts? fuel stop generalizing labels with
  | case1 fuel stop m _ ih =>
      simp only [Option.bind_eq_bind, Option.bind_eq_some_iff] at found
      obtain ⟨_, _, _, _, found⟩ := found
      split at found
      · obtain ⟨rfl, _⟩ := Prod.mk.inj (Option.some.inj found)
        exact before
      · next next ends =>
          have inside := bodyEnd?_le_size ends
          cases fuel with
          | nil =>
              obtain ⟨rfl, _⟩ := Prod.mk.inj (Option.some.inj found)
              exact inside
          | cons x fuel =>
              obtain ⟨⟨last', labels'⟩, parts, made⟩ := Option.bind_eq_some_iff.1 found
              obtain ⟨rfl, _⟩ := Prod.mk.inj (Option.some.inj made)
              exact ih next inside parts
  | case2 _ _ _ _ _ next ends =>
      obtain ⟨rfl, _⟩ := Prod.mk.inj (Option.some.inj found)
      exact bodyEnd?_le_size ends
  | case3 =>
      obtain ⟨rfl, _⟩ := Prod.mk.inj (Option.some.inj found)
      exact before
  | case4 =>
      obtain ⟨rfl, _⟩ := Prod.mk.inj (Option.some.inj found)
      exact before

end OwnText

/-! ### Constructs -/

/-- The first visible character of a text stands behind its leading blanks. -/
theorem Text.exists_first_visible {t : Text} {x : Char} (listed : x ∈ t)
    (visible : isBlank x = false) :
    ∃ p y r, t = p ++ y :: r ∧ Text.size p = Text.size t - Text.size t.trimStart ∧
      isBlank y = false := by
  have cut : t.takeWhile isBlank ++ t.trimStart = t := List.takeWhile_append_dropWhile
  have size : Text.size (t.takeWhile isBlank) = Text.size t - Text.size t.trimStart := by
    have whole := congrArg Text.size cut
    rw [Text.size_append] at whole
    omega
  cases left : t.trimStart with
  | nil =>
      have blank := List.dropWhile_eq_nil_iff.1 left x listed
      rw [visible] at blank
      cases blank
  | cons y r =>
      have first := List.head?_dropWhile_not isBlank t
      rw [show t.dropWhile isBlank = y :: r from left] at first
      rw [left] at cut size
      exact ⟨_, y, r, cut.symm, size, first⟩

/-- A construct starts at a visible character of a text and ends inside the text. -/
structure Construct.StandsIn (t : Text) (c : Construct) : Prop where
  start : t.VisibleAt c.start
  stop : c.stop ≤ t.size

/-- The patterns of a form are such that its constructs start at visible characters. -/
def ConstructForm.anchored : ConstructForm → Bool
  | .ifElse header _ | .loop header _ _ _ | .doWhile header | .tryCatch header
  | .switch header _ _ => header.startsVisible
  | .keywords _ pair _ _ =>
    pair.opener.endsVisible && pair.closer.startsFirm && pair.closer.endsVisible

namespace OwnText

variable {own : OwnText} {m : Match} {c : Construct} {taken : List Nat}

theorem ifElse?_bounds {form : ConditionForm} (found : own.ifElse? form m = some (c, taken)) :
    c.start = m.start ∧ c.stop ≤ own.code.size := by
  simp only [ifElse?, Option.bind_eq_bind, Option.bind_eq_some_iff] at found
  obtain ⟨_, _, first, ends, made⟩ := found
  obtain ⟨rfl, _⟩ := Prod.mk.inj (Option.some.inj made)
  exact ⟨rfl, elseParts_le_size form own.code (bodyEnd?_le_size ends)⟩

theorem loop?_bounds {kind : FlowKind} {form : ConditionForm} {bare : Option FlowKind}
    (found : own.loop? kind form bare m = some c) :
    c.start = m.start ∧ c.stop ≤ own.code.size := by
  simp only [loop?, Option.bind_eq_bind, Option.bind_eq_some_iff] at found
  obtain ⟨_, _, stop, ends, made⟩ := found
  obtain rfl := Option.some.inj made
  exact ⟨rfl, bodyEnd?_le_size ends⟩

theorem doWhile?_bounds (found : own.doWhile? m = some (c, taken)) :
    c.start = m.start ∧ c.stop ≤ own.code.size := by
  simp only [doWhile?, Option.bind_eq_bind, Option.bind_eq_some_iff] at found
  obtain ⟨block, braced, found⟩ := found
  have bare := braced_stop_le_size braced
  split at found
  · obtain ⟨rfl, _⟩ := Prod.mk.inj (Option.some.inj found)
    exact ⟨rfl, bare⟩
  · split at found
    · obtain ⟨rfl, _⟩ := Prod.mk.inj (Option.some.inj found)
      exact ⟨rfl, bare⟩
    · next condition =>
        obtain ⟨rfl, _⟩ := Prod.mk.inj (Option.some.inj found)
        exact ⟨rfl, pastSemicolon_le_size (parentheses_le_size condition)⟩

theorem tryCatch?_bounds (found : own.tryCatch? m = some c) :
    c.start = m.start ∧ c.stop ≤ own.code.size := by
  simp only [tryCatch?, Option.bind_eq_bind, Option.bind_eq_some_iff] at found
  obtain ⟨_, _, _, _, first, ends, ⟨stop, labels⟩, parts, made⟩ := found
  obtain rfl := Option.some.inj made
  exact ⟨rfl, catchParts?_le_size own.code (bodyEnd?_le_size ends) parts⟩

theorem switch?_bounds {form : ConditionForm} {labelled : Pattern}
    (found : own.switch? form labelled m = some c) :
    c.start = m.start ∧ c.stop ≤ own.code.size := by
  simp only [switch?, Option.bind_eq_bind, Option.bind_eq_some_iff] at found
  obtain ⟨_, _, _, _, block, braced, made⟩ := found
  obtain rfl := Option.some.inj made
  exact ⟨rfl, braced_stop_le_size braced⟩

/-- A construct between statements starts at the first visible character of the opening one. -/
theorem keywords?_standsIn {kind : FlowKind} {pair : KeywordPair} {clause : Option Pattern}
    {first : Option String}
    (check : (ConstructForm.keywords kind pair clause first).anchored = true)
    (opened : pair.opener.FoundIn own.code m)
    (found : own.keywords? kind pair clause first m = some c) : c.StandsIn own.code := by
  simp only [ConstructForm.anchored, Bool.and_eq_true] at check
  obtain ⟨⟨openerVisible, closerFirm⟩, closerVisible⟩ := check
  simp only [keywords?, Option.bind_eq_bind, Option.bind_eq_some_iff] at found
  obtain ⟨block, isBlock, made⟩ := found
  obtain rfl := Option.some.inj made
  obtain ⟨stands, _⟩ :=
    Block.keyword?_standsIn opened rfl isBlock openerVisible closerFirm closerVisible
  refine ⟨?_, stands.stop_le_size⟩
  obtain ⟨cursor, inside, start, whole⟩ := opened.exists_matches
  obtain ⟨s, x, reads, visible⟩ := whole.ends_visible openerVisible
  obtain ⟨front, split, offset, _⟩ := inside.split
  rw [reads.rest] at split
  have visibleStart := Text.exists_first_visible (t := s ++ [x]) (by simp) visible
  generalize s ++ [x] = statement at reads split visibleStart
  have span : m.span = ⟨Text.size front, Text.size front + Text.size statement⟩ := by
    rw [Match.span, Match.stop, start, reads.offset, offset]
  have slice : own.code.slice m.span = statement := by
    rw [split, span, Text.slice_eq]
  obtain ⟨p, y, r, rfl, size, shown⟩ := visibleStart
  dsimp only
  rw [slice, ← size, start, offset, split]
  exact ⟨front ++ p, y, r ++ m.after.rest, by simp, by simp, shown⟩

end OwnText

/-! ### All constructs of a text -/

namespace Constructs

/-- All constructs found so far stand in a text. -/
def AllIn (t : Text) (sites : Constructs) : Prop := ∀ c ∈ sites.found, c.StandsIn t

theorem AllIn.add? {t : Text} {sites : Constructs} {found : Option (Construct × List Nat)}
    (before : sites.AllIn t) (stands : ∀ c taken, found = some (c, taken) → c.StandsIn t) :
    (sites.add? found).AllIn t := by
  cases found with
  | none => exact before
  | some found =>
      intro c listed
      rcases List.mem_append.1 listed with earlier | new
      · exact before c earlier
      · obtain rfl := List.mem_singleton.1 new
        exact stands found.1 found.2 rfl

/-- A construct without further keywords. -/
theorem AllIn.addSole? {t : Text} {sites : Constructs} {found : Option Construct}
    (before : sites.AllIn t) (stands : ∀ c, found = some c → c.StandsIn t) :
    (sites.add? (found.map fun c => (c, []))).AllIn t := by
  refine before.add? ?_
  intro c taken made
  obtain ⟨c', isFound, same⟩ := Option.map_eq_some_iff.1 made
  obtain ⟨rfl, _⟩ := Prod.mk.inj same
  exact stands c' isFound

/-- The matches of a header are read one after the other. -/
theorem AllIn.foldl {t : Text} {sites : Constructs} {header : Pattern}
    {step : Constructs → Match → Constructs} (before : sites.AllIn t)
    (kept : ∀ {sites : Constructs} {m}, header.FoundIn t m → sites.AllIn t →
      (step sites m).AllIn t) :
    ((header.findAll t).foldl step sites).AllIn t :=
  List.foldlRecOn (motive := AllIn t) _ step before
    fun _ allIn _ listed => kept (Pattern.mem_findAll listed) allIn

theorem AllIn.addForm {own : OwnText} {sites : Constructs} {form : ConstructForm}
    (check : form.anchored = true) (before : sites.AllIn own.code) :
    (addForm own sites form).AllIn own.code := by
  have standing : ∀ {header : Pattern} {m : Match} {c : Construct}, header.startsVisible = true →
      header.FoundIn own.code m → c.start = m.start ∧ c.stop ≤ own.code.size →
      c.StandsIn own.code := by
    intro header m c visible found bounds
    exact ⟨bounds.1 ▸ found.start_visibleAt visible, bounds.2⟩
  cases form with
  | ifElse header condition =>
      refine before.foldl ?_
      intro sites m found allIn
      split
      · exact allIn
      · refine allIn.add? ?_
        intro c taken read
        exact standing check found (OwnText.ifElse?_bounds read)
  | loop header kind condition bare =>
      refine before.foldl ?_
      intro sites m found allIn
      split
      · exact allIn
      · refine allIn.addSole? ?_
        intro c read
        exact standing check found (OwnText.loop?_bounds read)
  | doWhile header =>
      refine before.foldl ?_
      intro sites m found allIn
      refine allIn.add? ?_
      intro c taken read
      exact standing check found (OwnText.doWhile?_bounds read)
  | tryCatch header =>
      refine before.foldl ?_
      intro sites m found allIn
      refine allIn.addSole? ?_
      intro c read
      exact standing check found (OwnText.tryCatch?_bounds read)
  | switch header condition labelled =>
      refine before.foldl ?_
      intro sites m found allIn
      refine allIn.addSole? ?_
      intro c read
      exact standing check found (OwnText.switch?_bounds read)
  | keywords kind pair clause first =>
      refine before.foldl ?_
      intro sites m found allIn
      refine allIn.addSole? ?_
      intro c read
      exact OwnText.keywords?_standsIn check found read

end Constructs

theorem findConstructs_standsIn {g : Grammar} {own : OwnText} {c : Construct}
    (check : ∀ form ∈ g.constructs, form.anchored = true) (listed : c ∈ findConstructs g own) :
    c.StandsIn own.code := by
  have allIn : (g.constructs.foldl (Constructs.addForm own) ⟨[], []⟩).AllIn own.code := by
    refine List.foldlRecOn (motive := Constructs.AllIn own.code) _ _ ?_ ?_
    · intro c listed
      cases listed
    · intro sites before form inTable
      exact before.addForm (check form inTable)
  exact allIn c (List.mem_mergeSort.1 listed)

/-! ### The tables of all languages -/

/-- The grammars of all languages that are read by patterns. -/
def Grammar.tables : List Grammar := [.java, .javascript, .typescript, .csharp, .go, .abap]

/-- A check that all tables pass is passed by the table of every language.  The tables share most of
their characters, so they are evaluated together. -/
theorem Language.passes_of_grammar? {lang : Language} {g : Grammar} {check : Grammar → Bool}
    (passed : Grammar.tables.all check = true) (scanned : lang.grammar? = some g) :
    check g = true := by
  refine List.all_eq_true.1 passed g ?_
  cases lang with
  | python => cases scanned
  | _ =>
      cases scanned
      simp [Grammar.tables]

/-- The calls and the constructs of a language start at visible characters. -/
def Grammar.readsVisibly (g : Grammar) : Bool :=
  (g.calls.all fun form => (form.pattern.marked .callee).all (·.startsVisible)) &&
    g.constructs.all (·.anchored)

theorem Language.readsVisibly_of_grammar? {lang : Language} {g : Grammar}
    (scanned : lang.grammar? = some g) : g.readsVisibly = true :=
  Language.passes_of_grammar? (by decide +kernel) scanned

end CallAtlas
