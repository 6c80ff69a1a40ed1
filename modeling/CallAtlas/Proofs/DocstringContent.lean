/-
Module: CallAtlas.Proofs.DocstringContent
Purpose: What the cleaning of a documentation text keeps.  Nothing is added or moved.  All that is
  visible stays, except in lines that cannot be cut at the common indentation: it is counted in
  bytes, and where blanks of several widths are mixed it can lie inside one of them.  Such a line is
  left out as a whole.  The text itself is cut out of a literal by bytes: a literal that ends in the
  quotes that open it is cut between them, and no other cut can fail.
Main definitions: Text.visible, Python.keptLines, Python.Encloses, Python.recordsChecked
Main results: Text.visible_lines, Python.visible_cut, Python.isBoundary_commonIndent,
  Python.cleanDocstring_sublist, Python.cleaning_keeps_lines_cut_between_characters,
  Python.quotedText_of_encloses, Python.recordsChecked_eq
-/
import CallAtlas.Proofs.CheckedCuts
import CallAtlas.Proofs.PythonSites
import CallAtlas.Proofs.VisibleText
import Mathlib.Data.List.Flatten
import Mathlib.Data.List.Forall2

namespace CallAtlas

open scoped List

namespace Text

/-! ### Visible characters -/

/-- The characters of a text that are not blank. -/
def visible (t : Text) : Text := t.filter fun c => !isBlank c

@[simp] theorem visible_nil : visible [] = [] := rfl

@[simp] theorem visible_append (s t : Text) : visible (s ++ t) = visible s ++ visible t :=
  List.filter_append s t

theorem visible_eq_nil_iff {t : Text} : visible t = [] ↔ ∀ c ∈ t, isBlank c = true := by
  simp [visible, List.filter_eq_nil_iff]

@[simp] theorem visible_trimStart (t : Text) : t.trimStart.visible = t.visible := by
  have blank : visible (t.takeWhile isBlank) = [] :=
    visible_eq_nil_iff.2 fun c listed => List.mem_takeWhile_imp listed
  calc
    visible (t.dropWhile isBlank) = visible (t.takeWhile isBlank ++ t.dropWhile isBlank) := by
      rw [visible_append, blank, List.nil_append]
    _ = visible t := by rw [List.takeWhile_append_dropWhile]

@[simp] theorem visible_trimEnd (t : Text) : t.trimEnd.visible = t.visible := by
  have reversed : ∀ s : Text, visible s.reverse = (visible s).reverse := fun _ =>
    List.filter_reverse
  have dropped := visible_trimStart t.reverse
  rw [trimStart, reversed t] at dropped
  rw [trimEnd, reversed, dropped, List.reverse_reverse]

@[simp] theorem visible_trim (t : Text) : t.trim.visible = t.visible := by
  rw [trim, visible_trimEnd, visible_trimStart]

/-! ### Lines -/

theorem join_cons_cons (separator piece next : Text) (more : List Text) :
    join separator (piece :: next :: more) = piece ++ separator ++ join separator (next :: more) :=
  rfl

/-- Line feeds between the pieces are not visible. -/
theorem visible_join (pieces : List Text) :
    (join ['\n'] pieces).visible = pieces.flatMap visible := by
  induction pieces with
  | nil => rfl
  | cons piece more ih =>
      cases more with
      | nil => simp [join]
      | cons next more =>
          have feed : visible ['\n'] = [] := by decide
          rw [join_cons_cons, visible_append, visible_append, feed, ih, List.append_nil]
          rfl

theorem withoutReturn_cases (line : Text) :
    line.withoutReturn = line ∨ line = line.withoutReturn ++ ['\r'] := by
  rw [withoutReturn]
  split
  · next t reversed =>
      refine Or.inr ?_
      rw [← List.reverse_reverse line, reversed, List.reverse_cons]
  · exact Or.inl rfl

@[simp] theorem visible_withoutReturn (line : Text) :
    line.withoutReturn.visible = line.visible := by
  rcases withoutReturn_cases line with same | returned
  · rw [same]
  · have blank : visible ['\r'] = [] := by decide
    rw [congrArg visible returned, visible_append, blank, List.append_nil]

theorem visible_linesOf (pieces : List Text) :
    (linesOf pieces).flatMap visible = pieces.flatMap visible := by
  fun_induction linesOf pieces with
  | case1 => rfl
  | case2 last empty => simp [List.isEmpty_iff.1 empty]
  | case3 last filled => rfl
  | case4 line more _ ih => simp [ih]

/-- What is visible in a text is what is visible in its lines. -/
theorem visible_lines (t : Text) : (lines t).flatMap visible = t.visible := by
  have kept : t.visible = visible (t.splitBy (· == '\n')).flatten := by
    rw [flatten_splitBy, visible, visible, List.filter_filter]
    apply List.filter_congr
    intro c _
    by_cases feed : c = '\n'
    · subst feed
      decide
    · simp [feed]
  rw [lines, visible_linesOf, kept, visible, List.filter_flatten, List.flatMap]
  rfl

/-! ### Parts in order -/

theorem trimEnd_sublist (t : Text) : t.trimEnd <+ t := by
  rw [trimEnd, ← List.reverse_sublist, List.reverse_reverse]
  exact List.dropWhile_sublist _

theorem trim_sublist (t : Text) : t.trim <+ t :=
  (trimEnd_sublist _).trans (List.dropWhile_sublist _)

theorem rest_sublist (t : Text) (n : Nat) : t.rest n <+ t := by
  rw [rest]
  cases cut : t.from? n with
  | none => exact List.nil_sublist t
  | some s =>
      obtain ⟨p, rfl, _⟩ := from?_eq_some_iff.1 cut
      exact List.sublist_append_right p s

/-- A piece in front, and perhaps a separator. -/
theorem join_cons_sublist {separator piece piece' : Text} {pieces pieces' : List Text}
    (front : piece <+ piece') (behind : join separator pieces <+ join separator pieces')
    (more : pieces' ≠ []) :
    join separator (piece :: pieces) <+ join separator (piece' :: pieces') := by
  obtain ⟨next', more', rfl⟩ := List.exists_cons_of_ne_nil more
  rw [join_cons_cons]
  cases pieces with
  | nil =>
      rw [List.append_assoc]
      exact front.trans (List.sublist_append_left _ _)
  | cons next more =>
      rw [join_cons_cons]
      exact (front.append (List.Sublist.refl _)).append behind

theorem join_sublist {separator : Text} {pieces pieces' : List Text}
    (parts : List.Forall₂ (· <+ ·) pieces pieces') :
    join separator pieces <+ join separator pieces' := by
  induction parts with
  | nil => exact List.Sublist.refl _
  | @cons piece piece' pieces pieces' part more ih =>
      cases more with
      | nil => exact part
      | cons next more => exact join_cons_sublist part ih (List.cons_ne_nil _ _)

theorem join_splitBy (t : Text) : join ['\n'] (t.splitBy (· == '\n')) = t := by
  induction t with
  | nil => rfl
  | cons c t ih =>
      rw [splitBy]
      cases pieces : splitBy (· == '\n') t with
      | nil => exact absurd pieces (splitBy_ne_nil _ t)
      | cons piece more =>
          rw [pieces] at ih
          split
          · next feed =>
              rw [join_cons_cons, ih, beq_iff_eq.1 feed]
              rfl
          · cases more with
            | nil => exact congrArg (c :: ·) ih
            | cons next more =>
                rw [join_cons_cons] at ih ⊢
                exact congrArg (c :: ·) ih

theorem join_linesOf_sublist (pieces : List Text) :
    join ['\n'] (linesOf pieces) <+ join ['\n'] pieces := by
  fun_induction linesOf pieces with
  | case1 => exact List.Sublist.refl _
  | case2 last _ => exact List.nil_sublist _
  | case3 last _ => exact List.Sublist.refl _
  | case4 line more alone ih =>
      have shorter : line.withoutReturn <+ line := by
        rcases withoutReturn_cases line with same | returned
        · rw [same]
        · have longer := List.sublist_append_left line.withoutReturn ['\r']
          rwa [← returned] at longer
      refine join_cons_sublist shorter ih ?_
      rintro rfl
      exact alone rfl

/-- The lines of a text, joined again, are the text without some blanks. -/
theorem join_lines_sublist (t : Text) : join ['\n'] (lines t) <+ t := by
  have joined := join_linesOf_sublist (t.splitBy (· == '\n'))
  rwa [join_splitBy] at joined

end Text

namespace Python

open Text

/-! ### The common indentation -/

theorem commonIndent_le {lines : List Text} {line : Text} (listed : line ∈ lines)
    (shown : line.visible ≠ []) : commonIndent lines ≤ blankPrefix line := by
  apply List.min?_getD_le_of_mem
  refine List.mem_map.2 ⟨line, List.mem_filter.2 ⟨listed, ?_⟩, rfl⟩
  have filled : line.trim ≠ [] := by
    intro empty
    rw [← visible_trim, empty] at shown
    exact shown rfl
  simp [filled]

/-- There is no common indentation, or it is the one of some line. -/
theorem commonIndent_cases (lines : List Text) :
    commonIndent lines = 0 ∨ ∃ line ∈ lines, commonIndent lines = blankPrefix line := by
  rw [commonIndent]
  generalize found : ((lines.filter fun l => !(Text.trim l).isEmpty).map blankPrefix).min? = least
  cases least with
  | none => exact Or.inl rfl
  | some n =>
      obtain ⟨line, listed, same⟩ := List.mem_map.1 (List.min?_mem found)
      exact Or.inr ⟨line, (List.mem_filter.1 listed).1, same.symm⟩

/-- A front that is no longer than the blanks at the start is blank. -/
theorem visible_eq_nil_of_size_le {p s : Text} (short : p.size ≤ blankPrefix (p ++ s)) :
    p.visible = [] := by
  have inFront : p <+: (p ++ s).takeWhile isBlank := by
    rcases List.prefix_or_prefix_of_prefix (List.prefix_append p s) (List.takeWhile_prefix isBlank)
      with shorter | ⟨q, longer⟩
    · exact shorter
    · have size := congrArg Text.size longer
      rw [Text.size_append] at size
      have empty : q = [] := Text.eq_nil_of_size_eq_zero (by unfold blankPrefix at short; omega)
      rw [empty, List.append_nil] at longer
      exact longer.symm ▸ List.prefix_refl p
  refine visible_eq_nil_iff.2 ?_
  intro c listed
  exact List.mem_takeWhile_imp (inFront.subset listed)

/-- A line that can be cut at an indentation keeps all that is visible, any other line nothing. -/
theorem visible_cut {line : Text} {indent : Nat}
    (fits : line.visible ≠ [] → indent ≤ blankPrefix line) :
    (Text.trimEnd (line.rest indent)).visible =
      if (line.from? indent).isSome then line.visible else [] := by
  rw [visible_trimEnd, Text.rest]
  cases cut : line.from? indent with
  | none => rfl
  | some s =>
      obtain ⟨p, rfl, rfl⟩ := Text.from?_eq_some_iff.1 cut
      simp only [Option.getD_some, Option.isSome_some, if_true, visible_append]
      by_cases shown : visible (p ++ s) = []
      · rw [visible_append, List.append_eq_nil_iff] at shown
        rw [shown.1, shown.2, List.append_nil]
      · rw [visible_eq_nil_of_size_le (fits shown), List.nil_append]

theorem size_eq_of_widths {t : Text} {width : Nat} (widths : ∀ c ∈ t, c.utf8Size = width) :
    t.size = t.length * width := by
  induction t with
  | nil => simp
  | cons c t ih =>
      rw [Text.size_cons, widths c List.mem_cons_self,
        ih fun x listed => widths x (List.mem_cons_of_mem c listed), List.length_cons, Nat.add_mul,
        Nat.one_mul, Nat.add_comm]

/-- If all blanks at the start of lines are of one width, every visible line can be cut. -/
theorem isBoundary_commonIndent {lines : List Text} {width : Nat}
    (widths : ∀ line ∈ lines, ∀ c ∈ line.takeWhile isBlank, c.utf8Size = width) {line : Text}
    (listed : line ∈ lines) (shown : line.visible ≠ []) :
    line.IsBoundary (commonIndent lines) := by
  have atStart : line.IsBoundary 0 := ⟨[], line, rfl, rfl⟩
  rcases commonIndent_cases lines with none | ⟨least, listed', same⟩
  · rw [none]
    exact atStart
  have fits := commonIndent_le listed shown
  rw [same, blankPrefix, blankPrefix, size_eq_of_widths (widths least listed'),
    size_eq_of_widths (widths line listed)] at fits
  rw [same, blankPrefix, size_eq_of_widths (widths least listed')]
  rcases Nat.eq_zero_or_pos width with none | positive
  · rw [none, Nat.mul_zero]
    exact atStart
  · -- as many blanks of this line as the least indented one has
    have fewer := Nat.le_of_mul_le_mul_right fits positive
    let front := (line.takeWhile isBlank).take (least.takeWhile isBlank).length
    have starts : front <+: line := (List.take_prefix _ _).trans (List.takeWhile_prefix _)
    obtain ⟨behind, split⟩ := starts
    refine ⟨front, behind, split.symm, ?_⟩
    have sameWidths : ∀ c ∈ front, c.utf8Size = width := fun c inFront =>
      widths line listed c (List.mem_of_mem_take inFront)
    rw [size_eq_of_widths sameWidths, List.length_take, Nat.min_eq_left fewer]

/-! ### The cleaned text -/

/-- The lines whose content is kept: the first one, and all that can be cut at the indentation that
the lines behind the first one share. -/
def keptLines (lines : List Text) : List Text :=
  lines.take 1 ++
    (lines.drop 1).filter fun line => (line.from? (commonIndent (lines.drop 1))).isSome

theorem visible_cleanDocstring (doc : Text) :
    (cleanDocstring doc).visible = (keptLines (Text.lines doc)).flatMap visible := by
  rw [cleanDocstring]
  cases Text.lines doc with
  | nil => rfl
  | cons first later =>
      have cut : ∀ lines ⊆ later,
          (lines.map fun line => Text.trimEnd (line.rest (commonIndent later))).flatMap visible =
            (lines.filter fun line => (line.from? (commonIndent later)).isSome).flatMap
              visible := by
        intro lines listed
        induction lines with
        | nil => rfl
        | cons line lines ih =>
            obtain ⟨here, more⟩ := List.cons_subset.1 listed
            rw [List.map_cons, List.flatMap_cons, visible_cut (commonIndent_le here), ih more,
              List.filter_cons]
            split <;> simp
      simp only [keptLines, visible_trim, visible_join, List.flatMap_cons, List.drop_succ_cons,
        List.drop_zero, List.take_succ_cons, List.take_zero, List.singleton_append]
      rw [cut later (List.Subset.refl later)]

/-- Lines that are left out matter exactly if something visible is in them. -/
theorem flatMap_filter_eq_iff {p : Text → Bool} {lines : List Text} :
    (lines.filter p).flatMap visible = lines.flatMap visible ↔
      ∀ line ∈ lines, line.visible ≠ [] → p line = true := by
  have shorter : ∀ lines : List Text,
      ((lines.filter p).flatMap visible).length ≤ (lines.flatMap visible).length := fun lines =>
    (List.filter_sublist.flatMap visible).length_le
  induction lines with
  | nil => simp
  | cons line lines ih =>
      rw [List.forall_mem_cons, List.filter_cons, List.flatMap_cons]
      by_cases kept : p line = true
      · rw [if_pos kept, List.flatMap_cons, List.append_cancel_left_eq]
        exact ih.trans ⟨fun all => ⟨fun _ => kept, all⟩, And.right⟩
      · rw [if_neg kept]
        refine ⟨?_, ?_⟩
        · intro same
          have empty : line.visible = [] := by
            have lengths := congrArg List.length same
            have fewer := shorter lines
            rw [List.length_append] at lengths
            exact List.length_eq_zero_iff.1 (by omega)
          rw [empty, List.nil_append] at same
          exact ⟨fun shown => absurd empty shown, ih.1 same⟩
        · rintro ⟨here, more⟩
          have empty : line.visible = [] := Classical.byContradiction fun shown => kept (here shown)
          rw [empty, List.nil_append]
          exact ih.2 more

theorem cleanDocstring_sublist (doc : Text) : cleanDocstring doc <+ doc := by
  rw [cleanDocstring]
  have joined := Text.join_lines_sublist doc
  cases lines : Text.lines doc with
  | nil => exact List.nil_sublist doc
  | cons first later =>
      rw [lines] at joined
      refine (Text.trim_sublist _).trans (List.Sublist.trans (Text.join_sublist ?_) joined)
      refine .cons (Text.trim_sublist first) ?_
      rw [List.forall₂_map_left_iff, List.forall₂_same]
      intro line _
      exact (Text.trimEnd_sublist _).trans (Text.rest_sublist line _)

/-- For every documentation text, cleaning leaves characters of the text in their order.  What is
visible of it is what is visible in the first line and in those lines behind it that can be cut at
their common indentation.  So nothing visible is lost exactly if every line that shows something has
a character boundary there, and that is so whenever the blanks that the later lines start with are
all of one width, as they are in a text that is indented by spaces and tabs. -/
theorem cleaning_keeps_lines_cut_between_characters (doc : Text) :
    cleanDocstring doc <+ doc ∧
    (cleanDocstring doc).visible = (keptLines (Text.lines doc)).flatMap visible ∧
    ((cleanDocstring doc).visible = doc.visible ↔
      ∀ line ∈ (Text.lines doc).drop 1, line.visible ≠ [] →
        line.IsBoundary (commonIndent ((Text.lines doc).drop 1))) ∧
    ∀ width, (∀ line ∈ (Text.lines doc).drop 1, ∀ c ∈ line.takeWhile isBlank, c.utf8Size = width) →
      (cleanDocstring doc).visible = doc.visible := by
  have kept : (cleanDocstring doc).visible = doc.visible ↔
      ∀ line ∈ (Text.lines doc).drop 1, line.visible ≠ [] →
        line.IsBoundary (commonIndent ((Text.lines doc).drop 1)) := by
    have whole := congrArg (List.flatMap visible) (List.take_append_drop 1 (Text.lines doc))
    rw [Text.visible_lines, List.flatMap_append] at whole
    rw [visible_cleanDocstring, keptLines, List.flatMap_append, ← whole, List.append_cancel_left_eq,
      flatMap_filter_eq_iff]
    simp only [isSome_from?_iff]
  refine ⟨cleanDocstring_sublist doc, visible_cleanDocstring doc, kept, ?_⟩
  intro width widths
  exact kept.2 fun line listed shown => isBoundary_commonIndent widths listed shown

/-- A text whose later lines are indented by wide blanks of three bytes each. -/
def widelyIndented : Text := "a\r\n\u3000\u3000b\n\u3000c d\n".toList

theorem cleaning_keeps_lines_cut_between_characters_wide :
    (∀ line ∈ (Text.lines widelyIndented).drop 1, ∀ c ∈ line.takeWhile isBlank, c.utf8Size = 3) ∧
      cleanDocstring widelyIndented = "a\n\u3000b\nc d".toList ∧
      (cleanDocstring widelyIndented).visible = widelyIndented.visible := by
  have checked : (((Text.lines widelyIndented).drop 1).all fun line =>
      (line.takeWhile isBlank).all fun c => c.utf8Size == 3) = true := by
    decide
  have widths : ∀ line ∈ (Text.lines widelyIndented).drop 1, ∀ c ∈ line.takeWhile isBlank,
      c.utf8Size = 3 := by
    intro line listed c blank
    exact beq_iff_eq.1 (List.all_eq_true.1 (List.all_eq_true.1 checked line listed) c blank)
  refine ⟨widths, by decide, ?_⟩
  exact (cleaning_keeps_lines_cut_between_characters widelyIndented).2.2.2 3 widths

/-- The indentation of the second line is one byte.  In the third line that is the middle of a blank
of two bytes, and the line is lost. -/
theorem line_cut_inside_blank_is_lost :
    cleanDocstring "Sum.\n one\n\u00a0two\n    ".toList = "Sum.\none".toList ∧
      (cleanDocstring "Sum.\n one\n\u00a0two\n    ".toList).visible ≠
        visible "Sum.\n one\n\u00a0two\n    ".toList := by
  decide

/-! ### Literals -/

/-- The literal has a text between the quotes that open it and the same quotes at its end. -/
structure Encloses (literal front fence inner : Text) : Prop where
  split : literal = front ++ (fence ++ (inner ++ fence))
  plain : ∀ c ∈ front, isQuote c = false
  quotes : ∀ c ∈ fence, isQuote c = true
  opens : fence.length = fenceLength (fence ++ (inner ++ fence))

theorem fenceLength_pos (quoted : Text) : 0 < fenceLength quoted := by
  rw [fenceLength]
  split
  · decide
  · decide

theorem Encloses.size_fence {literal front fence inner : Text}
    (encloses : Encloses literal front fence inner) : fence.size = fence.length := by
  have widths : ∀ c ∈ fence, c.utf8Size = 1 := by
    intro c listed
    have isQuote := encloses.quotes c listed
    rw [Python.isQuote, Bool.or_eq_true, beq_iff_eq, beq_iff_eq] at isQuote
    rcases isQuote with rfl | rfl
    · rfl
    · rfl
  rw [size_eq_of_widths widths, Nat.mul_one]

/-- A literal that ends in the quotes that open it is cut between them. -/
theorem quotedText_of_encloses {literal front fence inner : Text}
    (encloses : Encloses literal front fence inner) : quotedText literal = .ok (some inner) := by
  have width : fenceLength (fence ++ (inner ++ fence)) = fence.size :=
    encloses.opens.symm.trans encloses.size_fence.symm
  have filled : 0 < fence.size := width ▸ fenceLength_pos _
  have quoted : literal.dropWhile (fun c => !isQuote c) = fence ++ (inner ++ fence) := by
    rw [encloses.split, List.dropWhile_append_of_pos]
    · cases isFence : fence with
      | nil =>
          rw [isFence] at filled
          cases filled
      | cons c more =>
          have isQuote := encloses.quotes c (isFence ▸ List.mem_cons_self)
          exact List.dropWhile_cons_of_neg (by simp [isQuote])
    · simpa using encloses.plain
  have long : ¬ ((fence ++ (inner ++ fence)).isEmpty ||
      decide (size (fence ++ (inner ++ fence)) < 2 * fence.size)) = true := by
    rw [Bool.or_eq_true, List.isEmpty_iff, decide_eq_true_eq]
    rintro (empty | short)
    · rw [(List.append_eq_nil_iff.1 empty).1] at filled
      cases filled
    · simp only [size_append] at short
      omega
  have cut : cut (fence ++ (inner ++ fence))
      ⟨fence.size, size (fence ++ (inner ++ fence)) - fence.size⟩ = .ok inner := by
    have stop : size (fence ++ (inner ++ fence)) - fence.size = fence.size + inner.size := by
      simp only [size_append]
      omega
    rw [Text.cut, slice?_eq_some_iff.2 ⟨fence, fence, rfl, by rw [stop]⟩]
  rw [quotedText]
  simp only [quoted, width, cut]
  rw [if_neg long]
  rfl

/-- As many bytes as the opening quotes have are cut off at the end of an unclosed literal, too. -/
example : quotedText "'''xyéz".toList = .ok (some "xy".toList) ∧
    quotedText "'xé".toList = .error (.outside ⟨1, 3⟩ 4) := by
  decide

/-- A node that has a record of its own. -/
def Tree.isRecorded (t : Tree) : Bool := t.definesFunction || t.definesClass

/-- The records of a Python file with a given tree, if the documentation of all definitions that the
walk comes to can be cut out. -/
def recordsChecked (file : SourceFile) (limit : Nat) (tree : Tree) : Checked FileRecords := do
  let _ ← (tree.sites.filter (·.node.isRecorded)).mapM (·.node.docstring file.text)
  return recordsOf file limit tree

/-- The documentation of a node, if it has any, is a literal that ends in the quotes that open
it. -/
def Tree.DocstringCloses (source : Text) (t : Tree) : Prop :=
  ∀ string, t.docstringNode? = some string →
    ∃ front fence inner, Encloses (string.text source) front fence inner

theorem Tree.DocstringCloses.exists_docstring {source : Text} {t : Tree}
    (closes : t.DocstringCloses source) : ∃ doc, t.docstring source = .ok doc := by
  rw [docstring]
  cases isNode : t.docstringNode? with
  | none => exact ⟨none, rfl⟩
  | some string =>
      obtain ⟨front, fence, inner, encloses⟩ := closes string isNode
      dsimp only
      rw [docstringText, quotedText_of_encloses encloses]
      exact ⟨_, rfl⟩

/-- Where the walk comes to no definition whose documentation is an unclosed literal, no cut fails
and the records are those of the tree. -/
theorem recordsChecked_eq (file : SourceFile) (limit : Nat) {tree : Tree}
    (closes : ∀ site ∈ tree.sites, site.node.isRecorded = true →
      site.node.DocstringCloses file.text) :
    recordsChecked file limit tree = .ok (recordsOf file limit tree) := by
  have cut : ∀ site ∈ tree.sites.filter (·.node.isRecorded),
      site.node.docstring file.text = .ok (site.node.docstring file.text).toOption.join := by
    intro site listed
    obtain ⟨isSite, isRecorded⟩ := List.mem_filter.1 listed
    obtain ⟨doc, cut⟩ := (closes site isSite isRecorded).exists_docstring
    rw [cut]
    rfl
  rw [recordsChecked, Checked.mapM_eq cut]
  rfl

end Python

end CallAtlas
