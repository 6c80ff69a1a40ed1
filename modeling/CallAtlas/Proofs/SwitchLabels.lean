/-
Module: CallAtlas.Proofs.SwitchLabels
Purpose: Where the branches of a `switch` come from.  Labels are looked for in the view that shows
  strings, and braces are counted in the view that does not.  So every label begins with a keyword
  at the level of the braces of the `switch`, but that keyword is one of the code only if it does
  not stand inside a string.
Main definitions: caseKeywords, OwnText.LabelAt
Main results: Pattern.Matches.reads_caseKeyword, Language.switch_form_of_brace,
  OwnText.exists_label_offsets, switch_labels_stand_in_code_or_strings
-/
import CallAtlas.Proofs.CalledNames
import CallAtlas.Proofs.ConstructForms
import CallAtlas.Proofs.StringLiterals

namespace CallAtlas

open Pattern

/-! ### Labels -/

/-- The words that begin a branch. -/
def caseKeywords : List Text := ["case".toList, "default".toList]

/-- A label: `case` with something behind it, or `default`. -/
def casePattern (behind : Pattern) : Pattern :=
  (boundary ++ lit "case" ++ boundary ++ behind) <|> (boundary ++ lit "default" ++ boundary)

/-- What is marked as a label begins with a keyword. -/
theorem Pattern.Matches.reads_caseKeyword {behind : Pattern} {c c' : Cursor} {m : Marks}
    (found : (casePattern behind).Matches c c' m) :
    ∃ keyword ∈ caseKeywords, ∃ s, c.Reads (keyword ++ s) c' := by
  have word : ∀ {word : String} {c c' : Cursor} {m : Marks},
      (boundary ++ lit word ++ boundary).Matches c c' m → c.Reads word.toList c' := by
    intro word c c' m found
    cases found with
    | seq front after =>
        obtain rfl := after.eq_of_silent rfl
        cases front with
        | seq before letters =>
            obtain rfl := before.eq_of_silent rfl
            obtain ⟨_, reads, rfl⟩ := (Denotes.lit word).sound letters
            exact reads
  cases found with
  | first found =>
      cases found with
      | seq keyword more =>
          obtain ⟨s, reads⟩ := more.reads
          exact ⟨"case".toList, by decide, s, (word keyword).trans reads⟩
  | second found =>
      refine ⟨"default".toList, by decide, [], ?_⟩
      rw [List.append_nil]
      exact word found

/-- Only the form of `switch` makes constructs of that kind, and it marks labels that begin with a
keyword. -/
theorem Language.switch_form_of_brace {lang : Language} {g : Grammar} {form : ConstructForm}
    (brace : lang ∈ braceLanguages) (scanned : lang.grammar? = some g)
    (listed : form ∈ g.constructs) (isSwitch : .switch ∈ form.kinds) :
    ∃ header condition labelled, form = .switch header condition labelled ∧
      ∀ q ∈ labelled.marked .label, ∃ behind, q = casePattern behind := by
  have family : form ∈ BraceFamily.constructs → ∃ header condition labelled,
      form = .switch header condition labelled ∧
        ∀ q ∈ labelled.marked .label, ∃ behind, q = casePattern behind := by
    intro listed
    simp only [BraceFamily.constructs, List.mem_cons, List.not_mem_nil, or_false] at listed
    rcases listed with rfl | rfl | rfl | rfl | rfl | rfl
    iterate 5 exact absurd isSwitch (by decide)
    refine ⟨_, _, _, rfl, ?_⟩
    intro q isLabel
    obtain rfl := List.mem_singleton.1 isLabel
    exact ⟨_, rfl⟩
  cases lang with
  | java => cases scanned; exact family listed
  | javascript => cases scanned; exact family listed
  | typescript => cases scanned; exact family listed
  | csharp =>
      cases scanned
      rcases List.mem_append.1 listed with shared | own
      · exact family shared
      · obtain rfl := List.mem_singleton.1 own
        exact absurd isSwitch (by decide)
  | go =>
      cases scanned
      simp only [Grammar.go, List.mem_cons, List.not_mem_nil, or_false] at listed
      rcases listed with rfl | rfl | rfl
      iterate 2 exact absurd isSwitch (by decide)
      refine ⟨_, _, _, rfl, ?_⟩
      intro q isLabel
      obtain rfl := List.mem_singleton.1 isLabel
      exact ⟨_, rfl⟩
  | abap => exact absurd brace (by decide)
  | python => cases scanned

/-- A label of a block that begins with a keyword at an offset of an own text: it is what can be
read from there on, and as many braces are closed as opened between the start of the block and the
keyword. -/
structure OwnText.LabelAt (own : OwnText) (block : Block) (offset : Nat) (keyword : Text)
    (label : String) : Prop where
  inBody : block.bodyStart ≤ offset
  read : ∃ stop ≤ block.close, ∃ s, own.literal.slice? ⟨offset, stop⟩ = some (keyword ++ s) ∧
    label = String.ofList (Text.collapse (keyword ++ s))
  level : (block.body.startingBefore (offset - block.bodyStart)).count '{' =
    (block.body.startingBefore (offset - block.bodyStart)).count '}'

/-- A label of a readable body that begins with a keyword at an offset where no brace is open. -/
def ReadsLabel (readable body : Text) (offset : Nat) (label : String) : Prop :=
  ∃ keyword ∈ caseKeywords, ∃ s, readable.HasAt offset (keyword ++ s) ∧
    label = String.ofList (Text.collapse (keyword ++ s)) ∧
    (body.startingBefore offset).count '{' = (body.startingBefore offset).count '}'

section Labels

variable {readable body : Text} {labelled : Pattern} {m : Match} {label : String}

theorem ne_nil_of_mem_caseKeywords {keyword : Text} (listed : keyword ∈ caseKeywords) :
    keyword ≠ [] := by
  rintro rfl
  exact absurd listed (by decide)

/-- The label of one match stands inside the match. -/
theorem readsLabel_of_caseLabel?
    (marks : ∀ q ∈ labelled.marked .label, ∃ behind, q = casePattern behind)
    (found : labelled.FoundIn readable m)
    (isLabel : OwnText.caseLabel? readable body m = some label) :
    ∃ offset, m.start ≤ offset ∧ offset < m.stop ∧ ReadsLabel readable body offset label := by
  simp only [OwnText.caseLabel?, Option.bind_eq_bind, Option.bind_eq_some_iff] at isLabel
  obtain ⟨span, isMarked, made⟩ := isLabel
  obtain ⟨q, isPart, c₁, c₂, m', inside, -, inner, rfl, behind, before⟩ :=
    found.exists_group isMarked
  obtain ⟨_, rfl⟩ := marks q isPart
  obtain ⟨keyword, listed, s, reads⟩ := inner.reads_caseKeyword
  obtain ⟨p, r, split, offset, slice⟩ := inside.slice reads
  split at made
  · next level =>
      obtain rfl := Option.some.inj made
      refine ⟨c₁.offset, behind, ?_, keyword, listed, s, ⟨p, r, split, offset⟩, ?_, level⟩
      · apply Nat.lt_of_lt_of_le _ before
        have positive : 0 < Text.size keyword := by
          apply Nat.pos_of_ne_zero
          intro empty
          exact ne_nil_of_mem_caseKeywords listed (Text.eq_nil_of_size_eq_zero empty)
        rw [reads.offset, Text.size_append]
        omega
      · rw [slice]
  · cases made

/-- The labels of a body begin one behind the other.  The induction goes along the matches, of which
none starts before the one before it has ended. -/
theorem exists_label_offsets
    (marks : ∀ q ∈ labelled.marked .label, ∃ behind, q = casePattern behind) (ms : List Match)
    (found : ∀ m ∈ ms, labelled.FoundIn readable m)
    (ordered : ms.Pairwise fun m m' => m.stop ≤ m'.start) (lower : Nat)
    (behind : ∀ m ∈ ms, lower ≤ m.start) :
    ∃ offsets, (∀ o ∈ offsets, lower ≤ o) ∧ offsets.Pairwise (· < ·) ∧
      List.Forall₂ (ReadsLabel readable body) offsets
        (ms.filterMap (OwnText.caseLabel? readable body)) := by
  induction ms generalizing lower with
  | nil => exact ⟨[], by simp, .nil, .nil⟩
  | cons m more ih =>
      obtain ⟨next, rest⟩ := List.pairwise_cons.1 ordered
      have later := ih (fun m' listed => found m' (List.mem_cons_of_mem m listed)) rest
      have here := behind m List.mem_cons_self
      cases isLabel : OwnText.caseLabel? readable body m with
      | none =>
          rw [List.filterMap_cons_none isLabel]
          exact later lower fun m' listed => behind m' (List.mem_cons_of_mem m listed)
      | some label =>
          obtain ⟨offset, starts, stops, reads⟩ :=
            readsLabel_of_caseLabel? marks (found m List.mem_cons_self) isLabel
          obtain ⟨offsets, above, increasing, labels⟩ := later m.stop next
          rw [List.filterMap_cons_some isLabel]
          refine ⟨offset :: offsets, ?_, ?_, .cons reads labels⟩
          · intro o listed
            rcases List.mem_cons.1 listed with rfl | listed
            · exact Nat.le_trans here starts
            · have := above o listed
              omega
          · refine List.pairwise_cons.2 ⟨?_, increasing⟩
            intro o listed
            exact Nat.lt_of_lt_of_le stops (above o listed)

end Labels

/-! ### Labels of own texts -/

theorem isWordChar_of_mem_caseKeywords {keyword : Text} (listed : keyword ∈ caseKeywords) :
    ∀ x ∈ keyword, isWordChar x = true := by
  have check : (caseKeywords.all fun keyword => keyword.all isWordChar) = true := by decide
  exact List.all_eq_true.1 (List.all_eq_true.1 check keyword listed)

/-- A label of the readable body of a block, seen from the whole own text. -/
theorem ReadsLabel.labelAt {own : OwnText} {block : Block} {offset : Nat} {label : String}
    (reads : ReadsLabel (own.literal.slice block.bodySpan) block.body offset label) :
    ∃ keyword ∈ caseKeywords, own.LabelAt block (block.bodyStart + offset) keyword label ∧
      ∃ a b, own.literal = a ++ (keyword ++ b) ∧ Text.size a = block.bodyStart + offset := by
  obtain ⟨keyword, listed, s, ⟨p, r, split, rfl⟩, isLabel, level⟩ := reads
  have cut : own.literal.slice? block.bodySpan = some (own.literal.slice block.bodySpan) := by
    cases cut : own.literal.slice? block.bodySpan with
    | some q =>
        rw [Text.slice, cut]
        rfl
    | none =>
        rw [Text.slice, cut, Option.getD_none] at split
        have empty : keyword = [] := by
          have nothing := List.append_eq_nil_iff.1 split.symm
          exact (List.append_eq_nil_iff.1 (List.append_eq_nil_iff.1 nothing.2).1).1
        exact absurd empty (ne_nil_of_mem_caseKeywords listed)
  rw [split] at cut
  obtain ⟨front, back, whole, span⟩ := Text.slice?_eq_some_iff.1 cut
  obtain ⟨start, stop⟩ := Span.mk.inj span
  have place : Text.size (front ++ p) = block.bodyStart + Text.size p := by
    rw [Text.size_append, start]
  refine ⟨keyword, listed, ⟨Nat.le_add_right _ _, ?_, ?_⟩, front ++ p, s ++ r ++ back, ?_, place⟩
  · refine ⟨block.bodyStart + Text.size p + Text.size (keyword ++ s), ?_, s, ?_, isLabel⟩
    · rw [stop, start]
      simp only [Text.size_append]
      omega
    · rw [← place]
      apply Text.slice?_eq_some_iff.2
      exact ⟨front ++ p, r ++ back, by rw [whole]; simp, rfl⟩
  · rw [Nat.add_sub_cancel_left]
    exact level
  · rw [whole]
    simp

/-- The branches of a `switch` begin with keywords, one behind the other, that can be read in the
body of its block where no brace of the body is open.  Each of these keywords is one of the code, or
it stands inside a string of the text. -/
theorem switch_labels_stand_in_code_or_strings {lang : Language} {g : Grammar} {t : Text}
    {index : Nat} {d : Declaration} {body : Span} {c : Construct} (brace : lang ∈ braceLanguages)
    (scanned : lang.grammar? = some g) (declared : d ∈ g.declared t) (isBody : d.body = some body)
    (found : c ∈ (g.found t index d).constructs) (isSwitch : c.kind = .switch) :
    let own := ownTextOf (Views.of g.language t) (g.nestedIn t index d) body
    ∃ start block offsets, Block.braced? own.code start '{' '}' = some block ∧ c.stop = block.stop ∧
      offsets.Pairwise (· < ·) ∧
      List.Forall₂ (fun offset label => ∃ keyword ∈ caseKeywords,
        own.LabelAt block offset keyword label ∧
          ((own.code.HasAt offset keyword ∧
              covers (stringRanges g.language t) (body.start + offset) = false) ∨
            Text.InString g.language t (body.start + offset) keyword.size))
        offsets c.branches := by
  intro own
  rw [Grammar.found_of_body isBody] at found
  obtain ⟨form, listed, made⟩ := exists_form_of_mem_findConstructs found
  obtain ⟨header, condition, labelled, rfl, marks⟩ :=
    Language.switch_form_of_brace brace scanned listed (isSwitch ▸ made.kind_mem)
  obtain ⟨m, -, read⟩ := made
  simp only [OwnText.switch?, Option.bind_eq_bind, Option.bind_eq_some_iff] at read
  obtain ⟨_, -, start, -, block, braced, made⟩ := read
  obtain rfl := Option.some.inj made
  obtain ⟨offsets, -, increasing, labels⟩ := exists_label_offsets marks
    (labelled.findAll (own.literal.slice block.bodySpan)) (fun m => mem_findAll)
    (findAll_pairwise _ _) 0 (fun m _ => Nat.zero_le _)
  refine ⟨start, block, offsets.map (block.bodyStart + ·), braced, rfl, ?_, ?_⟩
  · rw [List.pairwise_map]
    exact increasing.imp fun before => Nat.add_lt_add_left before _
  · rw [List.forall₂_map_left_iff]
    refine labels.imp ?_
    intro offset label reads
    obtain ⟨keyword, isKeyword, labelAt, a, b, split, place⟩ := reads.labelAt
    refine ⟨keyword, isKeyword, labelAt, ?_⟩
    rw [← place]
    exact Language.word_in_own_code scanned declared index isBody
      (ne_nil_of_mem_caseKeywords isKeyword) (isWordChar_of_mem_caseKeywords isKeyword) split

/-- A `switch` with a block in it. -/
def switchWithBlock : Text :=
  ("func f() \x7b\nswitch x \x7b\ncase 1:\n  g(\"a\")\n" ++
    "case 2:\n  \x7b case 3: \x7d\ndefault:\n\x7d\n\x7d\n").toList

theorem switch_labels_stand_in_code_or_strings_block :
    ∃ d c, (Grammar.go.declared switchWithBlock)[0]? = some d ∧ d.body = some ⟨10, 72⟩ ∧
      (Grammar.go.found switchWithBlock 0 d).constructs[0]? = some c ∧ c.kind = .switch ∧
      c.branches = ["case 1", "case 2", "default"] ∧
      ∃ block offsets, c.stop = Block.stop block ∧ offsets.Pairwise (· < ·) ∧
        List.Forall₂ (fun offset label => ∃ keyword ∈ caseKeywords,
          (ownTextOf (Views.of .go switchWithBlock) (Grammar.go.nestedIn switchWithBlock 0 d)
            ⟨10, 72⟩).LabelAt block offset keyword label) offsets c.branches := by
  have first : (Grammar.go.declared switchWithBlock)[0]?.map (fun d =>
      (d.body, (Grammar.go.found switchWithBlock 0 d).constructs[0]?.map fun c =>
        (c.kind, c.branches))) =
      some (some ⟨10, 72⟩, some (.switch, ["case 1", "case 2", "default"])) := by
    decide +kernel
  obtain ⟨d, listed, same⟩ := Option.map_eq_some_iff.1 first
  obtain ⟨isBody, second⟩ := Prod.mk.inj same
  obtain ⟨c, found, same⟩ := Option.map_eq_some_iff.1 second
  obtain ⟨isSwitch, branches⟩ := Prod.mk.inj same
  refine ⟨d, c, listed, isBody, found, isSwitch, branches, ?_⟩
  have brace : Language.go ∈ braceLanguages := by decide
  obtain ⟨-, block, offsets, -, stop, increasing, labels⟩ :=
    switch_labels_stand_in_code_or_strings brace rfl (List.mem_of_getElem? listed) isBody
      (List.mem_of_getElem? found) isSwitch
  refine ⟨block, offsets, stop, increasing, labels.imp ?_⟩
  rintro offset label ⟨keyword, isKeyword, labelAt, -⟩
  exact ⟨keyword, isKeyword, labelAt⟩

/-- A text in a string that reads like a label. -/
def labelInString : Text :=
  "func f(x int) \x7b\nswitch x \x7b\ncase 1:\n  g(\"case 2: two\")\ndefault:\n\x7d\n\x7d\n".toList

/-- A text in a string yields a branch, although it is no part of the code. -/
theorem label_in_string_is_a_branch :
    (Grammar.go.owned labelInString).map (fun o => o.2.constructs.map (·.branches)) =
        [[["case 1", "case 2", "default"]]] ∧
      codeView .go labelInString =
        ("func f(x int) \x7b\nswitch x \x7b\ncase 1:\n" ++
          "  g(             )\ndefault:\n\x7d\n\x7d\n").toList := by
  decide +kernel

end CallAtlas
