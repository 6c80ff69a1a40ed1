/-
Module: CallAtlas.Proofs.StringLiterals
Purpose: What the two views of a text have to do with each other.  A word that is readable where
  comments are blank is also there where strings are blank, unless it stands inside a string.  A
  string begins and ends with a character that belongs to no word, so it holds a word in whole or
  not at all.
Main definitions: stringRanges, Text.Delimited, Text.HasAt, Text.InString
Main results: exists_string_of_mem, Text.Delimited.around_word, word_in_code_or_string,
  Language.word_in_own_code
-/
import CallAtlas.Proofs.RecordPositions
import CallAtlas.Proofs.StrippedViews

namespace CallAtlas

open Reader

/-! ### Strings -/

/-- The byte ranges of the strings of a text. -/
def stringRanges (lang : Language) (t : Text) : List Span :=
  (lang.commentStyle.pattern.findAll t).filterMap (·.group? .quoted)

/-- A text that begins and ends with characters that belong to no word. -/
structure Text.Delimited (w : Text) : Prop where
  first : ∃ x v, w = x :: v ∧ isWordChar x = false
  last : ∃ v x, w = v ++ [x] ∧ isWordChar x = false

/-- A reader reads delimited texts only. -/
def Reader.Delimits (f : Reader) : Prop := ∀ {b t w}, f b t = some w → Text.Delimited w

namespace Reader.Delimits

variable {f g : Reader} {x : Char} {s : Text}

theorem orElse (first : f.Delimits) (second : g.Delimits) : (f.orElse g).Delimits := by
  intro b t w reads
  unfold Reader.orElse at reads
  rcases Option.or_eq_some_iff.1 reads with read | ⟨-, read⟩
  · exact first read
  · exact second read

theorem opens (outside : isWordChar x = false)
    (ends : ∀ {b t w}, f b t = some w → ∃ v y, w = v ++ [y] ∧ isWordChar y = false) :
    (opens (x :: s) f).Delimits := by
  intro b t w reads
  obtain ⟨r, v, -, read, rfl⟩ := opens_eq_some_iff.1 reads
  obtain ⟨v, y, rfl, closes⟩ := ends read
  refine ⟨⟨x, s ++ (v ++ [y]), rfl, outside⟩, ⟨x :: s ++ v, y, ?_, closes⟩⟩
  rw [List.append_assoc]

end Reader.Delimits

theorem exists_last_of_getLast? {w : Text} {x : Char} (last : w.getLast? = some x)
    (outside : isWordChar x = false) : ∃ v y, w = v ++ [y] ∧ isWordChar y = false := by
  obtain ⟨v, rfl⟩ := List.getLast?_eq_some_iff.1 last
  exact ⟨v, x, rfl, outside⟩

namespace CommentStyle

theorem delimits_lineString {quote : Char} (visible : isBlank quote = false) (other : quote ≠ '\\')
    (outside : isWordChar quote = false) : (lineString quote).Delimits := by
  apply Delimits.opens outside
  intro b t w read
  obtain ⟨-, -, last, -⟩ := throughQuote_reads (escaping_line visible other) read
  exact exists_last_of_getLast? last outside

theorem delimits_fencedString {fence : String} {x : Char} {s : Text} (chars : fence.toList = x :: s)
    (check : ((x :: s).all fun y => !isWordChar y) = true) : (fencedString fence).Delimits := by
  have outside : ∀ y ∈ x :: s, isWordChar y = false := by
    intro y listed
    exact Bool.not_eq_true' _ ▸ List.all_eq_true.1 check y listed
  unfold fencedString
  rw [chars]
  apply Delimits.opens (outside x List.mem_cons_self)
  intro b t w read
  obtain ⟨-, -, ⟨front, rfl⟩, -⟩ := throughFirst_reads read
  obtain ⟨v, y, split⟩ : ∃ v y, x :: s = v ++ [y] :=
    ⟨_, _, (List.dropLast_append_getLast (List.cons_ne_nil x s)).symm⟩
  refine ⟨front ++ v, y, ?_, ?_⟩
  · rw [split, List.append_assoc]
  · apply outside
    rw [split]
    exact List.mem_append_right v (List.mem_singleton_self y)

theorem delimits_doubledString {quote : Char} {allowed : Char → Bool}
    (rules : Doubling quote allowed) (outside : isWordChar quote = false) :
    (doubledString quote allowed).Delimits := by
  apply Delimits.opens outside
  intro b t w read
  obtain ⟨-, -, last, -⟩ := throughDoubled_reads rules read
  exact exists_last_of_getLast? last outside

/-- The strings of all styles stand between quotes. -/
theorem quoted_delimits (style : CommentStyle) : style.quoted.Delimits := by
  cases style with
  | slashes =>
      apply Delimits.orElse (delimits_fencedString rfl (by decide))
      apply Delimits.orElse
      · apply Delimits.opens (by decide)
        intro b t w read
        exact (delimits_doubledString doubling_verbatim (by decide) read).last
      apply Delimits.orElse (delimits_lineString (by decide) (by decide) (by decide))
      apply Delimits.orElse (delimits_lineString (by decide) (by decide) (by decide))
      apply Delimits.opens (by decide)
      intro b t w read
      obtain ⟨-, -, last, -⟩ := throughQuote_reads escaping_backquote read
      exact exists_last_of_getLast? last (by decide)
  | hash =>
      apply Delimits.orElse (delimits_fencedString rfl (by decide))
      apply Delimits.orElse (delimits_fencedString rfl (by decide))
      apply Delimits.orElse (delimits_lineString (by decide) (by decide) (by decide))
      exact delimits_lineString (by decide) (by decide) (by decide)
  | star =>
      apply Delimits.orElse
        (delimits_doubledString (doubling_line (by decide) (by decide)) (by decide))
      apply Delimits.orElse
        (delimits_doubledString (doubling_line (by decide) (by decide)) (by decide))
      apply Delimits.opens (by decide)
      intro b t w read
      obtain ⟨-, -, last, -⟩ := throughQuote_reads escaping_bar read
      exact exists_last_of_getLast? last (by decide)

end CommentStyle

section Ranges

variable {lang : Language} {t : Text} {r : Span} {n : Nat}

/-- A range of a string covers a delimited part of the text. -/
theorem exists_string_of_mem (listed : r ∈ stringRanges lang t) :
    ∃ p w s, t = p ++ (w ++ s) ∧ r = ⟨Text.size p, Text.size p + Text.size w⟩ ∧ w.Delimited := by
  obtain ⟨m, searched, isGroup⟩ := List.mem_filterMap.1 listed
  obtain ⟨c, inside, there⟩ := Pattern.mem_findAll searched
  rw [CommentStyle.matchAt?_pattern] at there
  cases commented : lang.commentStyle.comment c.before c.rest with
  | some w =>
      rw [commented] at there
      obtain rfl := Option.some.inj there
      cases isGroup
  | none =>
      rw [commented, Option.map_none, Option.none_or] at there
      obtain ⟨w, read, rfl⟩ := Option.map_eq_some_iff.1 there
      obtain ⟨p, split, offset, -⟩ := inside.split
      obtain ⟨s, rest, -⟩ := lang.commentStyle.quoted_lexeme.reads read
      refine ⟨p, w, s, ?_, ?_, lang.commentStyle.quoted_delimits read⟩
      · rw [split, rest]
      · rw [← offset]
        exact (Option.some.inj isGroup).symm

/-- What is hidden is a comment or a string. -/
theorem covers_of_covers_hiddenRanges (hidden : covers (hiddenRanges lang t) n = true) :
    covers (commentRanges lang t) n = true ∨ covers (stringRanges lang t) n = true := by
  obtain ⟨r, listed, contains⟩ := List.any_eq_true.1 hidden
  obtain ⟨m, searched, isGroup⟩ := List.mem_filterMap.1 listed
  rcases Option.or_eq_some_iff.1 isGroup with comment | ⟨-, quoted⟩
  · exact .inl (List.any_eq_true.2 ⟨r, List.mem_filterMap.2 ⟨m, searched, comment⟩, contains⟩)
  · exact .inr (List.any_eq_true.2 ⟨r, List.mem_filterMap.2 ⟨m, searched, quoted⟩, contains⟩)

end Ranges

/-! ### Words and strings -/

namespace Text

/-- A text has a piece at an offset. -/
def HasAt (t : Text) (n : Nat) (piece : Text) : Prop := ∃ p s, t = p ++ (piece ++ s) ∧ size p = n

/-- A range of bytes lies inside a string of a text, without its quotes. -/
def InString (lang : Language) (t : Text) (n width : Nat) : Prop :=
  ∃ r ∈ stringRanges lang t, r.start < n ∧ n + width < r.stop

variable {p q r s w : Text} {x : Char}

/-- Of two fronts of a text the shorter one is a front of the longer one. -/
theorem exists_append_of_size_le (same : p ++ s = q ++ r) (shorter : size p ≤ size q) :
    ∃ d, q = p ++ d ∧ s = d ++ r := by
  rcases List.append_eq_append_iff.1 same with ⟨d, rfl, rfl⟩ | ⟨d, rfl, rfl⟩
  · exact ⟨d, rfl, rfl⟩
  · have empty : d = [] := by
      apply eq_nil_of_size_eq_zero
      rw [size_append] at shorter
      omega
    subst empty
    exact ⟨[], by simp, by simp⟩

/-- A character that starts within a part of a text belongs to that part. -/
theorem mem_of_offset (same : q ++ x :: r = p ++ (w ++ s)) (behind : size p ≤ size q)
    (before : size q < size p + size w) : x ∈ w := by
  obtain ⟨d, rfl, inner⟩ := exists_append_of_size_le same.symm behind
  rw [size_append] at before
  obtain ⟨e, rfl, rest⟩ := exists_append_of_size_le inner.symm (by omega)
  cases e with
  | nil =>
      rw [List.append_nil] at before
      omega
  | cons y e =>
      obtain ⟨rfl, -⟩ := List.cons.inj rest
      exact List.mem_append_right d List.mem_cons_self

/-- A delimited part that touches a word has the word inside. -/
theorem Delimited.around_word {p' q s' v : Text} {y : Char} (delimited : q.Delimited)
    (same : p' ++ (q ++ s') = p ++ (w ++ s)) (letters : ∀ x ∈ w, isWordChar x = true)
    (word : w = v ++ y :: r) (behind : size p' ≤ size p + size v)
    (before : size p + size v < size p' + size q) :
    size p' < size p ∧ size p + size w < size p' + size q := by
  have inWord : size v < size w := by
    have positive := y.utf8Size_pos
    rw [word, size_append, size_cons]
    omega
  constructor
  · obtain ⟨x, v', rfl, outside⟩ := delimited.first
    by_contra late
    have isLetter : x ∈ w := mem_of_offset same (Nat.le_of_not_lt late) (by omega)
    rw [letters x isLetter] at outside
    cases outside
  · obtain ⟨v', x, rfl, outside⟩ := delimited.last
    by_contra early
    have place : (p' ++ v') ++ x :: s' = p ++ (w ++ s) := by
      rw [← same]
      simp
    have boundary : IsBoundary ((p' ++ v') ++ x :: s') (size p + size v) := by
      refine ⟨p ++ v, y :: r ++ s, ?_, size_append p v⟩
      rw [place, word]
      simp
    have positive := x.utf8Size_pos
    rw [size_append, size_cons, size_nil] at before early
    have atLast : size p + size v ≤ size (p' ++ v') := by
      rcases boundary.le_or_ge with le | ge
      · exact le
      · rw [size_append] at ge
        omega
    have isLetter : x ∈ w := by
      apply mem_of_offset place
      · omega
      · rw [size_append]
        omega
    rw [letters x isLetter] at outside
    cases outside

end Text

/-! ### Own texts -/

section OwnText

variable {lang : Language} {g : Grammar} {t : Text} {d : Declaration} {body : Span}

/-- Both views of a body are windows of the same width. -/
theorem Language.exists_body_window (scanned : lang.grammar? = some g) (declared : d ∈ g.declared t)
    (index : Nat) (kind : ViewKind) (isBody : d.body = some body) :
    ∃ p q s, g.viewOf t kind = p ++ (q ++ s) ∧ Text.size p = body.start ∧
      Text.size q = body.stop - body.start ∧
      (ownTextOf (Views.of g.language t) (g.nestedIn t index d) body).view kind =
        maskCharacters (covers (g.nestedIn t index d)) body.start q := by
  obtain ⟨bounded, p, q, s, split, start, width⟩ :=
    Language.exists_body_split scanned declared index kind isBody
  refine ⟨p, q, s, split, start, width, ?_⟩
  rw [Grammar.view_ownTextOf, ← width, ← start, split]
  exact blankRanges_eq (split ▸ bounded)

/-- A mask that covers no character of a text leaves it as it is. -/
theorem maskCharacters_eq_self {covered : Nat → Bool} {offset : Nat} {w : Text}
    (shown : ∀ v x r, w = v ++ x :: r → covered (offset + Text.size v) = false) :
    maskCharacters covered offset w = w := by
  induction w generalizing offset with
  | nil => rfl
  | cons x w ih =>
      have first : covered offset = false := shown [] x w rfl
      have later : ∀ v y r, w = v ++ y :: r →
          covered (offset + x.utf8Size + Text.size v) = false := by
        intro v y r split
        rw [Nat.add_assoc]
        exact shown (x :: v) y r (by rw [split]; rfl)
      rw [maskCharacters, first, ih later]
      rfl

/-- No blank belongs to a word. -/
theorem visible_of_isWordChar {x : Char} (letter : isWordChar x = true) : isBlank x = false :=
  Pattern.visible_of_onlyVisible (by decide +kernel) letter

/-- A readable word of a text is there in its code, or lies inside a string. -/
theorem word_in_code_or_string {p w s : Text} (split : t = p ++ (w ++ s)) (filled : w ≠ [])
    (letters : ∀ x ∈ w, isWordChar x = true)
    (readable : maskCharacters (covers (commentRanges lang t)) p.size w = w) :
    (maskCharacters (covers (hiddenRanges lang t)) p.size w = w ∧
        covers (stringRanges lang t) p.size = false) ∨
      Text.InString lang t p.size w.size := by
  by_cases touched : ∃ v x r, w = v ++ x :: r ∧
      covers (stringRanges lang t) (p.size + Text.size v) = true
  · right
    obtain ⟨v, x, r, word, covered⟩ := touched
    obtain ⟨range, listed, contains⟩ := List.any_eq_true.1 covered
    obtain ⟨p', q, s', split', rfl, delimited⟩ := exists_string_of_mem listed
    simp only [Span.contains, Bool.and_eq_true, decide_eq_true_eq] at contains
    have same : p' ++ (q ++ s') = p ++ (w ++ s) := split'.symm.trans split
    exact ⟨_, listed, delimited.around_word same letters word contains.1 contains.2⟩
  · left
    have outside : ∀ v x r, w = v ++ x :: r →
        covers (stringRanges lang t) (p.size + Text.size v) = false := by
      intro v x r word
      exact Bool.eq_false_iff.2 fun covered => touched ⟨v, x, r, word, covered⟩
    constructor
    · apply maskCharacters_eq_self
      intro v x r word
      apply Bool.eq_false_iff.2
      intro hidden
      rcases covers_of_covers_hiddenRanges hidden with commented | quoted
      · have visible : isBlank x = false := by
          apply visible_of_isWordChar
          apply letters
          rw [word]
          exact List.mem_append_right v List.mem_cons_self
        have shown : (maskCharacters (covers (commentRanges lang t)) p.size w).VisibleAt
            (Text.size v) := by
          rw [readable]
          exact ⟨v, x, r, word, rfl, visible⟩
        rw [visibleAt_maskCharacters shown] at commented
        cases commented
      · rw [outside v x r word] at quoted
        cases quoted
    · obtain ⟨x, rest, word⟩ := List.exists_cons_of_ne_nil filled
      exact outside [] x rest word

/-- What a mask makes of a part of a text. -/
theorem maskCharacters_part {covered : Nat → Bool} {offset : Nat} {p w s a w' b : Text}
    (masked : maskCharacters covered offset (p ++ (w ++ s)) = a ++ (w' ++ b))
    (front : Text.size p = Text.size a) (width : Text.size w = Text.size w') :
    maskCharacters covered (offset + Text.size p) w = w' := by
  rw [maskCharacters_append] at masked
  obtain ⟨-, rest⟩ := Text.append_inj_of_size masked (by simp [front])
  rw [maskCharacters_append] at rest
  exact (Text.append_inj_of_size rest (by simp [width])).1

/-- A readable word of an own text stands in the text, neither in a comment nor in a declaration
that is blanked. -/
theorem Language.exists_readable_word (scanned : lang.grammar? = some g)
    (declared : d ∈ g.declared t) (index : Nat) (isBody : d.body = some body) {a w b : Text}
    (filled : w ≠ []) (visible : ∀ x ∈ w, isBlank x = false)
    (read : (ownTextOf (Views.of g.language t) (g.nestedIn t index d) body).literal =
      a ++ (w ++ b)) :
    ∃ p s, t = p ++ (w ++ s) ∧ Text.size p = body.start + a.size ∧
      a.size + w.size ≤ body.stop - body.start ∧
      maskCharacters (covers (g.nestedIn t index d)) (body.start + a.size) w = w ∧
      maskCharacters (covers (commentRanges g.language t)) p.size w = w := by
  obtain ⟨pL, q, sL, view, start, width, own⟩ :=
    Language.exists_body_window scanned declared index .literal isBody
  obtain ⟨x, piece, rfl⟩ := List.exists_cons_of_ne_nil filled
  have first := visible x List.mem_cons_self
  have shown : ∀ q y r, piece = q ++ y :: r → isBlank y = false := by
    rintro q y r rfl
    apply visible
    exact List.mem_cons_of_mem x (List.mem_append_right q List.mem_cons_self)
  have ownSplit : maskCharacters (covers (g.nestedIn t index d)) body.start q =
      a ++ (x :: piece ++ b) := own.symm.trans read
  obtain ⟨a', b', rfl, front⟩ := split_of_maskCharacters ownSplit first
    fun q y r within => .inr (shown q y r within)
  have viewSplit : maskCharacters (covers (commentRanges g.language t)) 0 t =
      (pL ++ a') ++ (x :: piece ++ (b' ++ sL)) := by
    rw [← literalView_eq]
    exact view.trans (by simp)
  obtain ⟨p, s, split, offset⟩ := split_of_maskCharacters viewSplit first
    fun q y r within => .inr (shown q y r within)
  refine ⟨p, s, split, ?_, ?_, ?_, ?_⟩
  · rw [offset, Text.size_append, start, front]
  · rw [← width, Text.size_append, Text.size_append, front]
    omega
  · have part := maskCharacters_part ownSplit front rfl
    rwa [front] at part
  · have part := maskCharacters_part (split ▸ viewSplit) offset rfl
    rwa [Nat.zero_add, ← split] at part

/-- A word of the text that is not blanked stands in the code of an own text. -/
theorem Language.hasAt_own_code (scanned : lang.grammar? = some g) (declared : d ∈ g.declared t)
    (index : Nat) (isBody : d.body = some body) {p w s : Text} {n : Nat}
    (split : t = p ++ (w ++ s)) (place : Text.size p = body.start + n)
    (fits : n + w.size ≤ body.stop - body.start)
    (unnested : maskCharacters (covers (g.nestedIn t index d)) (body.start + n) w = w)
    (shown : maskCharacters (covers (hiddenRanges g.language t)) p.size w = w) :
    (ownTextOf (Views.of g.language t) (g.nestedIn t index d) body).code.HasAt n w := by
  obtain ⟨pC, q, sC, view, start, width, own⟩ :=
    Language.exists_body_window scanned declared index .code isBody
  have code : pC ++ (q ++ sC) =
      maskCharacters (covers (hiddenRanges g.language t)) 0 p ++
        (w ++ maskCharacters (covers (hiddenRanges g.language t)) (p.size + w.size) s) := by
    rw [← view]
    refine (codeView_eq g.language t).trans ?_
    nth_rewrite 2 [split]
    rw [maskCharacters_append, maskCharacters_append, Nat.zero_add, shown]
  obtain ⟨front, isFront, rest⟩ := Text.exists_append_of_size_le code (by simp [start, place])
  have frontSize : Text.size front = n := by
    have sizes := congrArg Text.size isFront
    rw [size_maskCharacters, Text.size_append] at sizes
    omega
  obtain ⟨back, rfl, -⟩ := Text.exists_append_of_size_le
    ((List.append_assoc front w _).trans rest.symm) (by rw [Text.size_append]; omega)
  have masked : (ownTextOf (Views.of g.language t) (g.nestedIn t index d) body).code =
      maskCharacters (covers (g.nestedIn t index d)) body.start (front ++ (w ++ back)) :=
    own.trans (by rw [List.append_assoc])
  rw [maskCharacters_append, maskCharacters_append, frontSize, unnested] at masked
  exact ⟨_, _, masked, by rw [size_maskCharacters, frontSize]⟩

/-- A readable word of the own text of a declaration is there in its code, or it lies inside a
string of the text. -/
theorem Language.word_in_own_code (scanned : lang.grammar? = some g) (declared : d ∈ g.declared t)
    (index : Nat) (isBody : d.body = some body) {a w b : Text} (filled : w ≠ [])
    (letters : ∀ x ∈ w, isWordChar x = true)
    (read : (ownTextOf (Views.of g.language t) (g.nestedIn t index d) body).literal =
      a ++ (w ++ b)) :
    ((ownTextOf (Views.of g.language t) (g.nestedIn t index d) body).code.HasAt a.size w ∧
        covers (stringRanges g.language t) (body.start + a.size) = false) ∨
      Text.InString g.language t (body.start + a.size) w.size := by
  obtain ⟨p, s, split, place, fits, unnested, readable⟩ :=
    Language.exists_readable_word scanned declared index isBody filled
      (fun x listed => visible_of_isWordChar (letters x listed)) read
  rcases word_in_code_or_string split filled letters readable with ⟨shown, unquoted⟩ | inString
  · left
    rw [← place]
    exact ⟨Language.hasAt_own_code scanned declared index isBody split place fits unnested shown,
      unquoted⟩
  · right
    rwa [← place]

end OwnText

end CallAtlas
