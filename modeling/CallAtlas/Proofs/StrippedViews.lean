/-
Module: CallAtlas.Proofs.StrippedViews
Purpose: To strip a text twice is to strip it once.  A view is what one walk over the text leaves:
  the walk reads a comment or a string where one begins, and passes any other character.  Blanks
  begin nothing, and blanking does not mislead the readers of comments and strings, so a second walk
  stops at the same places.
Main definitions: CommentStyle.comment, CommentStyle.quoted, CommentStyle.strip
Main results: CommentStyle.strip_strip, literalView_eq_strip, codeView_eq_strip,
  stripping_twice_is_stripping_once
-/
import CallAtlas.Proofs.StableReaders
import CallAtlas.Proofs.ViewAlignment

namespace CallAtlas

namespace CommentStyle

open Pattern Reader

/-! ### Comments and strings -/

/-- A string that ends at the next unescaped quote on the same line. -/
def lineString (quote : Char) : Reader :=
  opens [quote] fun _ =>
    throughQuote quote (fun c => c != quote && c != '\\' && c != '\n') fun _ => true

/-- A string between two runs of quotes, over any number of lines. -/
def fencedString (fence : String) : Reader :=
  opens fence.toList fun _ => throughFirst fence.toList

/-- A string in which a quote is written as two. -/
def doubledString (quote : Char) (allowed : Char → Bool) : Reader :=
  opens [quote] fun _ => throughDoubled quote allowed

/-- The comment that begins at a position. -/
def comment : CommentStyle → Reader
  | slashes =>
    (opens ['/', '/'] restOfLine).orElse (opens ['/', '*'] fun _ => throughFirst ['*', '/'])
  | hash => opens ['#'] restOfLine
  | star => (opens ['*'] restOfLine).atLineStart.orElse (opens ['"'] restOfLine)

/-- The string that begins at a position. -/
def quoted : CommentStyle → Reader
  | slashes =>
    (fencedString "\"\"\"").orElse
      ((opens ['@'] (doubledString '"' (· != '"'))).orElse
        ((lineString '"').orElse
          ((lineString '\'').orElse
            (opens ['`'] fun _ =>
              throughQuote '`' (fun c => !"`\\".toList.contains c) fun _ => true))))
  | hash =>
    (fencedString "\"\"\"").orElse
      ((fencedString "'''").orElse ((lineString '"').orElse (lineString '\'')))
  | star =>
    (doubledString '\'' fun c => c != '\'' && c != '\n').orElse
      ((doubledString '`' fun c => c != '`' && c != '\n').orElse
        (opens ['|'] fun _ => throughQuote '|' (fun c => !"|\\\n".toList.contains c) (· != '\n')))

/-! ### The pattern of a style -/

theorem readsFirst_lineQuoted {quote : Char} (other : quote ≠ '\\') :
    (lineQuoted quote).ReadsFirst (lineString quote) :=
  .opens (readsOnly_char quote) (readsOnly_throughQuote other (by simp) (by simp)).first

theorem readsFirst_fenced (fence : String) : (fenced fence).ReadsFirst (fencedString fence) :=
  .opens (readsOnly_lit fence) (readsFirst_throughFirst fence)

theorem readsFirst_doubled {quote : Char} {allowed : Char → Bool} (noQuote : allowed quote = false) :
    (doubled quote allowed).ReadsFirst (doubledString quote allowed) :=
  .opens (readsOnly_char quote) (readsFirst_throughDoubled noQuote)

theorem readsFirst_lineStart {p : Pattern} {f : Reader} (reads : p.ReadsFirst f) :
    (lineStart ++ p).ReadsFirst f.atLineStart := by
  have both := ReadsFirst.seq (readsOnly_here fun before _ => before.isNone || before == some '\n')
    reads
  have same : (check fun before _ => before.isNone || before == some '\n').andThen f =
      f.atLineStart := by
    funext before t
    rw [andThen, check, atLineStart, startsLine]
    split <;> simp
  rwa [same] at both

/-- The pattern of a style matches the comment or the string that begins at a position. -/
theorem matchAt?_pattern (style : CommentStyle) (c : Cursor) :
    style.pattern.matchAt? c =
      ((style.comment c.before c.rest).map (markedMatch c .comment)).or
        ((style.quoted c.before c.rest).map (markedMatch c .quoted)) := by
  cases style with
  | slashes =>
      apply matchAt?_either_marks
      · apply ReadsFirst.either
        · exact .seq (readsOnly_lit "//") readsFirst_restOfLine
        · exact .opens (readsOnly_lit "/*") (readsFirst_throughFirst "*/")
      · apply ReadsFirst.either (readsFirst_fenced _)
        apply ReadsFirst.either
        · exact .seq (readsOnly_char '@') (readsFirst_doubled (by decide))
        apply ReadsFirst.either (readsFirst_lineQuoted (by decide))
        apply ReadsFirst.either (readsFirst_lineQuoted (by decide))
        exact .opens (readsOnly_char '`')
          (readsOnly_throughQuote (by decide) (by decide) (by decide)).first
  | hash =>
      apply matchAt?_either_marks
      · exact .seq (readsOnly_char '#') readsFirst_restOfLine
      · apply ReadsFirst.either (readsFirst_fenced _)
        apply ReadsFirst.either (readsFirst_fenced _)
        exact .either (readsFirst_lineQuoted (by decide)) (readsFirst_lineQuoted (by decide))
  | star =>
      apply matchAt?_either_marks
      · apply ReadsFirst.either
        · exact readsFirst_lineStart (.seq (readsOnly_char '*') readsFirst_restOfLine)
        · exact .seq (readsOnly_char '"') readsFirst_restOfLine
      · apply ReadsFirst.either (readsFirst_doubled (by decide))
        apply ReadsFirst.either (readsFirst_doubled (by decide))
        exact .opens (readsOnly_char '|')
          (readsOnly_throughQuote (by decide) (by decide) (by decide)).first

/-! ### Comments and strings are lexemes -/

theorem escaping_line {quote : Char} (visible : isBlank quote = false) (other : quote ≠ '\\') :
    Escaping quote (fun c => c != quote && c != '\\' && c != '\n') fun _ => true where
  visible := visible
  ne_backslash := other
  plain_quote := by simp
  plain_backslash := by simp
  plain_of feed quoted backslash := by simp [feed, quoted, backslash]
  escapes_of _ := rfl
  escapes_lineFeed _ := rfl

theorem escaping_backquote : Escaping '`' (fun c => !"`\\".toList.contains c) fun _ => true where
  visible := by decide
  ne_backslash := by decide
  plain_quote := by decide
  plain_backslash := by decide
  plain_of _ quoted backslash := by simp [quoted, backslash]
  escapes_of _ := rfl
  escapes_lineFeed _ := rfl

theorem escaping_bar : Escaping '|' (fun c => !"|\\\n".toList.contains c) (· != '\n') where
  visible := by decide
  ne_backslash := by decide
  plain_quote := by decide
  plain_backslash := by decide
  plain_of feed quoted backslash := by simp [feed, quoted, backslash]
  escapes_of feed := by simp [feed]
  escapes_lineFeed plain := absurd plain (by decide)

theorem doubling_verbatim : Doubling '"' (· != '"') where
  visible := by decide
  ne_backslash := by decide
  allowed_quote := by decide
  allowed_of _ quoted := by simp [quoted]

theorem doubling_line {quote : Char} (visible : isBlank quote = false) (other : quote ≠ '\\') :
    Doubling quote fun c => c != quote && c != '\n' where
  visible := visible
  ne_backslash := other
  allowed_quote := by simp
  allowed_of feed quoted := by simp [feed, quoted]

theorem lexeme_lineString {quote : Char} (visible : isBlank quote = false) (other : quote ≠ '\\') :
    (lineString quote).Lexeme :=
  .opens (by simp [isDelimiter, visible, other]) (stable_throughQuote (escaping_line visible other))

theorem lexeme_fencedString {fence : String} {x : Char} {s : Text} (chars : fence.toList = x :: s)
    (delimits : isDelimiter (x :: s) = true) : (fencedString fence).Lexeme := by
  rw [fencedString, chars]
  exact .opens delimits (stable_throughFirst (by simp) delimits)

theorem lexeme_doubledString {quote : Char} {allowed : Char → Bool}
    (rules : Doubling quote allowed) : (doubledString quote allowed).Lexeme :=
  .opens (by simp [isDelimiter, rules.visible, rules.ne_backslash]) (stable_throughDoubled rules)

theorem comment_lexeme (style : CommentStyle) : style.comment.Lexeme := by
  cases style with
  | slashes =>
      exact .orElse (.opens (by decide) stable_restOfLine)
        (.opens (by decide) (stable_throughFirst (by decide) (by decide)))
  | hash => exact .opens (by decide) stable_restOfLine
  | star =>
      exact .orElse (.atLineStart (.opens (by decide) stable_restOfLine))
        (.opens (by decide) stable_restOfLine)

theorem quoted_lexeme (style : CommentStyle) : style.quoted.Lexeme := by
  cases style with
  | slashes =>
      apply Lexeme.orElse (lexeme_fencedString rfl (by decide))
      apply Lexeme.orElse
      · exact .opens (by decide) (lexeme_doubledString doubling_verbatim).toStable
      apply Lexeme.orElse (lexeme_lineString (by decide) (by decide))
      apply Lexeme.orElse (lexeme_lineString (by decide) (by decide))
      exact .opens (by decide) (stable_throughQuote escaping_backquote)
  | hash =>
      apply Lexeme.orElse (lexeme_fencedString rfl (by decide))
      apply Lexeme.orElse (lexeme_fencedString rfl (by decide))
      exact .orElse (lexeme_lineString (by decide) (by decide))
        (lexeme_lineString (by decide) (by decide))
  | star =>
      apply Lexeme.orElse (lexeme_doubledString (doubling_line (by decide) (by decide)))
      apply Lexeme.orElse (lexeme_doubledString (doubling_line (by decide) (by decide)))
      exact .opens (by decide) (stable_throughQuote escaping_bar)

/-! ### One walk over a text -/

/-- What a walk over a text leaves: comments are blanked, strings if it is to blank them, and any
other character is passed.  A lexeme has at least one character, which is the one that is taken off
the text first. -/
def strip (style : CommentStyle) (strings : Bool) (before : Option Char) : Text → Text
  | [] => []
  | x :: t =>
    match style.comment before (x :: t) with
    | some w => Text.blanks w ++ strip style strings (w.getLast?.or before) (t.drop (w.length - 1))
    | none =>
      match style.quoted before (x :: t) with
      | some w =>
        (if strings then Text.blanks w else w) ++
          strip style strings (w.getLast?.or before) (t.drop (w.length - 1))
      | none => x :: strip style strings (some x) t
termination_by t => t.length

variable {style : CommentStyle} {strings : Bool} {b b' : Option Char} {x : Char} {t w : Text}

theorem strip_comment (reads : style.comment b (w ++ t) = some w) :
    style.strip strings b (w ++ t) = w.blanks ++ style.strip strings (w.getLast?.or b) t := by
  obtain ⟨x, v, rfl, _⟩ := style.comment_lexeme.starts reads
  rw [List.cons_append] at reads ⊢
  rw [strip, reads]
  simp

theorem strip_quoted (unread : style.comment b (w ++ t) = none)
    (reads : style.quoted b (w ++ t) = some w) :
    style.strip strings b (w ++ t) =
      (if strings then w.blanks else w) ++ style.strip strings (w.getLast?.or b) t := by
  obtain ⟨x, v, rfl, _⟩ := style.quoted_lexeme.starts reads
  rw [List.cons_append] at unread reads ⊢
  rw [strip, unread, reads]
  simp

theorem strip_plain (uncommented : style.comment b (x :: t) = none)
    (unquoted : style.quoted b (x :: t) = none) :
    style.strip strings b (x :: t) = x :: style.strip strings (some x) t := by
  rw [strip, uncommented, unquoted]

/-- Induction along a walk: over a comment, over a string, or over one other character. -/
theorem walk_induction {motive : Option Char → Text → Prop} (style : CommentStyle)
    (done : ∀ b, motive b [])
    (comment : ∀ b w t, style.comment b (w ++ t) = some w → motive (w.getLast?.or b) t →
      motive b (w ++ t))
    (quoted : ∀ b w t, style.comment b (w ++ t) = none → style.quoted b (w ++ t) = some w →
      motive (w.getLast?.or b) t → motive b (w ++ t))
    (plain : ∀ b x t, style.comment b (x :: t) = none → style.quoted b (x :: t) = none →
      motive (some x) t → motive b (x :: t))
    (b : Option Char) (t : Text) : motive b t := by
  induction size : t.length using Nat.strong_induction_on generalizing b t with
  | _ n ih =>
      subst size
      cases t with
      | nil => exact done b
      | cons x t =>
          have shorter : ∀ {w r : Text}, x :: t = w ++ r →
              (∃ y v, w = y :: v ∧ isBlank y = false) → r.length < (x :: t).length := by
            rintro w r split ⟨y, v, rfl, _⟩
            rw [split, List.length_append, List.length_cons]
            omega
          cases commented : style.comment b (x :: t) with
          | some w =>
              obtain ⟨r, split, _, _⟩ := style.comment_lexeme.reads commented
              have next := ih r.length (shorter split (style.comment_lexeme.starts commented))
                (w.getLast?.or b) r rfl
              rw [split] at commented ⊢
              exact comment b w r commented next
          | none =>
              cases isQuoted : style.quoted b (x :: t) with
              | some w =>
                  obtain ⟨r, split, _, _⟩ := style.quoted_lexeme.reads isQuoted
                  have next := ih r.length (shorter split (style.quoted_lexeme.starts isQuoted))
                    (w.getLast?.or b) r rfl
                  rw [split] at commented isQuoted ⊢
                  exact quoted b w r commented isQuoted next
              | none =>
                  exact plain b x t commented isQuoted (ih t.length (by simp) (some x) t rfl)

theorem strip_blanked (style : CommentStyle) (strings : Bool) (b : Option Char) (t : Text) :
    Blanked false t (style.strip strings b t) := by
  induction b, t using walk_induction style with
  | done b =>
      rw [strip]
      exact .done
  | comment b w t reads ih =>
      rw [strip_comment reads]
      exact style.comment_lexeme.blanked reads ih
  | quoted b w t unread reads ih =>
      rw [strip_quoted unread reads]
      split
      · exact style.quoted_lexeme.blanked reads ih
      · exact ih.append_left w
  | plain b x t uncommented unquoted ih =>
      rw [strip_plain uncommented unquoted]
      exact .kept (by simp) ih

/-- No lexeme begins with a blank, so a walk passes blanks. -/
theorem strip_blanks (blank : ∀ y ∈ w, isBlank y = true) :
    style.strip strings b (w ++ t) = w ++ style.strip strings (w.getLast?.or b) t := by
  induction w generalizing b with
  | nil => rfl
  | cons y w ih =>
      have first := blank y List.mem_cons_self
      have last : w.getLast?.or (some y) = (y :: w).getLast?.or b := by
        rw [List.getLast?_cons]
        cases w.getLast? <;> rfl
      rw [List.cons_append, strip_plain (style.comment_lexeme.none_of_isBlank first)
        (style.quoted_lexeme.none_of_isBlank first), ih fun z listed => blank z (List.mem_cons_of_mem _ listed),
        last, List.cons_append]

theorem isBlank_of_mem_blanks {y : Char} (listed : y ∈ Text.blanks w) : isBlank y = true := by
  obtain ⟨x, _, within⟩ := List.mem_flatMap.1 listed
  exact isBlank_of_mem_blankOf within

theorem startsLine_blanks (w : Text) (same : startsLine b = startsLine b') :
    startsLine (w.getLast?.or b) = startsLine ((Text.blanks w).getLast?.or b') := by
  rcases List.eq_nil_or_concat w with rfl | ⟨v, z, rfl⟩
  · exact same
  · rw [List.concat_eq_append, Text.blanks, List.flatMap_append, List.flatMap_singleton, List.getLast?_append,
      List.getLast?_append]
    rcases blankOf_cases z with ⟨rfl, blank⟩ | ⟨other, n, blank⟩ <;> rw [blank]
    · rfl
    · rw [← List.replicate_succ, List.getLast?_replicate]
      simp [startsLine, other]

/-- A walk over what a walk has left stops at the same places. -/
theorem strip_strip {first second : Bool} (more : first = true → second = true)
    (same : startsLine b = startsLine b') :
    style.strip second b' (style.strip first b t) = style.strip second b t := by
  induction b, t using walk_induction style generalizing b' with
  | done b => rw [strip, strip, strip]
  | comment b w t reads ih =>
      rw [strip_comment reads, strip_comment reads, strip_blanks fun y => isBlank_of_mem_blanks,
        ih (startsLine_blanks w same)]
  | quoted b w t unread reads ih =>
      rw [strip_quoted unread reads, strip_quoted unread reads]
      by_cases hides : first = true
      · rw [if_pos hides, if_pos (more hides), strip_blanks fun y => isBlank_of_mem_blanks,
          ih (startsLine_blanks w same)]
      · -- the string is left, and blanking what follows it does not change how it is read
        have rest := style.strip_blanked first (w.getLast?.or b) t
        have uncommented :=
          style.comment_lexeme.none_of_blanked same (rest.append_left w) unread
        obtain ⟨r, split, _, again⟩ := style.quoted_lexeme.reads reads
        obtain rfl := List.append_cancel_left split
        have sameBehind : startsLine (w.getLast?.or b) = startsLine (w.getLast?.or b') := by
          cases w.getLast? with
          | none => exact same
          | some y => rfl
        rw [if_neg hides, strip_quoted uncommented (again b' _ same rest), ih sameBehind]
  | plain b x t uncommented unquoted ih =>
      have blanked : Blanked false (x :: t) (x :: style.strip first (some x) t) :=
        .kept (by simp) (style.strip_blanked first (some x) t)
      rw [strip_plain uncommented unquoted, strip_plain uncommented unquoted,
        strip_plain (style.comment_lexeme.none_of_blanked same blanked uncommented)
          (style.quoted_lexeme.none_of_blanked same blanked unquoted), ih rfl]

end CommentStyle

/-! ### Masks -/

section

variable {covered covered' : Nat → Bool} {offset : Nat} {t w : Text}

theorem maskCharacters_congr (same : ∀ i, offset ≤ i → covered i = covered' i) :
    maskCharacters covered offset t = maskCharacters covered' offset t := by
  induction t generalizing offset with
  | nil => rfl
  | cons x t ih =>
      rw [maskCharacters, maskCharacters, same offset (Nat.le_refl _),
        ih fun i behind => same i (Nat.le_trans (Nat.le_add_right ..) behind)]

theorem maskCharacters_of_covered
    (hidden : ∀ i, offset ≤ i → i < offset + w.size → covered i = true) :
    maskCharacters covered offset w = w.blanks := by
  induction w generalizing offset with
  | nil => rfl
  | cons x w ih =>
      have width := x.utf8Size_pos
      have first : covered offset = true := by
        apply hidden offset (Nat.le_refl _)
        rw [Text.size_cons]
        omega
      rw [maskCharacters, first, ih]
      · by_cases lineFeed : x = '\n' <;> simp [blankOf, lineFeed]
      · intro i behind inside
        apply hidden i (by omega)
        rw [Text.size_cons]
        omega

theorem maskCharacters_of_uncovered
    (shown : ∀ i, offset ≤ i → i < offset + w.size → covered i = false) :
    maskCharacters covered offset w = w := by
  induction w generalizing offset with
  | nil => rfl
  | cons x w ih =>
      have width := x.utf8Size_pos
      have first : covered offset = false := by
        apply shown offset (Nat.le_refl _)
        rw [Text.size_cons]
        omega
      rw [maskCharacters, first, ih]
      · simp
      · intro i behind inside
        apply shown i (by omega)
        rw [Text.size_cons]
        omega

variable {ranges : List Span}

theorem covers_of_before {i : Nat} (behind : ∀ r ∈ ranges, offset ≤ r.start) (before : i < offset) :
    covers ranges i = false := by
  rw [covers, List.any_eq_false]
  intro r listed
  have := behind r listed
  simp only [Span.contains, Bool.and_eq_true, decide_eq_true_eq]
  omega

theorem maskCharacters_kept (behind : ∀ r ∈ ranges, offset + w.size ≤ r.start) :
    maskCharacters (covers ranges) offset (w ++ t) =
      w ++ maskCharacters (covers ranges) (offset + w.size) t := by
  rw [maskCharacters_append, maskCharacters_of_uncovered]
  intro i _ before
  exact covers_of_before behind before

theorem maskCharacters_hidden :
    maskCharacters (covers (⟨offset, offset + w.size⟩ :: ranges)) offset (w ++ t) =
      w.blanks ++ maskCharacters (covers ranges) (offset + w.size) t := by
  rw [maskCharacters_append, maskCharacters_of_covered]
  · congr 1
    apply maskCharacters_congr
    intro i behind
    have outside : Span.contains ⟨offset, offset + w.size⟩ i = false := by
      simp only [Span.contains, Bool.and_eq_false_iff, decide_eq_false_iff_not]
      omega
    rw [covers, List.any_cons, outside, Bool.false_or]
    rfl
  · intro i behind before
    have inside : Span.contains ⟨offset, offset + w.size⟩ i = true := by
      simp only [Span.contains, Bool.and_eq_true, decide_eq_true_eq]
      omega
    rw [covers, List.any_cons, inside, Bool.true_or]

end

/-! ### The matches along a walk -/

namespace Pattern

variable {p : Pattern} {b : Option Char} {offset : Nat} {x : Char} {fuel t w : Text}

theorem matchesFrom_of_markedMatch {group : Group} (filled : w ≠ [])
    (there : p.matchAt? ⟨b, offset, w ++ t⟩ = some (markedMatch ⟨b, offset, w ++ t⟩ group w)) :
    p.matchesFrom (x :: fuel) ⟨b, offset, w ++ t⟩ =
      markedMatch ⟨b, offset, w ++ t⟩ group w ::
        p.matchesFrom fuel ⟨w.getLast?.or b, offset + w.size, t⟩ := by
  have forward : offset < offset + w.size := by
    have : Text.size w ≠ 0 := fun empty => filled (Text.eq_nil_of_size_eq_zero empty)
    omega
  have resume : (markedMatch ⟨b, offset, w ++ t⟩ group w).resume =
      ⟨w.getLast?.or b, offset + w.size, t⟩ := by
    simp [Match.resume, markedMatch, Cursor.pass, forward]
  rw [matchesFrom, searchFrom?_of_matchAt? there, ← resume]

theorem matchesFrom_of_none (unmatched : p.matchAt? ⟨b, offset, x :: t⟩ = none) :
    p.matchesFrom fuel ⟨b, offset, x :: t⟩ =
      p.matchesFrom fuel ⟨some x, offset + x.utf8Size, t⟩ := by
  have further : p.searchFrom? ⟨b, offset, x :: t⟩ =
      p.searchFrom? ⟨some x, offset + x.utf8Size, t⟩ := by
    rw [searchFrom?, search?, unmatched, searchFrom?]
  cases fuel with
  | nil => rw [matchesFrom, matchesFrom, further]
  | cons y fuel => rw [matchesFrom, matchesFrom, further]

end Pattern

/-- The part of a match that a view hides. -/
def hiddenPart (strings : Bool) (m : Match) : Option Span :=
  (m.group? .comment).or (if strings then m.group? .quoted else none)

/-- The ranges that a view hides from a position on. -/
def hiddenFrom (style : CommentStyle) (strings : Bool) (fuel : Text) (c : Cursor) : List Span :=
  (style.pattern.matchesFrom fuel c).filterMap (hiddenPart strings)

/-- Wherever a text stands, hiding its ranges leaves another text, and no range begins before it. -/
def MasksTo (style : CommentStyle) (strings : Bool) (b : Option Char) (t u : Text) : Prop :=
  ∀ (offset : Nat) (fuel : Text), t.length ≤ fuel.length →
    (∀ r ∈ hiddenFrom style strings fuel ⟨b, offset, t⟩, offset ≤ r.start) ∧
      maskCharacters (covers (hiddenFrom style strings fuel ⟨b, offset, t⟩)) offset t = u

section

variable {style : CommentStyle} {strings : Bool} {b : Option Char} {t u w : Text}

theorem MasksTo.lexeme (group : Group) (hides : Bool) (filled : w ≠ [])
    (there : ∀ offset, style.pattern.matchAt? ⟨b, offset, w ++ t⟩ =
      some (Pattern.markedMatch ⟨b, offset, w ++ t⟩ group w))
    (part : ∀ c, hiddenPart strings (Pattern.markedMatch c group w) =
      if hides then some ⟨c.offset, c.offset + w.size⟩ else none)
    (rest : MasksTo style strings (w.getLast?.or b) t u) :
    MasksTo style strings b (w ++ t) ((if hides then w.blanks else w) ++ u) := by
  intro offset fuel enough
  have width : 0 < w.length := List.length_pos_iff.2 filled
  rw [List.length_append] at enough
  cases fuel with
  | nil => simp only [List.length_nil] at enough; omega
  | cons y fuel =>
      simp only [List.length_cons] at enough
      obtain ⟨behind, masked⟩ := rest (offset + w.size) fuel (by omega)
      rw [hiddenFrom, Pattern.matchesFrom_of_markedMatch filled (there offset), List.filterMap_cons,
        part, ← masked]
      have later : ∀ r ∈ hiddenFrom style strings fuel ⟨w.getLast?.or b, offset + w.size, t⟩,
          offset ≤ r.start := fun r listed => Nat.le_trans (Nat.le_add_right ..) (behind r listed)
      cases hides with
      | false => exact ⟨later, maskCharacters_kept behind⟩
      | true =>
          exact ⟨List.forall_mem_cons.2 ⟨Nat.le_refl _, later⟩, maskCharacters_hidden⟩

end

/-- The matches of the pattern are the stops of the walk. -/
theorem masksTo_strip (style : CommentStyle) (strings : Bool) (b : Option Char) (t : Text) :
    MasksTo style strings b t (style.strip strings b t) := by
  induction b, t using CommentStyle.walk_induction style with
  | done b =>
      intro offset fuel _
      have unmatched : style.pattern.searchFrom? ⟨b, offset, []⟩ = none := by
        rw [Pattern.searchFrom?, Pattern.search?, CommentStyle.matchAt?_pattern,
          style.comment_lexeme.none_of_nil, style.quoted_lexeme.none_of_nil]
        rfl
      have empty : hiddenFrom style strings fuel ⟨b, offset, []⟩ = [] := by
        cases fuel <;> simp [hiddenFrom, Pattern.matchesFrom, unmatched]
      rw [empty, CommentStyle.strip]
      exact ⟨by simp, rfl⟩
  | comment b w t reads ih =>
      rw [CommentStyle.strip_comment reads]
      refine .lexeme .comment true (style.comment_lexeme.ne_nil reads) ?_ (fun _ => rfl) ih
      intro offset
      rw [CommentStyle.matchAt?_pattern, reads]
      rfl
  | quoted b w t unread reads ih =>
      rw [CommentStyle.strip_quoted unread reads]
      refine .lexeme .quoted strings (style.quoted_lexeme.ne_nil reads) ?_ (fun _ => ?_) ih
      · intro offset
        rw [CommentStyle.matchAt?_pattern, unread, reads]
        rfl
      · cases strings <;> rfl
  | plain b x t uncommented unquoted ih =>
      intro offset fuel enough
      obtain ⟨behind, masked⟩ := ih (offset + x.utf8Size) fuel (Nat.le_of_succ_le enough)
      have unmatched : style.pattern.matchAt? ⟨b, offset, x :: t⟩ = none := by
        rw [CommentStyle.matchAt?_pattern, uncommented, unquoted]
        rfl
      rw [hiddenFrom, Pattern.matchesFrom_of_none unmatched,
        CommentStyle.strip_plain uncommented unquoted, ← masked]
      refine ⟨fun r listed => Nat.le_trans (Nat.le_add_right ..) (behind r listed), ?_⟩
      exact maskCharacters_kept (w := [x]) behind

theorem literalView_eq_strip (lang : Language) (t : Text) :
    literalView lang t = lang.commentStyle.strip false none t := by
  have ranges : commentRanges lang t = hiddenFrom lang.commentStyle false t (.ofText t) := by
    rw [commentRanges, hiddenFrom, Pattern.findAll]
    congr 1
    funext m
    simp [hiddenPart]
  rw [literalView_eq, ranges]
  exact (masksTo_strip lang.commentStyle false none t 0 t (Nat.le_refl _)).2

theorem codeView_eq_strip (lang : Language) (t : Text) :
    codeView lang t = lang.commentStyle.strip true none t := by
  rw [codeView_eq]
  exact (masksTo_strip lang.commentStyle true none t 0 t (Nat.le_refl _)).2

/-- To strip a text twice is to strip it once, and comments may go before the strings. -/
theorem stripping_twice_is_stripping_once (lang : Language) (t : Text) :
    codeView lang (codeView lang t) = codeView lang t ∧
      literalView lang (literalView lang t) = literalView lang t ∧
      codeView lang (literalView lang t) = codeView lang t := by
  simp only [codeView_eq_strip, literalView_eq_strip]
  exact ⟨CommentStyle.strip_strip id rfl, CommentStyle.strip_strip id rfl,
    CommentStyle.strip_strip (by simp) rfl⟩

end CallAtlas
