/-
Module: CallAtlas.Proofs.RawStrings
Purpose: Where a string between back quotes ends.  One rule serves all languages that write comments
  with slashes, and in it a backslash takes the character behind it along, a back quote as well.  In
  Go a backslash is nothing special there, so a raw string is read to its end only if it does not
  end in a backslash that has nothing else to take along.
Main definitions: BackquotedBody, Text.trailingBackslashes
Main results: backquotedBody_or_left, throughBackquote_append, CommentStyle.strip_backquoted,
  raw_string_ends_at_free_backquote
-/
import CallAtlas.Proofs.StrippedViews
import Mathlib.Data.List.Induction

namespace CallAtlas

/-! ### What stands between back quotes -/

/-- What the rule passes between two back quotes: a backslash takes one character along, and no
other character is a back quote. -/
inductive BackquotedBody : Text → Prop where
  | nil : BackquotedBody []
  | plain {x : Char} {t : Text} (unquoted : x ≠ '`') (unescaped : x ≠ '\\')
      (more : BackquotedBody t) : BackquotedBody (x :: t)
  | taken (y : Char) {t : Text} (more : BackquotedBody t) : BackquotedBody ('\\' :: y :: t)

theorem BackquotedBody.append {s t : Text} (first : BackquotedBody s) (second : BackquotedBody t) :
    BackquotedBody (s ++ t) := by
  induction first with
  | nil => exact second
  | plain unquoted unescaped _ ih => exact .plain unquoted unescaped ih
  | taken y _ ih => exact .taken y ih

/-- The number of backslashes at the end of a text. -/
def Text.trailingBackslashes (t : Text) : Nat := (t.reverse.takeWhile (· == '\\')).length

theorem Text.trailingBackslashes_concat (t : Text) (x : Char) :
    trailingBackslashes (t ++ [x]) = if x = '\\' then trailingBackslashes t + 1 else 0 := by
  by_cases backslash : x = '\\' <;> simp [trailingBackslashes, backslash]

/-- Backslashes at the end of a text without back quotes pair up, or one of them is left. -/
theorem backquotedBody_or_left {s : Text} (noQuote : '`' ∉ s) :
    (s.trailingBackslashes % 2 = 0 → BackquotedBody s) ∧
      (s.trailingBackslashes % 2 = 1 → ∃ front, s = front ++ ['\\'] ∧ BackquotedBody front) := by
  induction s using List.reverseRecOn with
  | nil =>
      refine ⟨fun _ => .nil, ?_⟩
      intro odd
      cases odd
  | append_singleton s x ih =>
      rw [List.mem_append, not_or, List.mem_singleton] at noQuote
      obtain ⟨paired, left⟩ := ih noQuote.1
      rw [Text.trailingBackslashes_concat]
      by_cases backslash : x = '\\'
      · subst backslash
        rw [if_pos rfl]
        refine ⟨?_, ?_⟩
        · intro even
          obtain ⟨front, rfl, body⟩ := left (by omega)
          rw [List.append_assoc]
          exact body.append (.taken '\\' .nil)
        · intro odd
          exact ⟨s, rfl, paired (by omega)⟩
      · rw [if_neg backslash]
        refine ⟨fun _ => ?_, ?_⟩
        · rcases Nat.mod_two_eq_zero_or_one (Text.trailingBackslashes s) with even | odd
          · exact (paired even).append (.plain (Ne.symm noQuote.2) backslash .nil)
          · -- the backslash that is left takes the character along
            obtain ⟨front, rfl, body⟩ := left odd
            rw [List.append_assoc]
            exact body.append (.taken x .nil)
        · intro odd
          cases odd

/-! ### How it is read -/

/-- The characters that stand for themselves between back quotes. -/
def plainInBackquotes (x : Char) : Bool := !"`\\".toList.contains x

/-- Everything up to the back quote that ends a string, and that back quote. -/
def throughBackquote : Text → Option Text := throughQuote '`' plainInBackquotes fun _ => true

theorem throughBackquote_append {s : Text} (body : BackquotedBody s) (t : Text) :
    throughBackquote (s ++ t) = (throughBackquote t).map (s ++ ·) := by
  induction body with
  | nil => simp
  | @plain x s unquoted unescaped _ ih =>
      have plain : plainInBackquotes x = true := by simp [plainInBackquotes, unquoted, unescaped]
      rw [List.cons_append, throughBackquote, throughQuote_other unquoted unescaped, if_pos plain,
        ← throughBackquote, ih, Option.map_map]
      rfl
  | @taken y s _ ih =>
      rw [List.cons_append, List.cons_append, throughBackquote, throughQuote_backslash (by decide),
        if_pos rfl, ← throughBackquote, ih, Option.map_map]
      rfl

theorem throughBackquote_of_body {s : Text} (body : BackquotedBody s) (r : Text) :
    throughBackquote (s ++ '`' :: r) = some (s ++ ['`']) := by
  rw [throughBackquote_append body, throughBackquote, throughQuote_quote]
  rfl

/-- What is read is the body of a string and the back quote that ends it. -/
theorem exists_body_of_throughBackquote {t w : Text} (reads : throughBackquote t = some w) :
    ∃ s r, BackquotedBody s ∧ t = s ++ '`' :: r := by
  unfold throughBackquote at reads
  induction t using throughQuote.induct '`' plainInBackquotes (fun _ => true) generalizing w with
  | case1 => cases reads
  | case2 t => exact ⟨[], t, .nil, rfl⟩
  | case3 other => simp [throughQuote] at reads
  | case4 y t _ _ ih =>
      rw [throughQuote_backslash (by decide), if_pos rfl] at reads
      obtain ⟨v, read, _⟩ := Option.map_eq_some_iff.1 reads
      obtain ⟨s, r, body, rfl⟩ := ih read
      exact ⟨'\\' :: y :: s, r, .taken y body, rfl⟩
  | case5 y t untaken _ => exact absurd rfl untaken
  | case6 x t unquoted unescaped goesOn ih =>
      rw [throughQuote_other unquoted unescaped, if_pos goesOn] at reads
      obtain ⟨v, read, _⟩ := Option.map_eq_some_iff.1 reads
      obtain ⟨s, r, body, rfl⟩ := ih read
      exact ⟨x :: s, r, .plain unquoted unescaped body, rfl⟩
  | case7 x t unquoted unescaped stops =>
      rw [throughQuote_other unquoted unescaped, if_neg stops] at reads
      cases reads

/-! ### What is left of it -/

namespace CommentStyle

variable {strings : Bool} {b : Option Char} {s t r : Text}

/-- Neither comments nor strings with slashes depend on the character before them. -/
theorem strip_slashes_before (b b' : Option Char) (t : Text) :
    slashes.strip strings b t = slashes.strip strings b' t := by
  induction b, t using walk_induction slashes generalizing b' with
  | done b => rw [strip, strip]
  | comment b w t reads ih =>
      have reads' : slashes.comment b' (w ++ t) = some w := reads
      rw [strip_comment reads, strip_comment reads', ih]
  | quoted b w t unread reads ih =>
      have unread' : slashes.comment b' (w ++ t) = none := unread
      have reads' : slashes.quoted b' (w ++ t) = some w := reads
      rw [strip_quoted unread reads, strip_quoted unread' reads', ih]
  | plain b x t uncommented unquoted ih =>
      have uncommented' : slashes.comment b' (x :: t) = none := uncommented
      have unquoted' : slashes.quoted b' (x :: t) = none := unquoted
      rw [strip_plain uncommented unquoted, strip_plain uncommented' unquoted']

theorem comment_backquote : slashes.comment b ('`' :: t) = none := rfl

theorem quoted_backquote :
    slashes.quoted b ('`' :: t) = (throughBackquote t).map ('`' :: ·) := rfl

/-- A string whose body the rule passes is blanked, and the text behind it is stripped apart. -/
theorem strip_backquoted (body : BackquotedBody s) (r : Text) :
    slashes.strip true b ('`' :: (s ++ '`' :: r)) =
      Text.blanks ('`' :: (s ++ ['`'])) ++ slashes.strip true none r := by
  have whole : '`' :: (s ++ '`' :: r) = ('`' :: (s ++ ['`'])) ++ r := by simp
  have reads : slashes.quoted b (('`' :: (s ++ ['`'])) ++ r) = some ('`' :: (s ++ ['`'])) := by
    rw [← whole, quoted_backquote, throughBackquote_of_body body]
    rfl
  rw [whole, strip_quoted comment_backquote reads, if_pos rfl]
  congr 1
  exact strip_slashes_before _ _ _

/-- A back quote that opens no string is left, and the text behind it is stripped on its own. -/
theorem strip_lone_backquote (unread : throughBackquote t = none) :
    slashes.strip true b ('`' :: t) = '`' :: slashes.strip true none t := by
  rw [strip_plain comment_backquote (by rw [quoted_backquote, unread]; rfl)]
  congr 1
  exact strip_slashes_before _ _ _

end CommentStyle

/-- The view of a Go text that begins with a raw string, for every content without back quotes and
every text behind it.  If the content ends in an even number of backslashes, the string is blanked
and the text behind it is seen as if it stood alone.  Otherwise the last backslash takes the closing
back quote along: the string is read on to the next back quote that is free in the text behind it,
or, if there is none, nothing is blanked but what is found behind its first back quote. -/
theorem raw_string_ends_at_free_backquote (s r : Text) (noQuote : '`' ∉ s) :
    (s.trailingBackslashes % 2 = 0 →
      codeView .go ('`' :: (s ++ '`' :: r)) =
        Text.blanks ('`' :: (s ++ ['`'])) ++ codeView .go r) ∧
    (s.trailingBackslashes % 2 = 1 →
      (∀ u r', BackquotedBody u → r = u ++ '`' :: r' →
        codeView .go ('`' :: (s ++ '`' :: r)) =
          Text.blanks ('`' :: (s ++ '`' :: (u ++ ['`']))) ++ codeView .go r') ∧
      ((∀ u r', BackquotedBody u → r ≠ u ++ '`' :: r') →
        codeView .go ('`' :: (s ++ '`' :: r)) = '`' :: codeView .go (s ++ '`' :: r))) := by
  obtain ⟨paired, left⟩ := backquotedBody_or_left noQuote
  simp only [codeView_eq_strip]
  refine ⟨?_, ?_⟩
  · intro even
    exact CommentStyle.strip_backquoted (paired even) r
  · intro odd
    obtain ⟨front, rfl, body⟩ := left odd
    -- the back quote behind the content belongs to the body
    have goesOn : ∀ t, front ++ ['\\'] ++ '`' :: t = (front ++ ['\\', '`']) ++ t := by simp
    have taken : BackquotedBody (front ++ ['\\', '`']) := body.append (.taken '`' .nil)
    refine ⟨?_, ?_⟩
    · rintro u r' passed rfl
      have whole := CommentStyle.strip_backquoted (b := none) (taken.append passed) r'
      rw [List.append_assoc, ← goesOn, List.append_assoc _ u, ← goesOn] at whole
      exact whole
    · intro unclosed
      apply CommentStyle.strip_lone_backquote
      rw [goesOn, throughBackquote_append taken]
      cases reads : throughBackquote r with
      | none => rfl
      | some w =>
          obtain ⟨u, r', passed, split⟩ := exists_body_of_throughBackquote reads
          exact absurd split (unclosed u r' passed)

/-- Of two backslashes at the end, the first takes the second along. -/
theorem raw_string_ends_at_free_backquote_paired :
    '`' ∉ "a\n\\\\".toList ∧ Text.trailingBackslashes "a\n\\\\".toList % 2 = 0 ∧
      codeView .go "`a\n\\\\`+f(`b`)".toList = "  \n   +f(   )".toList := by
  have noQuote : '`' ∉ "a\n\\\\".toList := by decide
  have even : Text.trailingBackslashes "a\n\\\\".toList % 2 = 0 := by decide
  have ends := (raw_string_ends_at_free_backquote "a\n\\\\".toList "+f(`b`)".toList noQuote).1 even
  have behind : codeView .go "+f(`b`)".toList = "+f(   )".toList := by decide +kernel
  refine ⟨noQuote, even, ?_⟩
  rw [behind] at ends
  exact ends

/-- The content of the first raw string is `C:\`.  The call behind it is blanked with it, and the
content of the second raw string is left. -/
theorem backslash_takes_closing_backquote :
    '`' ∉ "C:\\".toList ∧
      codeView .go ('`' :: ("C:\\".toList ++ '`' :: "\ng(`y`)\n".toList)) =
        "     \n   y`)\n".toList ∧
      codeView .go ('`' :: ("C:\\".toList ++ '`' :: "\ng(`y`)\n".toList)) ≠
        Text.blanks ('`' :: ("C:\\".toList ++ ['`'])) ++ codeView .go "\ng(`y`)\n".toList := by
  decide +kernel

end CallAtlas
