/-
Module: CallAtlas.Proofs.DocComments
Purpose: What is captured of the comment before a header.  The comment is looked for from its end:
  it is taken to begin at the last opener before the header.  So a comment is captured whole if its
  content holds no other opener, whatever stands before it, and otherwise only what follows the last
  opener counts.
Main definitions: JoinsTo, Documents
Main results: joinDocLines?_joinsTo, afterLast?_of_last, blockDoc?_of_documenting,
  blockDoc?_of_other, doc_comment_begins_at_last_opener
-/
import CallAtlas.Proofs.VisibleText
import CallAtlas.Scan.DocComment

namespace CallAtlas

/-! ### Joined lines -/

/-- What some lines are joined to: those between the first and the last line that is not empty, and
nothing if all are empty. -/
inductive JoinsTo (lines : List Text) : Option Text → Prop
  | nothing (empty : ∀ line ∈ lines, line = []) : JoinsTo lines none
  | text {front kept back : List Text} (split : lines = front ++ kept ++ back)
      (emptyFront : ∀ line ∈ front, line = []) (emptyBack : ∀ line ∈ back, line = [])
      (filled : kept ≠ []) (first : kept.head? ≠ some []) (last : kept.getLast? ≠ some []) :
      JoinsTo lines (some (Text.join ['\n'] kept))

theorem joinDocLines?_joinsTo (lines : List Text) : JoinsTo lines (joinDocLines? lines) := by
  obtain ⟨front, kept, back, dropped, split, emptyFront, emptyBack, first, last⟩ :=
    exists_dropped_ends List.isEmpty lines
  have emptyFront : ∀ line ∈ front, line = [] := fun line listed =>
    List.isEmpty_iff.1 (emptyFront line listed)
  have emptyBack : ∀ line ∈ back, line = [] := fun line listed =>
    List.isEmpty_iff.1 (emptyBack line listed)
  have joined : joinDocLines? lines =
      if kept.isEmpty then none else some (Text.join ['\n'] kept) := by
    rw [← dropped]
    rfl
  rw [joined]
  cases kept with
  | nil =>
      apply JoinsTo.nothing
      intro line listed
      rw [split, List.append_nil, List.mem_append] at listed
      exact listed.elim (emptyFront line) (emptyBack line)
  | cons line kept =>
      apply JoinsTo.text split emptyFront emptyBack (List.cons_ne_nil line kept)
      · intro empty
        exact absurd (first [] empty) (by decide)
      · intro empty
        exact absurd (last [] empty) (by decide)

/-- What is captured of a comment with a given content: its lines, each without the blanks around it
and without the stars at its front, joined without the empty ones at either end. -/
def Documents (content : Text) (doc : Option Text) : Prop :=
  JoinsTo (content.lines.map starLine) doc

/-! ### The last opener -/

section Last

variable {piece : Text} {a b t : Text} {x : Char}

theorem Text.afterLast?_eq_none (absent : ¬ piece <:+: t) (offset : Nat) :
    afterLast? piece offset t = none := by
  induction t generalizing offset with
  | nil => rfl
  | cons c t ih =>
      have later : ¬ piece <:+: t := fun inside => absent (List.infix_cons inside)
      have here : piece.isPrefixOf (c :: t) = false := by
        apply Bool.eq_false_iff.2
        intro starts
        exact absent (List.isPrefixOf_iff_prefix.1 starts).isInfix
      rw [afterLast?, ih later, here]
      rfl

/-- The last occurrence of a piece is one behind whose first character there is no other. -/
theorem Text.afterLast?_of_last (a : Text) (last : ¬ (x :: piece) <:+: piece ++ b) (offset : Nat) :
    afterLast? (x :: piece) offset (a ++ x :: (piece ++ b)) =
      some (offset + size (a ++ x :: piece)) := by
  induction a generalizing offset with
  | nil =>
      have starts : (x :: piece).isPrefixOf (x :: (piece ++ b)) = true :=
        List.isPrefixOf_iff_prefix.2 ⟨b, rfl⟩
      rw [List.nil_append, afterLast?, afterLast?_eq_none last, starts]
      rfl
  | cons c a ih =>
      have size_eq : offset + c.utf8Size + size (a ++ x :: piece) =
          offset + size (c :: (a ++ x :: piece)) := Nat.add_assoc _ _ _
      rw [List.cons_append, afterLast?, ih, List.cons_append, size_eq]

theorem exists_last_of_infix (occurs : (x :: piece) <:+: t) :
    ∃ a b, t = a ++ x :: (piece ++ b) ∧ ¬ (x :: piece) <:+: piece ++ b := by
  induction length : t.length using Nat.strongRecOn generalizing t with
  | ind n ih =>
      obtain ⟨a, b, rfl⟩ := occurs
      rw [List.append_assoc, List.cons_append] at length ⊢
      by_cases again : (x :: piece) <:+: piece ++ b
      · have shorter : (piece ++ b).length < n := by
          have whole : (a ++ x :: (piece ++ b)).length = a.length + ((piece ++ b).length + 1) :=
            List.length_append
          omega
        obtain ⟨a', b', split, last⟩ := ih _ shorter again rfl
        refine ⟨a ++ x :: a', b', ?_, last⟩
        rw [split, List.append_assoc, List.cons_append]
      · exact ⟨a, b, rfl, again⟩

end Last

/-! ### Block comments -/

/-- What opens a comment. -/
def commentOpener : Text := ['/', '*']

/-- What closes a comment. -/
def commentCloser : Text := ['*', '/']

section Blocks

variable {a b c : Text}

/-- A star in front adds no opener. -/
theorem opener_infix_star_iff : commentOpener <:+: '*' :: b ↔ commentOpener <:+: b := by
  rw [List.infix_cons_iff]
  refine or_iff_right ?_
  rintro ⟨rest, starts⟩
  cases starts

/-- The slash of a closer begins no opener. -/
theorem opener_infix_closer_iff :
    commentOpener <:+: c ++ commentCloser ↔ commentOpener <:+: c ++ ['*'] := by
  have split : c ++ commentCloser = c ++ ['*'] ++ ['/'] := by
    rw [List.append_assoc]
    rfl
  rw [split, List.infix_concat_iff]
  refine or_iff_right ?_
  rintro ⟨front, ends⟩
  have last := congrArg List.getLast? ends
  rw [List.getLast?_concat, List.getLast?_append] at last
  cases last

/-- The text from the last opener on. -/
theorem blockDoc?_eq (a : Text) (last : ¬ commentOpener <:+: b) :
    blockDoc? (a ++ '/' :: '*' :: b) =
      if "/**".toList.isPrefixOf ('/' :: '*' :: b) then
        (Text.slice? ('/' :: '*' :: b) ⟨3, Text.size b⟩).bind fun inner =>
          joinDocLines? (inner.lines.map starLine)
      else none := by
  have found : Text.afterLast? ['/', '*'] 0 (a ++ '/' :: '*' :: b) =
      some (Text.size a + 2) := by
    have lastStar : ¬ commentOpener <:+: ['*'] ++ b := fun occurs =>
      last (opener_infix_star_iff.1 occurs)
    have atOpener := Text.afterLast?_of_last a lastStar 0
    rw [Nat.zero_add, Text.size_append] at atOpener
    exact atOpener
  have size : Text.size ('/' :: '*' :: b) - 2 = Text.size b := by
    have slash : Char.utf8Size '/' = 1 := rfl
    have star : Char.utf8Size '*' = 1 := rfl
    rw [Text.size_cons, Text.size_cons, slash, star]
    omega
  unfold blockDoc?
  rw [found, Option.bind_eq_bind, Option.bind_some]
  dsimp only
  rw [Nat.add_sub_cancel, Text.rest_append, size]
  rfl

/-- Behind the last opener, a star and a closer hold the text of a documenting comment. -/
theorem blockDoc?_of_documenting (a : Text) (last : ¬ commentOpener <:+: c ++ commentCloser) :
    blockDoc? (a ++ '/' :: '*' :: '*' :: (c ++ commentCloser)) =
      joinDocLines? (c.lines.map starLine) := by
  rw [blockDoc?_eq a fun occurs => last (opener_infix_star_iff.1 occurs)]
  have cut : Text.slice? ('/' :: '*' :: '*' :: (c ++ commentCloser))
      ⟨3, Text.size ('*' :: (c ++ commentCloser))⟩ = some c := by
    have size : Text.size ('*' :: (c ++ commentCloser)) = 3 + Text.size c := by
      have closer : Text.size commentCloser = 2 := rfl
      have star : Char.utf8Size '*' = 1 := rfl
      rw [Text.size_cons, Text.size_append, closer, star]
      omega
    apply Text.slice?_eq_some_iff.2
    exact ⟨['/', '*', '*'], commentCloser, rfl, by rw [size]; rfl⟩
  rw [cut]
  rfl

/-- Anything else behind the last opener is no documenting comment. -/
theorem blockDoc?_of_other (a : Text) (last : ¬ commentOpener <:+: b)
    (closed : commentCloser <:+ '/' :: '*' :: b)
    (other : ∀ c, b ≠ '*' :: (c ++ commentCloser)) :
    blockDoc? (a ++ '/' :: '*' :: b) = none := by
  rw [blockDoc?_eq a last]
  split
  · next starts =>
      apply Option.bind_eq_none_iff.2
      intro inner cut
      -- Whatever could be cut out stands between a star and a closer.
      obtain ⟨rest, opened⟩ := List.isPrefixOf_iff_prefix.1 starts
      obtain rfl : '*' :: rest = b := by
        injection opened with _ opened
        injection opened with _ opened
      obtain ⟨p, s, whole, range⟩ := Text.slice?_eq_some_iff.1 cut
      obtain ⟨start, stop⟩ := Span.mk.inj range
      have whole : ['/', '*', '*'] ++ rest = p ++ (inner ++ s) := whole
      obtain ⟨rfl, rfl⟩ := Text.append_inj_of_size whole start
      obtain ⟨front, ends⟩ := closed
      have ends : front ++ commentCloser = ['/', '*', '*'] ++ inner ++ s := ends
      have size_eq : Text.size front = Text.size (['/', '*', '*'] ++ inner) := by
        have total := congrArg Text.size ends
        have opener : Text.size ['/', '*', '*'] = 3 := rfl
        have closer : Text.size commentCloser = 2 := rfl
        have star : Char.utf8Size '*' = 1 := rfl
        rw [Text.size_cons, Text.size_append, star] at stop
        rw [Text.size_append, Text.size_append, Text.size_append] at total
        rw [Text.size_append]
        omega
      obtain ⟨-, rfl⟩ := Text.append_inj_of_size ends size_eq
      exact absurd rfl (other inner)
  · rfl

end Blocks

/-! ### The comment before a header -/

/-- Whether block comments document declarations in a style. -/
def DocStyle.readsBlocks : DocStyle → Bool
  | .block | .blockOrLines _ => true
  | .none | .lines _ => false

/-- A block comment before a header is read if the style has any. -/
theorem docCommentBefore?_of_closed {t w : Text} {style : DocStyle} (rest : Text)
    (blocks : style.readsBlocks = true) (blank : ∀ x ∈ w, isBlank x = true) :
    docCommentBefore? (t ++ commentCloser ++ w ++ rest) (Text.size (t ++ commentCloser ++ w))
      style = blockDoc? (t ++ commentCloser) := by
  have trimmed : (t ++ commentCloser ++ w).trimEnd = t ++ commentCloser := by
    have split : t ++ commentCloser ++ w = (t ++ ['*']) ++ '/' :: w := by simp [commentCloser]
    rw [split, Text.trimEnd_append_blank rfl blank, List.append_assoc]
    rfl
  have closed : (t ++ commentCloser).endsWith ['*', '/'] = true := by
    simp [Text.endsWith, commentCloser]
  unfold docCommentBefore?
  rw [Text.upTo?_append, Option.bind_eq_bind, Option.bind_some]
  dsimp only
  rw [trimmed, closed]
  cases style with
  | none => cases blocks
  | lines mark => cases blocks
  | block => rfl
  | blockOrLines mark => rfl

/-- What is captured of a block comment does not depend on the text around it.  It is the whole
content if no other opener stands in it, also none that takes the star of the closer.  In general it
is what stands between the last opener, with a star behind it, and the closer, and nothing if there
is no such text. -/
theorem doc_comment_begins_at_last_opener (s : Text) :
    let comment := '/' :: '*' :: '*' :: (s ++ commentCloser)
    ∃ doc, (∀ p w rest style, DocStyle.readsBlocks style = true → (∀ x ∈ w, isBlank x = true) →
        docCommentBefore? (p ++ comment ++ w ++ rest) (Text.size (p ++ comment ++ w)) style = doc) ∧
      (¬ commentOpener <:+: s ++ ['*'] → Documents s doc) ∧
      ∃ a b, comment = a ++ commentOpener ++ b ∧ ¬ commentOpener <:+: b ∧
        (∀ c, b = '*' :: (c ++ commentCloser) → Documents c doc) ∧
        ((∀ c, b ≠ '*' :: (c ++ commentCloser)) → doc = none) := by
  intro comment
  have opened : commentOpener <:+: comment := ⟨[], '*' :: (s ++ commentCloser), rfl⟩
  obtain ⟨a, b, split, lastStar⟩ := exists_last_of_infix opened
  have last : ¬ commentOpener <:+: b := fun occurs => lastStar (opener_infix_star_iff.2 occurs)
  have split : comment = a ++ '/' :: '*' :: b := split
  have closed : commentCloser <:+ comment := ⟨'/' :: '*' :: '*' :: s, rfl⟩
  refine ⟨blockDoc? comment, ?_, ?_, a, b, ?_, last, ?_, ?_⟩
  · intro p w rest style blocks blank
    have ends : p ++ comment = p ++ ('/' :: '*' :: '*' :: s) ++ commentCloser := by
      rw [List.append_assoc]
      rfl
    have apart : p ++ comment = p ++ a ++ '/' :: '*' :: b := by
      rw [split, List.append_assoc]
    rw [ends, docCommentBefore?_of_closed rest blocks blank, ← ends, apart, blockDoc?_eq _ last,
      split, blockDoc?_eq _ last]
  · intro sole
    have captured := blockDoc?_of_documenting [] (mt opener_infix_closer_iff.1 sole)
    rw [List.nil_append] at captured
    rw [captured]
    exact joinDocLines?_joinsTo _
  · rw [split, List.append_assoc]
    rfl
  · rintro c rfl
    rw [split, blockDoc?_of_documenting a fun occurs => last (opener_infix_star_iff.2 occurs)]
    exact joinDocLines?_joinsTo _
  · intro other
    have closes : commentCloser <:+ '/' :: '*' :: b := by
      apply List.suffix_of_suffix_length_le closed
      · exact ⟨a, split.symm⟩
      · exact Nat.le_add_left 2 b.length
    rw [split]
    exact blockDoc?_of_other a last closes other

/-- A comment with paragraphs, behind another comment with an opener in it. -/
theorem paragraphs_are_captured :
    let s : Text := "\n * Adds numbers. **\n *\n * @param a first\n ".toList
    let before : Text :=
      "/* a /** b */ ".toList ++ ('/' :: '*' :: '*' :: (s ++ commentCloser)) ++ "\n  ".toList
    let doc := docCommentBefore? (before ++ "int add()".toList) (Text.size before) .block
    doc = some "Adds numbers. **\n\n@param a first".toList ∧ Documents s doc := by
  intro s before doc
  refine ⟨by decide +kernel, ?_⟩
  obtain ⟨doc', captured, whole, -⟩ := doc_comment_begins_at_last_opener s
  have blank : ∀ x ∈ "\n  ".toList, isBlank x = true := List.all_eq_true.1 (by decide)
  have sole : ¬ commentOpener <:+: s ++ ['*'] := by decide +kernel
  have same : doc = doc' := captured _ _ _ _ rfl blank
  rw [same]
  exact whole sole

/-- A pattern of file names in a comment looks like an opener, and all of the comment is lost. -/
theorem opener_in_comment_hides_it :
    let s : Text := " Lists src/*.java files. ".toList
    let comment := "/**".toList ++ s ++ "*/".toList
    ¬ commentCloser <:+: '*' :: (s ++ ['*']) ∧
      docCommentBefore? (comment ++ "\nvoid f()".toList) (Text.size comment + 1) .block = none ∧
      joinDocLines? (s.lines.map starLine) = some "Lists src/*.java files.".toList := by
  decide +kernel

end CallAtlas
