/-
Module: CallAtlas.Proofs.CheckedHeaders
Purpose: The texts around the name of a declaration, read with checked cuts: the parameters, which
  are cut at their commas, defaults and modifiers, the decorators, and the comment that documents
  the declaration.  The offsets of all these cuts are found in the very text that is cut, so none of
  them fails, whatever the text is.
Main definitions: Checked.splitTopLevel, Checked.parameterNames, Checked.decoratorsIn,
  Checked.docCommentBefore
Main results: Checked.parameterNames_eq, Checked.decoratorsIn_eq, Checked.docCommentBefore_eq
-/
import Mathlib.Data.List.Infix
import CallAtlas.Proofs.CheckedCuts
import CallAtlas.Proofs.DocComments
import CallAtlas.Proofs.ParameterParts
import CallAtlas.Scan.Declaration

namespace CallAtlas.Checked

/-! ### Parameters -/

/-- The pieces between the commas at depth zero.  The current piece starts at `start`, and what is
left of the text at `offset`. -/
def splitFrom (whole : Text) (depth start offset : Nat) : Text → Checked (List Text)
  | [] => do
    let piece ← whole.cut ⟨start, whole.size⟩
    return [piece]
  | c :: t =>
    if c == ',' && depth = 0 then do
      let piece ← whole.cut ⟨start, offset⟩
      return piece :: (← splitFrom whole 0 (offset + 1) (offset + c.utf8Size) t)
    else
      let depth' := if opensGroup c then depth + 1 else if closesGroup c then depth - 1 else depth
      splitFrom whole depth' start (offset + c.utf8Size) t

/-- The parts between the commas outside brackets. -/
def splitTopLevel (t : Text) : Checked (List Text) := do
  let pieces ← splitFrom t 0 0 0 t
  return (pieces.map Text.trim).filter fun part => !part.isEmpty

/-- The text before the first `=` outside brackets.  What is left of the text starts at `offset`. -/
def beforeDefault (whole : Text) (depth offset : Nat) : Text → Checked Text
  | [] => return whole
  | c :: t =>
    if c == '=' && depth = 0 && t.head? != some '>' then whole.cut ⟨0, offset⟩
    else
      let depth' := if opensGroup c then depth + 1 else if closesGroup c then depth - 1 else depth
      beforeDefault whole depth' (offset + c.utf8Size) t

/-- A parameter without its default value. -/
def withoutDefault (parameter : Text) : Checked Text := do
  return (← beforeDefault parameter 0 0 parameter).trim

/-- The name in a parameter whose type comes first. -/
def nameAfterType (parameter : Text) : OptionT Checked String := do
  let cleaned ← withoutDefault (annotationOrAttribute.replaceAll [' '] parameter)
  let last ← ofOption
    (cleaned.words.filter fun w => !typedModifiers.contains (String.ofList w)).getLast?
  ofOption
    (nonEmpty? (Text.dropRepeatedEnd ['[', ']'] (Text.dropRepeated ['.', '.', '.'] last)))

/-- A parameter without the modifiers at its front.  The first word stands behind the blanks. -/
def withoutModifiers : Text → Text → OptionT Checked Text
  | fuel, t =>
    match t.words with
    | [] => ofOption none
    | w :: _ =>
      if namedModifiers.contains (String.ofList w) then
        match fuel with
        | [] => ofOption none
        | _ :: fuel => do
          let rest ← t.cut ⟨Text.size (t.takeWhile isBlank) + Text.size w, t.size⟩
          withoutModifiers fuel rest.trimStart
      else ofOption (some t)

/-- The text up to and with the last occurrence of a character; all of it if there is none. -/
def throughLast (c : Char) (t : Text) : Checked Text :=
  t.cut ⟨0, (Text.afterLast? [c] 0 t).getD t.size⟩

/-- The name in a parameter whose type comes last. -/
def nameBeforeType (parameter : Text) : OptionT Checked String := do
  let cleaned ← withoutDefault (annotationTag.replaceAll [' '] parameter)
  let t ← withoutModifiers cleaned cleaned
  if t.head? = some '{' then return String.ofList (← throughLast '}' t).collapse
  else if t.head? = some '[' then return String.ofList (← throughLast ']' t).collapse
  else
    let token ← ofOption t.words.head?
    let front := token.takeWhile (· != ':')
    ofOption (nonEmpty? (Text.dropRepeatedEnd ['?'] (Text.dropRepeated ['.', '.', '.'] front)))

/-- The names in a list of parameters, in order. -/
def parameterNames (style : ParameterStyle) (t : Text) : Checked (List String) :=
  match style with
  | .typeFirst => do collect nameAfterType (← splitTopLevel t)
  | .nameFirst => do collect nameBeforeType (← splitTopLevel t)
  | .sections => return sectionNames false t.words

/-- Pieces are cut where the plain split ends them: what was passed of the current one belongs to
the first piece of what is left. -/
theorem splitFrom_eq (depth : Nat) (front piece t : Text) :
    splitFrom (front ++ (piece ++ t)) depth front.size (front.size + piece.size) t =
      .ok ((splitAtDepth depth t).modifyHead (piece ++ ·)) := by
  induction t generalizing depth front piece with
  | nil =>
      rw [splitFrom, splitAtDepth, List.append_nil, Text.cut_back]
      simp [bind, Except.bind, pure, Except.pure]
  | cons c t ih =>
      rw [splitFrom, splitAtDepth]
      split
      · next comma =>
          obtain ⟨rfl, _⟩ : c = ',' ∧ depth = 0 := by simpa using comma
          have further := ih 0 (front ++ (piece ++ [','])) []
          simp only [List.append_assoc, List.singleton_append, List.nil_append, Text.size_append,
            Text.size_cons, Text.size_nil, Nat.add_zero, ← Nat.add_assoc] at further
          rw [Text.cut_append]
          simp only [bind, Except.bind]
          rw [show ','.utf8Size = 1 from rfl] at further ⊢
          rw [further]
          cases splitAtDepth 0 t with
          | nil => simp [pure, Except.pure]
          | cons next pieces => simp [pure, Except.pure]
      · next goesOn =>
          generalize (if opensGroup c then depth + 1
            else if closesGroup c then depth - 1 else depth) = depth'
          have further := ih depth' front (piece ++ [c])
          simp only [List.append_assoc, List.singleton_append, Text.size_append,
            Text.size_cons, Text.size_nil, Nat.add_zero, ← Nat.add_assoc] at further
          dsimp only
          rw [further]
          cases pieces : splitAtDepth depth' t with
          | nil => exact absurd pieces (splitAtDepth_ne_nil depth' t)
          | cons next pieces => simp

theorem splitTopLevel_eq (t : Text) : splitTopLevel t = .ok (CallAtlas.splitTopLevel t) := by
  have pieces := splitFrom_eq 0 [] [] t
  simp only [List.nil_append, Text.size_nil, Nat.add_zero] at pieces
  rw [splitTopLevel, pieces]
  cases split : splitAtDepth 0 t with
  | nil => exact absurd split (splitAtDepth_ne_nil 0 t)
  | cons piece more =>
      rw [CallAtlas.splitTopLevel, split]
      rfl

theorem beforeDefault_eq (depth : Nat) (front t : Text) :
    beforeDefault (front ++ t) depth front.size t =
      .ok (front ++ CallAtlas.beforeDefault depth t) := by
  induction t generalizing depth front with
  | nil => rfl
  | cons c t ih =>
      rw [beforeDefault, CallAtlas.beforeDefault]
      split
      · rw [Text.cut_front, List.append_nil]
      · generalize (if opensGroup c then depth + 1
          else if closesGroup c then depth - 1 else depth) = depth'
        have further := ih depth' (front ++ [c])
        simp only [List.append_assoc, List.singleton_append, Text.size_append, Text.size_cons,
          Text.size_nil, Nat.add_zero] at further
        exact further

theorem withoutDefault_eq (parameter : Text) :
    withoutDefault parameter = .ok (CallAtlas.withoutDefault parameter) := by
  have cut := beforeDefault_eq 0 [] parameter
  rw [List.nil_append, Text.size_nil, List.nil_append] at cut
  rw [withoutDefault, cut]
  rfl

theorem nameAfterType_eq (parameter : Text) :
    nameAfterType parameter = ofOption (nameAfterType? parameter) := by
  rw [nameAfterType, withoutDefault_eq, lift_ok, ofOption_some_bind, ofOption_bind]
  rfl

/-- The first word of a text stands behind the blanks that the text starts with. -/
theorem exists_split_of_words {t w : Text} {more : List Text} (words : t.words = w :: more) :
    ∃ s, t = t.takeWhile isBlank ++ (w ++ s) := by
  induction t with
  | nil => cases words
  | cons c t ih =>
      cases blank : isBlank c with
      | true =>
          have skipped : Text.words (c :: t) = Text.words t := Text.words_append_blank blank [] t
          rw [skipped] at words
          obtain ⟨s, split⟩ := ih words
          refine ⟨s, ?_⟩
          rw [List.takeWhile_cons_of_pos blank, List.cons_append, ← split]
      | false =>
          obtain ⟨v, s, rfl, _, first⟩ := Text.exists_first_word (t := t) blank
          obtain ⟨rfl, _⟩ := List.cons.inj (first.symm.trans words)
          refine ⟨s, ?_⟩
          rw [List.takeWhile_cons_of_neg (by simp [blank])]
          rfl

theorem withoutModifiers_eq (fuel t : Text) :
    withoutModifiers fuel t = ofOption (withoutModifiers? fuel t) := by
  induction fuel generalizing t with
  | nil =>
      rw [withoutModifiers, withoutModifiers?]
      cases t.words with
      | nil => rfl
      | cons w more => exact ofOption_ite _ none (some t)
  | cons x fuel ih =>
      rw [withoutModifiers, withoutModifiers?]
      cases words : t.words with
      | nil => rfl
      | cons w more =>
          obtain ⟨s, split⟩ := exists_split_of_words words
          have trimmed : t.trimStart = w ++ s := by
            apply List.append_cancel_left
            rw [Text.trimStart, ← split]
            exact List.takeWhile_append_dropWhile
          have cut := Text.cut_back (t.takeWhile isBlank ++ w) s
          rw [List.append_assoc, ← split, Text.size_append] at cut
          dsimp only
          rw [cut, lift_ok, ofOption_some_bind, ih, ofOption_ite, trimmed, List.drop_left]

theorem throughLast_eq (c : Char) (t : Text) :
    throughLast c t = .ok (CallAtlas.throughLast c t) := by
  rw [throughLast, CallAtlas.throughLast]
  by_cases occurs : [c] <:+: t
  · obtain ⟨a, b, rfl, last⟩ := exists_last_of_infix occurs
    have absent : c ∉ b := fun listed => last ((List.singleton_infix_iff c b).2 listed)
    have kept : (a ++ c :: b).reverse.dropWhile (· != c) = c :: a.reverse := by
      rw [List.reverse_append, List.reverse_cons, List.append_assoc, List.singleton_append,
        List.dropWhile_append_of_pos, List.dropWhile_cons_of_neg (by simp)]
      intro x listed
      simpa using ne_of_mem_of_not_mem (List.mem_reverse.1 listed) absent
    have cut := Text.cut_front (a ++ [c]) b
    rw [List.append_assoc, List.singleton_append] at cut
    rw [Text.afterLast?_of_last a last, Option.getD_some, Nat.zero_add, List.nil_append, kept, cut]
    dsimp only
    rw [List.reverse_cons, List.reverse_reverse]
  · have absent : c ∉ t := fun listed => occurs ((List.singleton_infix_iff c t).2 listed)
    have dropped : t.reverse.dropWhile (· != c) = [] := by
      rw [List.dropWhile_eq_nil_iff]
      intro x listed
      simpa using ne_of_mem_of_not_mem (List.mem_reverse.1 listed) absent
    have cut := Text.cut_front t []
    rw [List.append_nil] at cut
    rw [Text.afterLast?_eq_none occurs, Option.getD_none, dropped, cut]

theorem nameBeforeType_eq (parameter : Text) :
    nameBeforeType parameter = ofOption (nameBeforeType? parameter) := by
  rw [nameBeforeType, withoutDefault_eq, lift_ok, ofOption_some_bind, withoutModifiers_eq,
    nameBeforeType?]
  dsimp only
  cases withoutModifiers? (CallAtlas.withoutDefault (annotationTag.replaceAll [' '] parameter))
      (CallAtlas.withoutDefault (annotationTag.replaceAll [' '] parameter)) with
  | none => rfl
  | some t =>
      rw [ofOption_some_bind, Option.bind_eq_bind, Option.bind_some]
      by_cases brace : t.head? = some '{'
      · obtain ⟨s, rfl⟩ := List.head?_eq_some_iff.1 brace
        rw [if_pos brace, throughLast_eq]
        rfl
      rw [if_neg brace]
      by_cases bracket : t.head? = some '['
      · obtain ⟨s, rfl⟩ := List.head?_eq_some_iff.1 bracket
        rw [if_pos bracket, throughLast_eq]
        rfl
      rw [if_neg bracket]
      split
      · exact absurd rfl brace
      · exact absurd rfl bracket
      · exact ofOption_bind _ _

theorem parameterNames_eq (style : ParameterStyle) (t : Text) :
    parameterNames style t = .ok (style.names t) := by
  cases style with
  | typeFirst =>
      rw [parameterNames, splitTopLevel_eq]
      exact collect_eq fun part _ => nameAfterType_eq part
  | nameFirst =>
      rw [parameterNames, splitTopLevel_eq]
      exact collect_eq fun part _ => nameBeforeType_eq part
  | sections => rfl

/-! ### Decorators -/

/-- The decorators in a text, each on one line. -/
def decoratorsIn (g : Grammar) (t : Text) : Checked (List String) :=
  match g.decorator with
  | none => return []
  | some pattern => do
    let items ← collect (fun m => group m t .item) (pattern.findAll t)
    let parts ← flatMap splitTopLevel items
    return parts.map fun d => String.ofList d.collapse

theorem decoratorsIn_eq (g : Grammar) (t : Text) :
    decoratorsIn g t = .ok (CallAtlas.decoratorsIn g t) := by
  rw [decoratorsIn, CallAtlas.decoratorsIn]
  cases g.decorator with
  | none => rfl
  | some pattern =>
      have items : collect (fun m => group m t .item) (pattern.findAll t) =
          .ok ((pattern.findAll t).filterMap fun m => (m.group? .item).map t.slice) :=
        collect_eq fun m searched => group_eq (Pattern.mem_findAll searched) .item
      dsimp only
      rw [items]
      simp only [bind, Except.bind]
      rw [flatMap_eq fun item _ => splitTopLevel_eq item]
      rfl

/-! ### Doc comments -/

/-- Lines without the empty ones at either end: from the first one that is filled to the last. -/
def joinDocLines (lines : List Text) : OptionT Checked Text := do
  let first ← ofOption (lines.findIdx? fun line => !line.isEmpty)
  let behind ← ofOption (lines.reverse.findIdx? fun line => !line.isEmpty)
  let stop ← subtract lines.length behind
  let kept ← slice lines ⟨first, stop⟩
  return Text.join ['\n'] kept

/-- The text of a block comment that ends a text. -/
def blockDoc (before : Text) : OptionT Checked Text := do
  let inside ← ofOption (Text.afterLast? ['/', '*'] 0 before)
  let opening ← subtract inside 2
  let comment ← before.cut ⟨opening, before.size⟩
  if "/**".toList.isPrefixOf comment then
    let inner ← ofOption (comment.slice? ⟨3, comment.size - 2⟩)
    joinDocLines (inner.lines.map starLine)
  else ofOption none

/-- The lines with a given start that end a text, without that start. -/
def docLines (start : Text) (before : Text) : Checked (List Text) := do
  let tail := (before.lines.reverse.map Text.trim).takeWhile fun l => start.isPrefixOf l
  let cut ← tail.mapM fun l => Text.cut l ⟨start.size, Text.size l⟩
  return (cut.map Text.trim).reverse

/-- The text of the documenting lines that end a text. -/
def lineDoc (start : Text) (before : Text) : OptionT Checked Text := do
  let joined ← joinDocLines (← docLines start before)
  if start = "///".toList then
    joinDocLines ((markupTag.replaceAll [] joined).lines.map Text.trim)
  else return joined

/-- The comment that documents the declaration whose header starts at a byte offset. -/
def docCommentBefore (t : Text) (start : Nat) (style : DocStyle) : OptionT Checked Text := do
  let front ← ofOption (t.upTo? start)
  let before := front.trimEnd
  let closed := before.endsWith ['*', '/']
  match style with
  | .none => ofOption none
  | .block => if closed then blockDoc before else ofOption none
  | .lines mark => lineDoc mark.toList before
  | .blockOrLines mark => if closed then blockDoc before else lineDoc mark.toList before

/-- The first filled line stands behind the empty ones. -/
theorem findIdx?_filled {front rest : List Text} (empty : ∀ line ∈ front, line = [])
    (filled : rest ≠ []) (first : rest.head? ≠ some []) :
    (front ++ rest).findIdx? (fun line => !line.isEmpty) = some front.length := by
  have unfilled : front.findIdx? (fun line => !line.isEmpty) = none := by
    rw [List.findIdx?_eq_none_iff]
    intro line listed
    simp [empty line listed]
  obtain ⟨line, more, rfl⟩ := List.exists_cons_of_ne_nil filled
  have isFilled : line ≠ [] := fun isEmpty => first (congrArg some isEmpty)
  rw [List.findIdx?_append, unfilled, List.findIdx?_cons, if_pos (by simpa using isFilled)]
  simp

theorem joinDocLines_eq (lines : List Text) :
    joinDocLines lines = ofOption (joinDocLines? lines) := by
  rw [joinDocLines]
  have joins := joinDocLines?_joinsTo lines
  generalize joinDocLines? lines = joined at joins ⊢
  cases joins with
  | nothing empty =>
      have unfilled : lines.findIdx? (fun line => !line.isEmpty) = none := by
        rw [List.findIdx?_eq_none_iff]
        intro line listed
        simp [empty line listed]
      rw [unfilled]
      rfl
  | @text front kept back split emptyFront emptyBack filled first last =>
      obtain rfl : lines = front ++ (kept ++ back) := by rw [split, List.append_assoc]
      have isFirst : (front ++ (kept ++ back)).findIdx? (fun line => !line.isEmpty) =
          some front.length := by
        refine findIdx?_filled emptyFront (List.append_ne_nil_of_left_ne_nil filled _) ?_
        rwa [List.head?_append_of_ne_nil _ filled]
      have isLast : (front ++ (kept ++ back)).reverse.findIdx? (fun line => !line.isEmpty) =
          some back.length := by
        rw [List.reverse_append, List.reverse_append, List.append_assoc, ← List.length_reverse]
        refine findIdx?_filled (by simpa using emptyBack) (by simp [filled]) ?_
        rwa [List.head?_append_of_ne_nil _ (by simpa using filled), List.head?_reverse]
      have stop : (front ++ (kept ++ back)).length - back.length = front.length + kept.length := by
        simp only [List.length_append]
        omega
      rw [isFirst, isLast, ofOption_some_bind, ofOption_some_bind,
        subtract_eq (by simp only [List.length_append]; omega), lift_ok, ofOption_some_bind, stop,
        slice_middle]
      rfl

/-- The last occurrence of a piece is a part of the text. -/
theorem split_of_afterLast? {piece t : Text} {offset n : Nat}
    (found : Text.afterLast? piece offset t = some n) :
    ∃ a b, t = a ++ (piece ++ b) ∧ n = offset + Text.size a + Text.size piece := by
  induction t generalizing offset with
  | nil => cases found
  | cons c t ih =>
      rw [Text.afterLast?] at found
      split at found
      · next later =>
          obtain rfl := Option.some.inj found
          obtain ⟨a, b, rfl, place⟩ := ih later
          exact ⟨c :: a, b, rfl, by rw [place, Text.size_cons, Nat.add_assoc offset]⟩
      · split at found
        · next here =>
            obtain ⟨b, split⟩ := List.isPrefixOf_iff_prefix.1 here
            obtain rfl := Option.some.inj found
            exact ⟨[], b, split.symm, rfl⟩
        · cases found

theorem blockDoc_eq (before : Text) : blockDoc before = ofOption (blockDoc? before) := by
  rw [blockDoc, blockDoc?]
  cases found : Text.afterLast? ['/', '*'] 0 before with
  | none => rfl
  | some inside =>
      obtain ⟨a, b, rfl, place⟩ := split_of_afterLast? found
      have opening : inside - 2 = Text.size a := by
        rw [place, show Text.size ['/', '*'] = 2 from rfl, Nat.zero_add, Nat.add_sub_cancel]
      have late : 2 ≤ inside := by
        rw [place]
        exact Nat.le_add_left 2 _
      rw [ofOption_some_bind, subtract_eq late, lift_ok, ofOption_some_bind, opening, Text.cut_back,
        lift_ok, ofOption_some_bind, Option.bind_eq_bind, Option.bind_some, opening,
        Text.rest_append]
      simp only [joinDocLines_eq, ofOption_bind, ofOption_ite]
      rfl

theorem docLines_eq (start before : Text) :
    docLines start before = .ok (CallAtlas.docLines start before) := by
  have cut : ((before.lines.reverse.map Text.trim).takeWhile fun l => start.isPrefixOf l).mapM
      (fun l => Text.cut l ⟨start.size, Text.size l⟩) =
        .ok (((before.lines.reverse.map Text.trim).takeWhile fun l => start.isPrefixOf l).map
          fun l => l.drop start.length) := by
    apply mapM_eq
    intro l listed
    obtain ⟨s, rfl⟩ := List.isPrefixOf_iff_prefix.1 (List.mem_takeWhile_imp listed)
    rw [List.drop_left]
    exact Text.cut_back start s
  rw [docLines, cut, CallAtlas.docLines]
  simp only [bind, Except.bind, List.map_map]
  rfl

theorem lineDoc_eq (start before : Text) :
    lineDoc start before = ofOption (lineDoc? start before) := by
  rw [lineDoc, docLines_eq, lift_ok, ofOption_some_bind, joinDocLines_eq, lineDoc?]
  simp only [joinDocLines_eq, pure_eq, ofOption_ite]
  exact ofOption_bind _ _

theorem docCommentBefore_eq (t : Text) (start : Nat) (style : DocStyle) :
    docCommentBefore t start style = ofOption (docCommentBefore? t start style) := by
  rw [docCommentBefore, docCommentBefore?]
  simp only [blockDoc_eq, lineDoc_eq, ofOption_ite]
  cases style with
  | none => exact ofOption_bind _ fun _ => none
  | block => exact ofOption_bind _ _
  | lines mark => exact ofOption_bind _ _
  | blockOrLines mark => exact ofOption_bind _ _

end CallAtlas.Checked
