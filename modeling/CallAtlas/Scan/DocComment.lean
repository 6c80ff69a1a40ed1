/-
Module: CallAtlas.Scan.DocComment
Purpose: The comment that documents a declaration.
Main definitions: joinDocLines?, docCommentBefore?
-/
import CallAtlas.Pattern.Search
import CallAtlas.Pattern.Vocabulary
import CallAtlas.Scan.Grammar
import CallAtlas.Text.Words

namespace CallAtlas

open Pattern in
/-- A markup tag, opening or closing. -/
def markupTag : Pattern :=
  char '<' ++ (char '/').opt ++ word.plus ++ (noneOf ">").star ++ char '>'

/-- Lines without the empty ones at either end; none if all are empty. -/
def joinDocLines? (lines : List Text) : Option Text :=
  let front := lines.dropWhile (·.isEmpty)
  let kept := (front.reverse.dropWhile (·.isEmpty)).reverse
  if kept.isEmpty then none else some (Text.join ['\n'] kept)

/-- A line of a block comment without the stars at its front. -/
def starLine (line : Text) : Text := Text.trim (line.trim.dropWhile (· == '*'))

/-- The text of a block comment that ends a text, if it is a documenting one. -/
def blockDoc? (before : Text) : Option Text := do
  let inside ← Text.afterLast? ['/', '*'] 0 before
  let comment := before.rest (inside - 2)
  if "/**".toList.isPrefixOf comment then
    -- `/**/` opens and closes with the same star, so nothing can be cut out of it.
    let inner ← comment.slice? ⟨3, comment.size - 2⟩
    joinDocLines? (inner.lines.map starLine)
  else none

/-- The lines with a given start that end a text, without that start. -/
def docLines (start : Text) (before : Text) : List Text :=
  let tail := (before.lines.reverse.map Text.trim).takeWhile fun l => start.isPrefixOf l
  (tail.map fun l => Text.trim (l.drop start.length)).reverse

/-- The text of the documenting lines that end a text.  Markup tags are taken out of `///` lines. -/
def lineDoc? (start : Text) (before : Text) : Option Text := do
  let joined ← joinDocLines? (docLines start before)
  if start = "///".toList then
    joinDocLines? ((markupTag.replaceAll [] joined).lines.map Text.trim)
  else some joined

/-- The comment that documents the declaration whose header starts at a byte offset. -/
def docCommentBefore? (t : Text) (start : Nat) (style : DocStyle) : Option Text := do
  let before := (← t.upTo? start).trimEnd
  let closed := before.endsWith ['*', '/']
  match style with
  | .none => none
  | .block => if closed then blockDoc? before else none
  | .lines mark => lineDoc? mark.toList before
  | .blockOrLines mark => if closed then blockDoc? before else lineDoc? mark.toList before

end CallAtlas
