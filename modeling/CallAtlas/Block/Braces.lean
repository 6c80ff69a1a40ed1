/-
Module: CallAtlas.Block.Braces
Purpose: Blocks between two delimiter characters.
Main definitions: Block.braced?, expressionEnd, statementEnd
-/
import CallAtlas.Block.Basic

namespace CallAtlas

/-!
The scan counts delimiters and knows nothing of quoting, so it is meant for a view in which comments
and strings are blank.
-/

/-- Byte offset and following text of the first `opening` at or after offset `start`. -/
def openingFrom? (opening : Char) (start offset : Nat) : Text → Option (Nat × Text)
  | [] => none
  | c :: t =>
    if start ≤ offset && c == opening then some (offset, t)
    else openingFrom? opening start (offset + c.utf8Size) t

/-- Byte offset of the `closing` that brings the nesting depth down to zero.  With equal delimiters
the depth only grows. -/
def closingFrom? (opening closing : Char) (depth offset : Nat) : Text → Option Nat
  | [] => none
  | c :: t =>
    if c == opening then closingFrom? opening closing (depth + 1) (offset + c.utf8Size) t
    else if c == closing then
      if depth ≤ 1 then some offset
      else closingFrom? opening closing (depth - 1) (offset + c.utf8Size) t
    else closingFrom? opening closing depth (offset + c.utf8Size) t

/-- The block of the first `opening` at or after byte offset `start`.  There is none if nothing
opens there or what opens is never closed. -/
def Block.braced? (t : Text) (start : Nat) (opening closing : Char) : Option Block := do
  let (openAt, inner) ← openingFrom? opening start 0 t
  let bodyStart := openAt + opening.utf8Size
  let close ← closingFrom? opening closing 1 bodyStart inner
  let body ← inner.upTo? (close - bodyStart)
  return ⟨openAt, bodyStart, close, close + closing.utf8Size, body⟩

/-- Whether a character opens a bracket of any kind. -/
def isOpening (c : Char) : Bool := c == '(' || c == '[' || c == '{'

/-- Whether a character closes a bracket of any kind. -/
def isClosing (c : Char) : Bool := c == ')' || c == ']' || c == '}'

/-- End of the statement that starts at `offset`, whose text is given: just after the first `;`
outside brackets, or at the bracket that closes what surrounds it, or at the end of the text.  If
`lineEnds`, a line feed outside brackets ends it as well. -/
def statementEndFrom (lineEnds : Bool) (depth offset : Nat) : Text → Nat
  | [] => offset
  | c :: t =>
    if isOpening c then statementEndFrom lineEnds (depth + 1) (offset + c.utf8Size) t
    else if isClosing c then
      if depth = 0 then offset else statementEndFrom lineEnds (depth - 1) (offset + c.utf8Size) t
    else if c == ';' && depth = 0 then offset + 1
    else if lineEnds && c == '\n' && depth = 0 then offset
    else statementEndFrom lineEnds depth (offset + c.utf8Size) t

/-- End of the statement that starts at a byte offset. -/
def statementEnd (t : Text) (start : Nat) : Nat :=
  statementEndFrom false 0 start (t.rest start)

/-- End of the expression that starts at a byte offset: a line feed ends it, too. -/
def expressionEnd (t : Text) (start : Nat) : Nat :=
  statementEndFrom true 0 start (t.rest start)

end CallAtlas
