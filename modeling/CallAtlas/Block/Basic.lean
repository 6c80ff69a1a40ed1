/-
Module: CallAtlas.Block.Basic
Purpose: A delimited block of a text.
Main definitions: Block
-/
import CallAtlas.Text.Basic

namespace CallAtlas

/-- A delimited block, by byte offsets of the text that holds it. -/
structure Block where
  /-- Where the opening delimiter starts. -/
  opening : Nat
  /-- One past the opening delimiter. -/
  bodyStart : Nat
  /-- Where the closing delimiter starts. -/
  close : Nat
  /-- One past the closing delimiter. -/
  stop : Nat
  /-- The text between the delimiters. -/
  body : Text
deriving Repr, DecidableEq, Inhabited

/-- The byte range of the body. -/
def Block.bodySpan (b : Block) : Span := ⟨b.bodyStart, b.close⟩

end CallAtlas
