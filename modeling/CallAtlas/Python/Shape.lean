/-
Module: CallAtlas.Python.Shape
Purpose: Tokens grouped by their brackets, and the lines they make.
Main definitions: Shape, shapesOf, Line, linesOf
-/
import CallAtlas.Python.Token

namespace CallAtlas.Python

/-- A token, or what stands between an opening and a closing token. -/
inductive Shape where
  | leaf (token : Token)
  | group (bracket : Bracket) (span : Span) (items : List Shape)
deriving Repr, Inhabited

namespace Shape

/-- The byte range of a shape. -/
def span : Shape → Span
  | leaf token => token.span
  | group _ span _ => span

/-- Whether a shape is a given word. -/
def isWord (s : Shape) (word : String) : Bool :=
  match s with
  | leaf token => token.kind == .word && token.text == word.toList
  | group .. => false

/-- Whether a shape is a given symbol. -/
def isSymbol (s : Shape) (symbol : String) : Bool :=
  match s with
  | leaf token => token.kind == .symbol && token.text == symbol.toList
  | group .. => false

/-- Whether a shape is a string literal. -/
def isString (s : Shape) : Bool :=
  match s with
  | group .quote _ _ => true
  | _ => false

end Shape

/-- The byte range from the first to the last of several shapes. -/
def spanOf (shapes : List Shape) : Option Span := do
  let first ← shapes.head?
  let last ← shapes.getLast?
  return ⟨first.span.start, last.span.stop⟩

/-- Something that was opened and not yet closed, with its items so far, the last one first. -/
structure OpenGroup where
  bracket : Bracket
  start : Nat
  items : List Shape
deriving Repr, Inhabited

/-- Groups tokens by their brackets.  `items` are the shapes so far at the innermost open level, the
last one first.  What is never closed ends with the text; what closes nothing is passed over. -/
def groupTokens (stop : Nat) : List Token → List OpenGroup → List Shape → List Shape
  | [], [], items => items.reverse
  | [], outer :: more, items =>
    groupTokens stop [] more (.group outer.bracket ⟨outer.start, stop⟩ items.reverse :: outer.items)
  | token :: tokens, frames, items =>
    match token.kind, frames with
    | .opening bracket, _ =>
      groupTokens stop tokens (⟨bracket, token.span.start, items⟩ :: frames) []
    | .closing, outer :: more =>
      groupTokens stop tokens more
        (.group outer.bracket ⟨outer.start, token.span.stop⟩ items.reverse :: outer.items)
    | .closing, [] => groupTokens stop tokens [] items
    | _, _ => groupTokens stop tokens frames (.leaf token :: items)
termination_by tokens frames => (tokens.length, frames.length)

/-- The shapes of a text. -/
def shapesOf (t : Text) : List Shape := groupTokens t.size (tokenize t) [] []

/-- A logical line: its indentation, its shapes, and the comment that ends it. -/
structure Line where
  indent : Nat
  shapes : List Shape
  comment : Option Span
deriving Repr, Inhabited

namespace Line

/-- Whether the line holds nothing but a comment. -/
def isComment (l : Line) : Bool := l.shapes.isEmpty

/-- The line, unless it is blank. -/
def nonBlank (l : Line) : List Line := if l.shapes.isEmpty && l.comment.isNone then [] else [l]

end Line

/-- The logical lines of a list of shapes.  `line` is the line so far, its last shape first. -/
def linesFrom (line : Line) : List Shape → List Line
  | [] => { line with shapes := line.shapes.reverse }.nonBlank
  | s :: more =>
    match s with
    | .leaf token =>
      match token.kind with
      | .lineBreak indent =>
        { line with shapes := line.shapes.reverse }.nonBlank ++ linesFrom ⟨indent, [], none⟩ more
      | .comment => linesFrom { line with comment := some token.span } more
      | _ => linesFrom { line with shapes := s :: line.shapes } more
    | .group .. => linesFrom { line with shapes := s :: line.shapes } more

/-- The logical lines of a text, blank ones left out. -/
def linesOf (t : Text) : List Line := linesFrom ⟨0, [], none⟩ (shapesOf t)

end CallAtlas.Python
