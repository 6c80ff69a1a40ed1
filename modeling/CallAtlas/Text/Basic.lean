/-
Module: CallAtlas.Text.Basic
Purpose: Texts as lists of characters, measured and cut by UTF-8 byte offsets.
Main definitions: Text, Text.size, Text.from?, Text.upTo?, Text.slice?, Span
-/

namespace CallAtlas

/-!
Every view of a source file (the file itself, the file with its comments blanked, the body of one
declaration) is a list of characters.  Positions are byte offsets into the UTF-8 form, because that
is what stays the same between the views: blanking turns a character of `n` bytes into `n` spaces.
A cut is therefore partial.  It fails beyond the end and inside a character.
-/

/-- A text is the list of its characters. -/
abbrev Text := List Char

/-- A range of byte offsets: `start` belongs to it, `stop` does not. -/
structure Span where
  start : Nat
  stop : Nat
deriving Repr, DecidableEq, Inhabited

namespace Span

/-- Whether a byte offset lies in the range. -/
def contains (s : Span) (offset : Nat) : Bool :=
  s.start ≤ offset && offset < s.stop

end Span

namespace Text

/-- Number of bytes of the UTF-8 form. -/
def size : Text → Nat
  | [] => 0
  | c :: t => c.utf8Size + size t

/-- The text from a byte offset on. -/
def from? : Nat → Text → Option Text
  | 0, t => some t
  | _ + 1, [] => none
  | n + 1, c :: t => if c.utf8Size ≤ n + 1 then from? (n + 1 - c.utf8Size) t else none

/-- The text before a byte offset. -/
def upTo? : Nat → Text → Option Text
  | 0, _ => some []
  | _ + 1, [] => none
  | n + 1, c :: t =>
    if c.utf8Size ≤ n + 1 then (upTo? (n + 1 - c.utf8Size) t).map (c :: ·) else none

/-- The text of a byte range.  Both ends have to be character boundaries, in order. -/
def slice? (t : Text) (s : Span) : Option Text :=
  if s.start ≤ s.stop then (t.from? s.start).bind (upTo? (s.stop - s.start)) else none

/-- The text of a byte range, empty where the range cannot be cut. -/
def slice (t : Text) (s : Span) : Text :=
  (t.slice? s).getD []

/-- The text from a byte offset on, empty where it cannot be cut. -/
def rest (t : Text) (offset : Nat) : Text :=
  (t.from? offset).getD []

/-- The characters that start before a byte offset. -/
def startingBefore : Text → Nat → Text
  | [], _ => []
  | _ :: _, 0 => []
  | c :: t, n + 1 => c :: startingBefore t (n + 1 - c.utf8Size)

/-- Byte offset of the first character that satisfies `p`. -/
def offsetOf? (p : Char → Bool) : Text → Option Nat
  | [] => none
  | c :: t => if p c then some 0 else (offsetOf? p t).map (c.utf8Size + ·)

/-- Byte offset just after the last occurrence of a non-empty piece, counted from `offset`. -/
def afterLast? (piece : Text) (offset : Nat) : Text → Option Nat
  | [] => none
  | c :: t =>
    match afterLast? piece (offset + c.utf8Size) t with
    | some n => some n
    | none => if piece.isPrefixOf (c :: t) then some (offset + size piece) else none

/-- The piece removed from the front, as often as it stands there.  An empty piece removes nothing. -/
def dropRepeated (piece : Text) : Text → Text
  | [] => []
  | c :: t =>
    if piece.isEmpty then c :: t
    else if piece.isPrefixOf (c :: t) then dropRepeated piece (t.drop (piece.length - 1))
    else c :: t
termination_by t => t.length
decreasing_by
  simp only [List.length_drop, List.length_cons]
  omega

/-- The piece removed from the end, as often as it stands there. -/
def dropRepeatedEnd (piece t : Text) : Text :=
  (dropRepeated piece.reverse t.reverse).reverse

/-- The pieces between the characters that satisfy `p`: one more than there are such characters. -/
def splitBy (p : Char → Bool) : Text → List Text
  | [] => [[]]
  | c :: t =>
    if p c then [] :: splitBy p t
    else
      match splitBy p t with
      | [] => [[c]]
      | piece :: pieces => (c :: piece) :: pieces

/-- The pieces put back together with a separator between them. -/
def join (separator : Text) : List Text → Text
  | [] => []
  | [piece] => piece
  | piece :: pieces => piece ++ separator ++ join separator pieces

/-- ASCII letters in lower case, all else as it stands. -/
def toLower (t : Text) : Text := t.map Char.toLower

/-- ASCII letters in upper case, all else as it stands. -/
def toUpper (t : Text) : Text := t.map Char.toUpper

end Text

end CallAtlas
