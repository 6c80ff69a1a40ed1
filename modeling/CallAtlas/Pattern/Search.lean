/-
Module: CallAtlas.Pattern.Search
Purpose: Leftmost matches of a pattern in a text.
Main definitions: Pattern.searchFrom?, Pattern.find?, Pattern.findAll, Pattern.replaceAll
-/
import CallAtlas.Pattern.Basic

namespace CallAtlas.Pattern

/-- The first match that starts at or after a position, given piece by piece. -/
def search? (p : Pattern) (before : Option Char) (offset : Nat) : Text → Option Match
  | [] => p.matchAt? ⟨before, offset, []⟩
  | x :: t =>
    match p.matchAt? ⟨before, offset, x :: t⟩ with
    | some m => some m
    | none => search? p (some x) (offset + x.utf8Size) t

/-- The first match that starts at or after a cursor. -/
def searchFrom? (p : Pattern) (c : Cursor) : Option Match := p.search? c.before c.offset c.rest

/-- The first match in a text. -/
def find? (p : Pattern) (t : Text) : Option Match := p.searchFrom? (.ofText t)

/-- Whether a text has a match. -/
def occursIn (p : Pattern) (t : Text) : Bool := (p.find? t).isSome

/-- The matches from a cursor on, from left to right, none overlapping the one before it.  `fuel` is
the text that is left; every match but one at the very end uses up some of it. -/
def matchesFrom (p : Pattern) : Text → Cursor → List Match
  | [], c => (p.searchFrom? c).toList
  | _ :: fuel, c =>
    match p.searchFrom? c with
    | none => []
    | some m => m :: matchesFrom p fuel m.resume

/-- All matches in a text, from left to right, none overlapping the one before it. -/
def findAll (p : Pattern) (t : Text) : List Match := p.matchesFrom t (.ofText t)

/-- A text with the given ranges, in order and apart, replaced by one and the same piece.  `offset`
is the byte offset where the text begins. -/
def substitute (piece : Text) (offset : Nat) : List Span → Text → Text
  | [], t => t
  | s :: ranges, t =>
    t.slice ⟨0, s.start - offset⟩ ++ piece ++
      substitute piece s.stop ranges (t.rest (s.stop - offset))

/-- A text with every match replaced by one and the same piece. -/
def replaceAll (p : Pattern) (piece t : Text) : Text :=
  substitute piece 0 ((p.findAll t).map Match.span) t

end CallAtlas.Pattern
