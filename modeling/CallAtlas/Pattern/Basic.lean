/-
Module: CallAtlas.Pattern.Basic
Purpose: Text patterns and the ordered search for a match at one position.
Main definitions: Group, Pattern, Cursor, Marks, Pattern.run, Pattern.matchAt?
-/
import CallAtlas.Text.Basic

namespace CallAtlas

/-!
A pattern is tried at a cursor and offers its outcomes in an order of preference: the first branch
of a choice before the second, more rounds of a greedy repetition before fewer.  The first outcome
that the rest of the pattern accepts is the match.  The cursor keeps the character to its left, so
that line starts and word boundaries see the text before the position where a search began.
-/

/-- The parts of a match that a pattern can mark. -/
inductive Group where
  | comment
  | quoted
  | name
  | decorators
  | modifiers
  | result
  | receiver
  | parameters
  | block
  | expression
  | terminator
  | item
  | callee
  | label
  | condition
  | keyword
  | argument
deriving Repr, DecidableEq, Inhabited

/-- A pattern over characters. -/
inductive Pattern where
  /-- The empty text. -/
  | empty
  /-- One character that satisfies a test. -/
  | one (accepts : Char → Bool)
  /-- The empty text at a position whose two neighbours satisfy a test. -/
  | here (holds : Option Char → Option Char → Bool)
  /-- One pattern, then another. -/
  | seq (first second : Pattern)
  /-- One pattern or, if that leads nowhere, another. -/
  | either (first second : Pattern)
  /-- Any number of rounds, as many as possible if `greedy`, else as few as possible.  Every round
  has to move forward. -/
  | many (greedy : Bool) (body : Pattern)
  /-- A pattern whose text is remembered under a name. -/
  | mark (group : Group) (body : Pattern)

/-- A position in a text: the character before it, its byte offset, and what follows. -/
@[ext]
structure Cursor where
  before : Option Char
  offset : Nat
  rest : Text
deriving Repr, DecidableEq, Inhabited

namespace Cursor

/-- The start of a text. -/
def ofText (t : Text) : Cursor := ⟨none, 0, t⟩

/-- The position one character further on; the end of the text stays where it is. -/
def advance (c : Cursor) : Cursor :=
  match c.rest with
  | [] => c
  | x :: t => ⟨some x, c.offset + x.utf8Size, t⟩

/-- The position at a byte offset, if it is a character boundary at or after the cursor. -/
def seekFrom? (target : Nat) (before : Option Char) (offset : Nat) : Text → Option Cursor
  | [] => if offset = target then some ⟨before, offset, []⟩ else none
  | x :: t =>
    if offset = target then some ⟨before, offset, x :: t⟩
    else if target < offset then none
    else seekFrom? target (some x) (offset + x.utf8Size) t

/-- The position at a byte offset of a text. -/
def ofOffset? (t : Text) (offset : Nat) : Option Cursor := seekFrom? offset none 0 t

end Cursor

/-- What a match has marked so far, the latest mark first. -/
abbrev Marks := List (Group × Span)

/-- What is left to do after a part of a pattern has matched. -/
abbrev Continuation := Cursor → Marks → Option (Cursor × Marks)

/-- Rounds of `round` from a cursor, then `next`.  `fuel` is the text that is left: each round takes
at least one character of it, so it never runs out early. -/
def rounds (round : Continuation → Continuation) (greedy : Bool) (next : Continuation) :
    Text → Continuation
  | [], c, m => next c m
  | _ :: fuel, c, m =>
    let again : Continuation := fun c' m' =>
      if c.offset < c'.offset then rounds round greedy next fuel c' m' else none
    if greedy then
      match round again c m with
      | some found => some found
      | none => next c m
    else
      match next c m with
      | some found => some found
      | none => round again c m

namespace Pattern

/-- Matches a pattern at a cursor and goes on with `next`.  The result is the first outcome, in the
order of preference, that `next` accepts. -/
def run : Pattern → Continuation → Continuation
  | empty, next, c, m => next c m
  | one accepts, next, c, m =>
    match c.rest with
    | [] => none
    | x :: t => if accepts x then next ⟨some x, c.offset + x.utf8Size, t⟩ m else none
  | here holds, next, c, m => if holds c.before c.rest.head? then next c m else none
  | seq first second, next, c, m => first.run (second.run next) c m
  | either first second, next, c, m =>
    match first.run next c m with
    | some found => some found
    | none => second.run next c m
  | many greedy body, next, c, m => rounds body.run greedy next c.rest c m
  | mark group body, next, c, m =>
    body.run (fun c' m' => next c' ((group, ⟨c.offset, c'.offset⟩) :: m')) c m

end Pattern

/-- A match: where it starts, the position after it, and its marks. -/
structure Match where
  start : Nat
  after : Cursor
  marks : Marks
deriving Repr, DecidableEq, Inhabited

namespace Match

/-- Byte offset one past the match. -/
def stop (m : Match) : Nat := m.after.offset

/-- The byte range of the match. -/
def span (m : Match) : Span := ⟨m.start, m.stop⟩

/-- The byte range of a marked part.  A part marked in several rounds has the range of the last. -/
def group? (m : Match) (g : Group) : Option Span :=
  (m.marks.find? fun mark => mark.1 = g).map (·.2)

/-- Where the search for the next match begins: after the match, and one character further on if
the match is empty. -/
def resume (m : Match) : Cursor :=
  if m.start < m.after.offset then m.after else m.after.advance

end Match

/-- The match of a pattern at a cursor. -/
def Pattern.matchAt? (p : Pattern) (c : Cursor) : Option Match :=
  (p.run (fun c' m => some (c', m)) c []).map fun (c', m) => ⟨c.offset, c', m⟩

end CallAtlas
