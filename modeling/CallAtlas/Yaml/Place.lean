/-
Module: CallAtlas.Yaml.Place
Purpose: Places in a YAML text, and the faults found there.
Main definitions: Mark, Place, Cause, Fault
-/
import CallAtlas.Text.Basic

namespace CallAtlas.Yaml

/-- A line and a column, both counted from zero. -/
structure Mark where
  line : Nat
  column : Nat
deriving Repr, DecidableEq, Inhabited

/-- Where a mark is, for a reader: both counted from one. -/
def Mark.describe (m : Mark) : String :=
  "line " ++ toString (m.line + 1) ++ " column " ++ toString (m.column + 1)

/-- Why a text is not a YAML document. -/
inductive Cause where
  | controlCharacter
  | badCharacter
  | badDirective
  | badAnchor
  | badTag
  | undefinedTagHandle
  | badEscape
  | badBlockHeader
  | tabIndentation
  | markerInQuotes
  | unclosedQuotes
  | misplacedColon
  | misplacedKey
  | misplacedValue
  | misplacedEntry
  | missingColon
  | missingNode
  | missingEntry
  | missingKey
  | unclosedFlow
  | unknownAnchor
  | missingDocumentStart
  | secondDocument
deriving Repr, DecidableEq, Inhabited

/-- The text of a cause. -/
def Cause.message : Cause → String
  | controlCharacter => "control characters are not allowed"
  | badCharacter => "found character that cannot start any token"
  | badDirective => "found a directive that is not understood"
  | badAnchor => "did not find expected alphabetic or numeric character"
  | badTag => "did not find the expected end of a tag"
  | undefinedTagHandle => "found undefined tag handle"
  | badEscape => "found unknown escape character"
  | badBlockHeader => "did not find expected comment or line break"
  | tabIndentation => "found a tab character where indentation is expected"
  | markerInQuotes => "found unexpected document indicator"
  | unclosedQuotes => "found unexpected end of stream"
  | misplacedColon => "found unexpected ':'"
  | misplacedKey => "mapping keys are not allowed in this context"
  | misplacedValue => "mapping values are not allowed in this context"
  | misplacedEntry => "block sequence entries are not allowed in this context"
  | missingColon => "could not find expected ':'"
  | missingNode => "did not find expected node content"
  | missingEntry => "did not find expected '-' indicator"
  | missingKey => "did not find expected key"
  | unclosedFlow => "did not find expected ',' or the end of a flow collection"
  | unknownAnchor => "unknown anchor"
  | missingDocumentStart => "did not find expected <document start>"
  | secondDocument => "deserializing from YAML containing more than one document is not supported"

/-- A cause and where it was found. -/
structure Fault where
  cause : Cause
  mark : Mark
deriving Repr, DecidableEq, Inhabited

/-- The text of a fault. -/
def Fault.message (f : Fault) : String := f.cause.message ++ " at " ++ f.mark.describe

/-- Line breaks. -/
def isBreak (c : Char) : Bool :=
  c == '\n' || c == '\r' || c.toNat == 0x85 || c.toNat == 0x2028 || c.toNat == 0x2029

/-- Blanks within a line. -/
def isSpace (c : Char) : Bool := c == ' ' || c == '\t'

/-- A place in a text: what follows, its mark, and the number of characters before it. -/
structure Place where
  rest : Text
  mark : Mark
  index : Nat
deriving Repr, DecidableEq, Inhabited

namespace Place

/-- The start of a text. -/
def start (t : Text) : Place := ⟨t, ⟨0, 0⟩, 0⟩

/-- The next character. -/
def peek? (p : Place) : Option Char := p.rest.head?

/-- The character a number of characters further on. -/
def peekAt? (p : Place) (n : Nat) : Option Char := p.rest[n]?

/-- Whether a given character comes next. -/
def isAt (p : Place) (c : Char) : Bool := p.peek? == some c

/-- Whether the text ends here. -/
def atEnd (p : Place) : Bool := p.rest.isEmpty

/-- Whether a blank comes next. -/
def atSpace (p : Place) : Bool := p.peek?.any isSpace

/-- Whether a line break comes next. -/
def atBreak (p : Place) : Bool := p.peek?.any isBreak

/-- Whether a blank, a line break or the end comes a number of characters further on. -/
def gapAt (p : Place) (n : Nat) : Bool := (p.peekAt? n).all fun c => isSpace c || isBreak c

/-- The place after a number of characters of the same line. -/
def skip (p : Place) (n : Nat) : Place :=
  ⟨p.rest.drop n, { p.mark with column := p.mark.column + n }, p.index + n⟩

/-- The length of the line break that comes next. -/
def breakLength (p : Place) : Nat :=
  match p.rest with
  | '\r' :: '\n' :: _ => 2
  | c :: _ => if isBreak c then 1 else 0
  | [] => 0

/-- The place after a line break. -/
def skipBreak (p : Place) : Place :=
  ⟨p.rest.drop p.breakLength, ⟨p.mark.line + 1, 0⟩, p.index + p.breakLength⟩

/-- The line break that comes next, as it is read. -/
def breakText (p : Place) : Text :=
  match p.rest with
  | c :: _ =>
    if c.toNat == 0x2028 || c.toNat == 0x2029 then [c] else if isBreak c then ['\n'] else []
  | [] => []

/-- Whether a line starts here with `---` or `...` and a gap. -/
def atMarker (p : Place) (c : Char) : Bool :=
  p.mark.column == 0 && [c, c, c].isPrefixOf p.rest && p.gapAt 3

/-- Whether the start or the end of a document is marked here. -/
def atDocumentMarker (p : Place) : Bool := p.atMarker '-' || p.atMarker '.'

/-- The place after the characters of the same line that satisfy a condition. -/
def skipWhile (p : Place) (keep : Char → Bool) : Place :=
  p.skip (p.rest.takeWhile fun c => keep c && !isBreak c).length

/-- A fault at this place. -/
def fault {α : Type} (p : Place) (cause : Cause) : Except Fault α := .error ⟨cause, p.mark⟩

end Place

end CallAtlas.Yaml
