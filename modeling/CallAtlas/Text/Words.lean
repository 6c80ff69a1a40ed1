/-
Module: CallAtlas.Text.Words
Purpose: Blanks around and between words; lines of a text.
Main definitions: Text.trim, Text.words, Text.collapse, Text.squeeze, Text.lines
-/
import CallAtlas.Text.Basic
import CallAtlas.Text.Letter

namespace CallAtlas.Text

/-- The text without leading blanks. -/
def trimStart (t : Text) : Text := t.dropWhile isBlank

/-- The text without trailing blanks. -/
def trimEnd (t : Text) : Text := (t.reverse.dropWhile isBlank).reverse

/-- The text without blanks at either end. -/
def trim (t : Text) : Text := trimEnd (trimStart t)

/-- The maximal runs of non-blank characters, in order. -/
def words (t : Text) : List Text :=
  (t.splitBy isBlank).filter fun piece => !piece.isEmpty

/-- Every run of blanks as one space, none at the ends. -/
def collapse (t : Text) : Text := join [' '] t.words

/-- The text without its blanks. -/
def squeeze (t : Text) : Text := join [] t.words

/-- A line without the carriage return that may end it. -/
def withoutReturn (line : Text) : Text :=
  match line.reverse with
  | '\r' :: t => t.reverse
  | _ => line

/-- The pieces that line feeds end, each without a carriage return before the line feed, and a last
piece that no line feed ends unless it is empty. -/
def linesOf : List Text → List Text
  | [] => []
  | [last] => if last.isEmpty then [] else [last]
  | line :: more => withoutReturn line :: linesOf more

/-- The lines of a text. -/
def lines (t : Text) : List Text := linesOf (t.splitBy (· == '\n'))

/-- Whether the text ends with a piece. -/
def endsWith (t piece : Text) : Bool := piece.reverse.isPrefixOf t.reverse

/-- Number of line feeds strictly before a byte offset. -/
def newlinesBefore : Nat → Text → Nat
  | 0, _ => 0
  | _ + 1, [] => 0
  | n + 1, c :: t =>
    (if c == '\n' then 1 else 0) + newlinesBefore (n + 1 - c.utf8Size) t

/-- Number of the line that holds a byte offset; the first line is 1. -/
def lineAt (t : Text) (offset : Nat) : Nat := newlinesBefore offset t + 1

/-- Number of lines: one more than there are line feeds. -/
def lineCount (t : Text) : Nat := t.count '\n' + 1

end CallAtlas.Text
