/-
Module: CallAtlas.Report.Style
Purpose: Coloured and padded text for terminals.
Main definitions: Style, paint, padRight, padLeft
-/
import CallAtlas.Text.Basic

namespace CallAtlas.Report

/-- The ways in which text is set off. -/
inductive Style where
  | bold
  | dimmed
  | green
  | yellow
  | red
  | cyan
  | boldRed
  | boldCyan
deriving Repr, DecidableEq, Inhabited

/-- The codes of a style. -/
def Style.codes : Style → String
  | bold => "1"
  | dimmed => "2"
  | green => "32"
  | yellow => "33"
  | red => "31"
  | cyan => "36"
  | boldRed => "1;31"
  | boldCyan => "1;36"

/-- A text in a style, if colours are wanted.  An empty text stays as it is. -/
def paint (coloured : Bool) (style : Style) (text : String) : String :=
  if coloured && !text.isEmpty then "\x1b[" ++ style.codes ++ "m" ++ text ++ "\x1b[0m" else text

/-- So many spaces. -/
def spaces (count : Nat) : String := String.ofList (List.replicate count ' ')

/-- A text filled up with spaces behind it. -/
def padRight (width : Nat) (text : String) : String := text ++ spaces (width - text.length)

/-- A text filled up with spaces before it. -/
def padLeft (width : Nat) (text : String) : String := spaces (width - text.length) ++ text

end CallAtlas.Report
