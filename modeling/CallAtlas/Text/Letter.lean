/-
Module: CallAtlas.Text.Letter
Purpose: The character classes that names, words and blanks are made of.
Main definitions: isBlank, isWordChar, isNameChar, sameLetter
-/
import CallAtlas.Text.LetterTable

namespace CallAtlas

/-!
Three classes are told apart.  A *blank* is a code point with the White_Space property.  A *word
character* is what patterns call a word: letters, marks, decimal digits, connectors and the join
controls.  A *name character* is a letter or a number of any kind; marks that are no letters do not
count.  Below code point 128 the classes are written out, above it the tables decide.
-/

/-- Whether a code point lies in one of the closed ranges. -/
def inRanges (ranges : List (Nat × Nat)) (n : Nat) : Bool :=
  ranges.any fun (low, high) => low ≤ n && n ≤ high

/-- White_Space code points above ASCII. -/
def wideBlankRanges : List (Nat × Nat) :=
  [(0x85, 0x85), (0xa0, 0xa0), (0x1680, 0x1680), (0x2000, 0x200a), (0x2028, 0x2029),
    (0x202f, 0x202f), (0x205f, 0x205f), (0x3000, 0x3000)]

/-- White_Space: tab to carriage return, space, and the wide blanks. -/
def isBlank (c : Char) : Bool :=
  let n := c.toNat
  if n < 0x80 then n == 0x20 || (0x09 ≤ n && n ≤ 0x0d) else inRanges wideBlankRanges n

/-- Letters, marks, decimal digits, connectors such as `_`, and join controls. -/
def isWordChar (c : Char) : Bool :=
  if c.toNat < 0x80 then c.isAlphanum || c == '_'
  else
    inRanges LetterTable.letterRanges c.toNat || inRanges LetterTable.joinerRanges c.toNat ||
      inRanges LetterTable.digitRanges c.toNat

/-- Letters and numbers. -/
def isNameChar (c : Char) : Bool :=
  if c.toNat < 0x80 then c.isAlphanum
  else
    inRanges LetterTable.letterRanges c.toNat || inRanges LetterTable.digitRanges c.toNat ||
      inRanges LetterTable.numberRanges c.toNat

/-- Characters that fold to the same letter as the lower-case ASCII letter `letter`: both cases of
it, the long s for `s` and the Kelvin sign for `k`. -/
def sameLetter (letter c : Char) : Bool :=
  c.toLower == letter.toLower || (letter.toLower == 's' && c.toNat == 0x17f) ||
    (letter.toLower == 'k' && c.toNat == 0x212a)

end CallAtlas
