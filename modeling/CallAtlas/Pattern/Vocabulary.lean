/-
Module: CallAtlas.Pattern.Vocabulary
Purpose: The words in which the tables of patterns are written.
Main definitions: lit, noCase, anyOf, noneOf, star, plus, opt, oneOf, words
-/
import CallAtlas.Pattern.Basic
import CallAtlas.Text.Letter

namespace CallAtlas.Pattern

instance : Append Pattern := ⟨seq⟩

instance : OrElse Pattern := ⟨fun first second => either first (second ())⟩

instance : Inhabited Pattern := ⟨empty⟩

/-- Exactly one character. -/
def char (c : Char) : Pattern := one (· == c)

/-- A run of patterns, one after the other. -/
def all (parts : List Pattern) : Pattern := parts.foldr seq empty

/-- A literal text. -/
def lit (s : String) : Pattern := all (s.toList.map char)

/-- A literal text whose ASCII letters match in either case. -/
def noCase (s : String) : Pattern :=
  all (s.toList.map fun c => if c.isAlpha then one (sameLetter c) else char c)

/-- One of the characters of a string. -/
def anyOf (s : String) : Pattern := one fun c => s.toList.contains c

/-- One character that is not in a string. -/
def noneOf (s : String) : Pattern := one fun c => !s.toList.contains c

/-- Any character at all. -/
def any : Pattern := one fun _ => true

/-- Any character but a line feed. -/
def anyInLine : Pattern := one (· != '\n')

/-- A word character. -/
def word : Pattern := one isWordChar

/-- A blank. -/
def blank : Pattern := one isBlank

/-- A character that is not blank. -/
def nonBlank : Pattern := one fun c => !isBlank c

/-- A word character or one of the characters of a string. -/
def wordOr (s : String) : Pattern := one fun c => isWordChar c || s.toList.contains c

/-- As many rounds as possible, perhaps none. -/
def star (p : Pattern) : Pattern := many true p

/-- As few rounds as possible, perhaps none. -/
def starLazy (p : Pattern) : Pattern := many false p

/-- As many rounds as possible, at least one. -/
def plus (p : Pattern) : Pattern := p ++ many true p

/-- As few rounds as possible, at least one. -/
def plusLazy (p : Pattern) : Pattern := p ++ many false p

/-- The pattern if possible, else nothing. -/
def opt (p : Pattern) : Pattern := either p empty

/-- The first alternative that leads to a match; at least one is given. -/
def oneOf (first : Pattern) (others : List Pattern) : Pattern :=
  match others with
  | [] => first
  | second :: more => either first (oneOf second more)

/-- One of several literal texts, the earlier ones preferred. -/
def words (first : String) (others : List String) : Pattern :=
  oneOf (lit first) (others.map lit)

/-- One of several literal texts in either case, the earlier ones preferred. -/
def wordsNoCase (first : String) (others : List String) : Pattern :=
  oneOf (noCase first) (others.map noCase)

/-- The start of the text. -/
def textStart : Pattern := here fun before _ => before.isNone

/-- The end of the text. -/
def textEnd : Pattern := here fun _ after => after.isNone

/-- The start of the text or of a line. -/
def lineStart : Pattern := here fun before _ => before.isNone || before == some '\n'

/-- A position with a word character on exactly one side. -/
def boundary : Pattern :=
  here fun before after => before.any isWordChar != after.any isWordChar

/-- Blanks, perhaps none. -/
def gap : Pattern := blank.star

/-- At least one blank. -/
def space : Pattern := blank.plus

/-- Spaces and tabs at the start of a line. -/
def indent : Pattern := lineStart ++ (anyOf " \t").star

end CallAtlas.Pattern
