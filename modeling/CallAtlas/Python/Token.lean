/-
Module: CallAtlas.Python.Token
Purpose: The tokens of a Python text.
Main definitions: Bracket, TokenKind, Token, tokenize
-/
import CallAtlas.Text.Basic
import CallAtlas.Text.Letter

namespace CallAtlas.Python

/-!
A text is read from left to right.  What a character means depends on the innermost thing that is
open: a bracket, a string, a replacement field of a string, or the format of such a field.  Line
breaks and comments are tokens only where nothing is open; a line break carries the indentation of
the line after it.  Strings and replacement fields are given as a pair of opening and closing
tokens, so that the expressions in a string are tokens like any others.
-/

/-- What an opening token opens. -/
inductive Bracket where
  | round
  | square
  | curly
  /-- A string literal. -/
  | quote
  /-- A replacement field in a string literal. -/
  | field
deriving Repr, DecidableEq, Inhabited

/-- The kinds of token. -/
inductive TokenKind where
  /-- A name or a keyword. -/
  | word
  | number
  | symbol
  | comment
  /-- The end of a line; `indent` is the indentation of the next line. -/
  | lineBreak (indent : Nat)
  | opening (bracket : Bracket)
  | closing
deriving Repr, DecidableEq, Inhabited

/-- A token, its byte range and its text. -/
structure Token where
  kind : TokenKind
  span : Span
  text : Text
deriving Repr, DecidableEq, Inhabited

/-- How a string literal is written. -/
structure Quote where
  /-- The quote character. -/
  mark : Char
  /-- Three quotes at either end. -/
  triple : Bool
  /-- Backslashes do not escape. -/
  raw : Bool
  /-- Replacement fields are expressions. -/
  format : Bool
deriving Repr, DecidableEq, Inhabited

/-- What is open. -/
inductive Mode where
  | bracket
  | quote (q : Quote)
  | field
  /-- The format of a replacement field. -/
  | format
deriving Repr, DecidableEq, Inhabited

/-- Blanks between tokens; line feeds apart. -/
def isGap (c : Char) : Bool :=
  c == ' ' || c == '\t' || c == '\r' || c == '\x0c' || c == '\x0b' || c.toNat == 0xfeff ||
    c.toNat == 0x2060 || c.toNat == 0x200b

/-- Characters a name may start with. -/
def startsName (c : Char) : Bool :=
  c.isAlpha || c == '_' || (0x80 ≤ c.toNat && !isGap c && !isBlank c)

/-- Characters a name may go on with. -/
def continuesName (c : Char) : Bool := startsName c || c.isDigit

/-- The indentation at the start of a line: a space counts one, a tab eight, and a carriage return
or a form feed starts afresh. -/
def indentation (count : Nat) : Text → Nat
  | ' ' :: t => indentation (count + 1) t
  | '\t' :: t => indentation (count + 8) t
  | '\r' :: t => indentation 0 t
  | '\x0c' :: t => indentation 0 t
  | _ => count

/-- Digits with underscores between them. -/
def digits (t : Text) : Text := t.takeWhile fun c => c.isDigit || c == '_'

/-- The exponent at the start of a text; empty if there is none. -/
def exponent (t : Text) : Text :=
  match t with
  | e :: sign :: d :: more =>
    if (e == 'e' || e == 'E') && (sign == '+' || sign == '-') && d.isDigit then
      e :: sign :: digits (d :: more)
    else if (e == 'e' || e == 'E') && sign.isDigit then e :: digits (sign :: d :: more)
    else []
  | [e, d] => if (e == 'e' || e == 'E') && d.isDigit then [e, d] else []
  | _ => []

/-- The letter after a number; empty if there is none. -/
def numberSuffix (t : Text) : Text :=
  match t with
  | c :: _ => if "jJlL".toList.contains c then [c] else []
  | [] => []

/-- The decimal number at the start of a text. -/
def decimal (t : Text) : Text :=
  let whole := digits t
  let afterWhole := t.drop whole.length
  let fraction :=
    match afterWhole with
    | '.' :: more => '.' :: digits more
    | _ => []
  let afterFraction := afterWhole.drop fraction.length
  let power := exponent afterFraction
  whole ++ fraction ++ power ++ numberSuffix (afterFraction.drop power.length)

/-- The number at the start of a text. -/
def number (t : Text) : Text :=
  match t with
  | '0' :: base :: more =>
    if "xXoObB".toList.contains base then
      '0' :: base :: more.takeWhile fun c => c.isAlphanum || c == '_'
    else decimal t
  | _ => decimal t

/-- Symbols of more than one character, longer ones first. -/
def longSymbols : List String :=
  [ "**=", "//=", ">>=", "<<=", "...", "**", "//", ">>", "<<", "<=", ">=", "==", "!=", "->", ":=",
    "+=", "-=", "*=", "/=", "%=", "&=", "|=", "^=", "@=", "<>" ]

/-- The symbol at the start of a text, whose first character is given. -/
def symbol (c : Char) (t : Text) : Text :=
  match longSymbols.find? fun s => s.toList.isPrefixOf (c :: t) with
  | some s => s.toList
  | none => [c]

/-- The opening quotes at the start of a text and the literal they open, given its flags. -/
def quoteAt? (flags t : Text) : Option (Text × Quote) :=
  let raw := flags.any fun c => c == 'r' || c == 'R'
  let format := flags.any fun c => c == 'f' || c == 'F'
  match t with
  | c :: more =>
    if c == '`' then some ([c], ⟨c, false, raw, format⟩)
    else if c == '"' || c == '\'' then
      if [c, c].isPrefixOf more then some ([c, c, c], ⟨c, true, raw, format⟩)
      else some ([c], ⟨c, false, raw, format⟩)
    else none
  | [] => none

/-- Whether a word consists of string flags. -/
def isFlags (word : Text) : Bool := word.all fun c => "fFrRbBuU".toList.contains c

/-- The closing quotes of a literal. -/
def Quote.fence (q : Quote) : Text := if q.triple then [q.mark, q.mark, q.mark] else [q.mark]

/-- Number of characters of an escape in a string: the backslash and what it escapes. -/
def escapeLength (q : Quote) (t : Text) : Nat :=
  match t with
  | '\\' :: c :: more =>
    if q.raw then if c == q.mark || c == '\\' then 2 else 1
    else if q.format && (c == '{' || c == '}') then 1
    else if c == 'N' && more.head? == some '{' then
      4 + ((more.drop 1).takeWhile (· != '}')).length
    else 2
  | _ => 1

/-- One reading step: how many characters are read, whether they are a token and of which kind, and
what is open afterwards. -/
structure Reading where
  length : Nat
  kind : Option TokenKind
  modes : List Mode
deriving Repr, DecidableEq, Inhabited

/-- A step inside a string literal. -/
def readQuoted (q : Quote) (outer : List Mode) (t : Text) : Reading :=
  let modes := .quote q :: outer
  if q.fence.isPrefixOf t then ⟨q.fence.length, some .closing, outer⟩
  else
    match t with
    | '{' :: '{' :: _ => ⟨if q.format then 2 else 1, none, modes⟩
    | '}' :: '}' :: _ => ⟨if q.format then 2 else 1, none, modes⟩
    | '{' :: _ =>
      if q.format then ⟨1, some (.opening .field), .field :: modes⟩ else ⟨1, none, modes⟩
    | '\\' :: _ => ⟨escapeLength q t, none, modes⟩
    | _ => ⟨1, none, modes⟩

/-- A step inside the format of a replacement field.  A closing brace ends both. -/
def readFormat (outer : List Mode) (t : Text) : Reading :=
  match t with
  | '{' :: _ => ⟨1, some (.opening .field), .field :: .format :: outer⟩
  | '}' :: _ => ⟨1, some .closing, outer.drop 1⟩
  | _ => ⟨1, none, .format :: outer⟩

/-- Characters that close a bracket. -/
def isCloser (c : Char) : Bool := c == ')' || c == ']' || c == '}'

/-- A step in code. -/
def readCode (modes : List Mode) (c : Char) (t : Text) : Reading :=
  let inField := modes.head? == some .field
  let word := (c :: t).takeWhile continuesName
  if c == '\n' then
    if modes.isEmpty then ⟨1, some (.lineBreak (indentation 0 t)), modes⟩ else ⟨1, none, modes⟩
  else if isGap c then ⟨1, none, modes⟩
  else if c == '\\' then ⟨1 + (t.takeWhile (· == '\r')).length + 1, none, modes⟩
  else if c == '#' then
    ⟨1 + (t.takeWhile (· != '\n')).length, if modes.isEmpty then some .comment else none, modes⟩
  else if c == '(' then ⟨1, some (.opening .round), .bracket :: modes⟩
  else if c == '[' then ⟨1, some (.opening .square), .bracket :: modes⟩
  else if c == '{' then ⟨1, some (.opening .curly), .bracket :: modes⟩
  else if isCloser c then ⟨1, some .closing, modes.drop 1⟩
  else if inField && c == ':' then ⟨1, none, .format :: modes⟩
  else if isFlags word && (quoteAt? word ((c :: t).drop word.length)).isSome then
    match quoteAt? word ((c :: t).drop word.length) with
    | some (fence, q) =>
      ⟨word.length + fence.length, some (.opening .quote), .quote q :: modes⟩
    | none => ⟨1, none, modes⟩
  else if startsName c then ⟨word.length, some .word, modes⟩
  else if c.isDigit || (c == '.' && (t.head?.any Char.isDigit)) then
    ⟨(number (c :: t)).length, some .number, modes⟩
  else ⟨(symbol c t).length, some .symbol, modes⟩

/-- One reading step at a text that is not empty. -/
def readStep (modes : List Mode) (c : Char) (t : Text) : Reading :=
  match modes with
  | .quote q :: outer => readQuoted q outer (c :: t)
  | .format :: outer => readFormat outer (c :: t)
  | _ => readCode modes c t

/-- The tokens of a text from a byte offset on.  Each step reads at least one character; `fuel` is
the text that is left. -/
def tokensFrom : Text → List Mode → Nat → Text → List Token
  | _ :: fuel, modes, offset, c :: t =>
    let step := readStep modes c t
    let piece := (c :: t).take (max step.length 1)
    let next := tokensFrom fuel step.modes (offset + Text.size piece) ((c :: t).drop piece.length)
    match step.kind with
    | some kind => ⟨kind, ⟨offset, offset + Text.size piece⟩, piece⟩ :: next
    | none => next
  | _, _, _, _ => []

/-- The tokens of a text. -/
def tokenize (t : Text) : List Token := tokensFrom t [] 0 t

end CallAtlas.Python
