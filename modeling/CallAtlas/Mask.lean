/-
Module: CallAtlas.Mask
Purpose: Views of a source text in which comments, or comments and strings, are blank.
Main definitions: maskBytes, CommentStyle.pattern, literalView, codeView, blankRanges
-/
import CallAtlas.Language
import CallAtlas.Pattern.Search
import CallAtlas.Pattern.Vocabulary
import CallAtlas.Text.Utf8

namespace CallAtlas

/-!
A view keeps every line feed and every byte offset of the text.  What is hidden becomes spaces, one
for each byte, so a position found in a view is a position of the text.  Blanking works on bytes
because the ranges do; the bytes are read back as text afterwards.
-/

/-- Bytes from offset `offset` on, with a space in place of every covered byte but line feeds. -/
def maskBytes (covered : Nat → Bool) (offset : Nat) : List UInt8 → List UInt8
  | [] => []
  | b :: bs =>
    (if covered offset && b != 0x0a then 0x20 else b) :: maskBytes covered (offset + 1) bs

/-- Whether one of the ranges contains a byte offset. -/
def covers (ranges : List Span) (offset : Nat) : Bool := ranges.any (·.contains offset)

/-- A text with the given byte ranges blanked. -/
def mask (ranges : List Span) (t : Text) : Text :=
  Utf8.decodeLossy (maskBytes (covers ranges) 0 (Utf8.encode t))

/-- The `length` bytes of a text from offset `base` on, with the given ranges of the text blanked.
Ranges may reach beyond the window and may cut characters. -/
def blankRanges (t : Text) (base length : Nat) (ranges : List Span) : Text :=
  Utf8.decodeLossy
    (maskBytes (covers ranges) base (((Utf8.encode t).drop base).take length))

namespace CommentStyle

open Pattern

/-- A string that ends at the next unescaped quote on the same line. -/
def lineQuoted (quote : Char) : Pattern :=
  char quote ++ ((char '\\' ++ any) <|> one fun c => c != quote && c != '\\' && c != '\n').star ++
    char quote

/-- A string between two runs of quotes, over any number of lines. -/
def fenced (fence : String) : Pattern := lit fence ++ any.starLazy ++ lit fence

/-- A string in which a quote is written as two. -/
def doubled (quote : Char) (allowed : Char → Bool) : Pattern :=
  char quote ++ ((char quote ++ char quote) <|> one allowed).star ++ char quote

/-- One comment or one string.  Of two that start at the same place the earlier form wins. -/
def pattern : CommentStyle → Pattern
  | slashes =>
    mark .comment ((lit "//" ++ anyInLine.star) <|> (lit "/*" ++ any.starLazy ++ lit "*/")) <|>
    mark .quoted
      (oneOf (fenced "\"\"\"")
        [char '@' ++ doubled '"' (· != '"'), lineQuoted '"', lineQuoted '\'',
          char '`' ++ ((char '\\' ++ any) <|> noneOf "`\\").star ++ char '`'])
  | hash =>
    mark .comment (char '#' ++ anyInLine.star) <|>
    mark .quoted
      (oneOf (fenced "\"\"\"") [fenced "'''", lineQuoted '"', lineQuoted '\''])
  | star =>
    mark .comment
      ((lineStart ++ char '*' ++ anyInLine.star) <|> (char '"' ++ anyInLine.star)) <|>
    mark .quoted
      (oneOf (doubled '\'' fun c => c != '\'' && c != '\n')
        [doubled '`' fun c => c != '`' && c != '\n',
          char '|' ++ ((char '\\' ++ anyInLine) <|> noneOf "|\\\n").star ++ char '|'])

end CommentStyle

/-- The byte ranges of the comments of a text. -/
def commentRanges (lang : Language) (t : Text) : List Span :=
  (lang.commentStyle.pattern.findAll t).filterMap (·.group? .comment)

/-- The byte ranges of the comments and strings of a text. -/
def hiddenRanges (lang : Language) (t : Text) : List Span :=
  (lang.commentStyle.pattern.findAll t).filterMap fun m =>
    (m.group? .comment).or (m.group? .quoted)

/-- The text with its comments blanked; strings stay readable. -/
def literalView (lang : Language) (t : Text) : Text := mask (commentRanges lang t) t

/-- The text with its comments and strings blanked. -/
def codeView (lang : Language) (t : Text) : Text := mask (hiddenRanges lang t) t

end CallAtlas
