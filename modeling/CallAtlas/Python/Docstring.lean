/-
Module: CallAtlas.Python.Docstring
Purpose: The text of a documentation string.
Main definitions: cleanDocstring, quotedText, docstringText
-/
import CallAtlas.Text.Cut
import CallAtlas.Text.Words

namespace CallAtlas.Python

/-- Number of bytes of blanks at the start of a line. -/
def blankPrefix (line : Text) : Nat := Text.size (line.takeWhile isBlank)

/-- The least indentation of the lines that are not blank; zero if there are none. -/
def commonIndent (lines : List Text) : Nat :=
  let indents := (lines.filter fun l => !(Text.trim l).isEmpty).map blankPrefix
  (indents.min?).getD 0

/-- A documentation text without the indentation that its second and later lines share, and without
blanks at the ends of its lines and at its own ends. -/
def cleanDocstring (doc : Text) : Text :=
  match Text.lines doc with
  | [] => []
  | first :: rest =>
    let indent := commonIndent rest
    let cut := rest.map fun line => Text.trimEnd (Text.rest line indent)
    Text.trim (Text.join ['\n'] (Text.trim first :: cut))

/-- Whether a character is a quote. -/
def isQuote (c : Char) : Bool := c == '"' || c == '\''

/-- Number of quotes that open what starts with a quote. -/
def fenceLength (quoted : Text) : Nat :=
  if ['"', '"', '"'].isPrefixOf quoted || ['\'', '\'', '\''].isPrefixOf quoted then 3 else 1

/-- What stands between the quotes of a string literal; nothing if it has no quotes, or has fewer
bytes than quotes at both ends take.  As many bytes are cut off at its end as at its front, whatever
they are: a literal that does not end in its quotes may be cut inside a character. -/
def quotedText (literal : Text) : Checked (Option Text) :=
  let quoted := literal.dropWhile fun c => !isQuote c
  let fence := fenceLength quoted
  if quoted.isEmpty || Text.size quoted < 2 * fence then .ok none
  else (Text.cut quoted ⟨fence, Text.size quoted - fence⟩).map some

/-- The documentation in a string literal; nothing if it is blank. -/
def docstringText (literal : Text) : Checked (Option String) := do
  match ← quotedText literal with
  | none => return none
  | some inner =>
    let doc := cleanDocstring inner
    return if doc.isEmpty then none else some (String.ofList doc)

end CallAtlas.Python
