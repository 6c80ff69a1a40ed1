/-
Module: CallAtlas.Grammar.Go
Purpose: The grammar of Go sources.
Main definitions: Grammar.go
-/
import CallAtlas.Grammar.BraceFamily

namespace CallAtlas

/-!
There are no classes; the type of a method's receiver stands in for the class name.  Conditions are
not in parentheses and run up to the brace of the body.
-/

namespace GoForms

open Pattern BraceFamily

/-- Reserved words. -/
def keywords : List String :=
  [ "break", "case", "chan", "const", "continue", "default", "defer", "else", "fallthrough",
    "for", "func", "go", "goto", "if", "import", "interface", "map", "package", "range", "return",
    "select", "struct", "switch", "type", "var" ]

/-- A function, perhaps with a receiver. -/
def functionHeader : Pattern :=
  lineStart ++ lit "func" ++ gap ++
    (char '(' ++ mark .receiver (noneOf ")").star ++ char ')' ++ gap).opt ++
    mark .name word.plus ++ gap ++ (char '[' ++ (noneOf "]").star ++ char ']').opt ++ gap ++
    char '('

/-- What follows the parameters: the results on the same line, then the body. -/
def functionTail : Pattern := textStart ++ (noneOf "\x7b\n;").starLazy ++ bodyBrace

/-- The label of a case or of the default; the colon is not part of `:=`. -/
def caseLabel : Pattern :=
  mark .label
      ((boundary ++ lit "case" ++ boundary ++ (noneOf ":\n" <|> lit ":=").starLazy) <|>
        (boundary ++ lit "default" ++ boundary)) ++
    gap ++ char ':' ++ (noneOf "=" <|> textEnd)

end GoForms

open Pattern GoForms in
/-- The grammar of Go. -/
def Grammar.go : Grammar :=
  { language := .go
    containers := []
    declarations := [DeclarationForm.braced .function functionHeader functionTail]
    keywords := GoForms.keywords
    constructorWords := []
    calls := [BraceFamily.chainCall]
    constructs :=
      [ .ifElse (boundary ++ lit "if" ++ boundary) .upToBrace,
        .loop (boundary ++ lit "for" ++ boundary) .forLoop .upToBrace (some .loop),
        .switch (boundary ++ words "switch" ["select"] ++ boundary) .upToBrace caseLabel ]
    decisions := BraceFamily.decisions
    junctions := BraceFamily.junctions
    decorator := none
    parameterStyle := .nameFirst
    docStyle := .lines "//"
    staticWords := []
    abstractWords := []
    ignoresCase := false }

end CallAtlas
