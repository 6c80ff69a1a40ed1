/-
Module: CallAtlas.Grammar.Script
Purpose: The grammars of JavaScript and TypeScript sources.
Main definitions: Grammar.javascript, Grammar.typescript
-/
import CallAtlas.Grammar.BraceFamily

namespace CallAtlas

/-!
One set of forms serves both languages, because type annotations are optional in every form.
TypeScript has interfaces and some more reserved words.
-/

namespace ScriptForms

open Pattern BraceFamily

/-- Reserved words of both languages. -/
def keywords : List String :=
  [ "if", "else", "for", "while", "do", "switch", "case", "default", "return", "new", "throw",
    "try", "catch", "finally", "break", "continue", "typeof", "instanceof", "in", "of", "void",
    "delete", "function", "class", "extends", "super", "this", "import", "export", "await",
    "yield", "async", "let", "const", "var", "with", "debugger" ]

/-- Reserved words of TypeScript alone. -/
def typeKeywords : List String :=
  [ "as", "satisfies", "keyof", "declare", "namespace", "module", "type", "interface", "enum",
    "implements" ]

/-- A class. -/
def classHeader : Pattern :=
  boundary ++ lit "class" ++ space ++ mark .name plainName ++ (noneOf "\x7b").star ++ char '{'

/-- An interface. -/
def interfaceHeader : Pattern :=
  boundary ++ lit "interface" ++ space ++ mark .name word.plus ++ (noneOf "\x7b").star ++ char '{'

/-- A return type, then a body in braces, or a semicolon after a signature. -/
def bodyTail : Pattern :=
  textStart ++ gap ++ (char ':' ++ gap ++ (noneOf "\x7b;").plusLazy).opt ++ gap ++
    (bodyBrace <|> noBody)

/-- A return type, then an arrow and a body in braces or an expression. -/
def arrowTail : Pattern :=
  textStart ++ gap ++ (char ':' ++ gap ++ (noneOf "=;\x7b").plusLazy).opt ++ gap ++ lit "=>" ++ gap ++
    (bodyBrace <|> bodyExpression)

/-- A body in braces or an expression. -/
def plainTail : Pattern := textStart ++ gap ++ (bodyBrace <|> bodyExpression)

/-- The start of a variable with its name. -/
def variableStart : Pattern :=
  boundary ++ words "const" ["let", "var"] ++ space ++ mark .name plainName

/-- A type annotation up to an equals sign. -/
def typeUpToEquals : Pattern := (char ':' ++ (noneOf "=").plus).opt

/-- The word `async` with blanks after it, if it is there. -/
def asyncWord : Pattern := mark .modifiers (lit "async" ++ space).opt

/-- The word `async`, with or without blanks after it, if it is there. -/
def asyncTight : Pattern := mark .modifiers (lit "async" ++ gap).opt

/-- A name that may be private. -/
def memberName : Pattern := mark .name ((char '#').opt ++ plainName)

/-- A constructor. -/
def constructorHeader : Pattern :=
  indent ++ (words "public" ["private", "protected"] ++ space).opt ++
    mark .name (lit "constructor") ++ gap ++ char '('

/-- A named function. -/
def functionHeader : Pattern :=
  indent ++ (lit "export" ++ space).opt ++ (lit "default" ++ space).opt ++ asyncWord ++
    lit "function" ++ gap ++ (char '*').opt ++ gap ++ mark .name plainName ++ gap ++ angles.opt ++
    gap ++ char '('

/-- A variable whose value is a function expression. -/
def functionVariable : Pattern :=
  variableStart ++ gap ++ typeUpToEquals ++ char '=' ++ gap ++ asyncWord ++ lit "function" ++
    boundary ++ gap ++ (char '*').opt ++ gap ++ plainName.opt ++ gap ++ char '('

/-- A variable whose value is an arrow function with parentheses. -/
def arrowVariable : Pattern :=
  variableStart ++ gap ++ typeUpToEquals ++ char '=' ++ gap ++ asyncTight ++ char '('

/-- A variable whose value is an arrow function with one bare parameter. -/
def bareArrowVariable : Pattern :=
  variableStart ++ gap ++ char '=' ++ gap ++ asyncWord ++ mark .parameters plainName ++ gap ++
    lit "=>"

/-- A method of a class. -/
def methodHeader : Pattern :=
  indent ++ annotationsBefore ++
    mark .modifiers
      (BraceFamily.modifiers "public"
        [ "private", "protected", "static", "async", "readonly", "abstract", "override", "get",
          "set" ]) ++
    (char '*').opt ++ gap ++ memberName ++ gap ++ (char '?').opt ++ gap ++ angles.opt ++ gap ++
    char '('

/-- A member of a class whose value is an arrow function. -/
def arrowMember : Pattern :=
  indent ++ BraceFamily.modifiers "public" ["private", "protected", "static", "readonly"] ++
    memberName ++ gap ++ (char ':' ++ (noneOf "=;").plus).opt ++ char '=' ++ gap ++ asyncTight ++
    char '('

/-- The forms of declaration. -/
def declarations : List DeclarationForm :=
  [ (DeclarationForm.braced .constructor constructorHeader bodyTail).asMember,
    DeclarationForm.braced .function functionHeader bodyTail,
    DeclarationForm.braced .function functionVariable bodyTail,
    DeclarationForm.braced .arrow arrowVariable arrowTail,
    { DeclarationForm.braced .arrow bareArrowVariable plainTail with parameters := .header },
    (DeclarationForm.braced .method methodHeader bodyTail).asMember,
    (DeclarationForm.braced .arrow arrowMember arrowTail).asMember ]

end ScriptForms

open ScriptForms in
/-- The grammar of JavaScript. -/
def Grammar.javascript : Grammar :=
  { language := .javascript
    containers := [⟨classHeader, .braces⟩]
    declarations := ScriptForms.declarations
    keywords := ScriptForms.keywords
    constructorWords := ["new"]
    calls := [BraceFamily.chainCall]
    constructs := BraceFamily.constructs
    decisions := BraceFamily.decisions
    junctions := BraceFamily.junctions
    decorator := some BraceFamily.annotationItem
    parameterStyle := .nameFirst
    docStyle := .block
    staticWords := ["static"]
    abstractWords := ["abstract"]
    ignoresCase := false }

open ScriptForms in
/-- The grammar of TypeScript. -/
def Grammar.typescript : Grammar :=
  { Grammar.javascript with
    language := .typescript
    containers := [⟨classHeader, .braces⟩, ⟨interfaceHeader, .braces⟩]
    keywords := ScriptForms.keywords ++ typeKeywords }

end CallAtlas
