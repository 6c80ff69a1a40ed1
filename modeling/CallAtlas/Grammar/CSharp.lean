/-
Module: CallAtlas.Grammar.CSharp
Purpose: The grammar of C# sources.
Main definitions: Grammar.csharp
-/
import CallAtlas.Grammar.BraceFamily

namespace CallAtlas

namespace CSharpForms

open Pattern BraceFamily

/-- Reserved words. -/
def keywords : List String :=
  [ "if", "else", "for", "foreach", "while", "do", "switch", "case", "default", "return", "new",
    "throw", "try", "catch", "finally", "break", "continue", "using", "lock", "fixed", "checked",
    "unchecked", "typeof", "sizeof", "nameof", "is", "as", "in", "out", "ref", "params", "this",
    "base", "class", "struct", "interface", "enum", "namespace", "await", "yield", "var", "when",
    "where", "operator", "stackalloc", "delegate", "event", "goto" ]

/-- A class, structure, interface or record. -/
def typeHeader : Pattern :=
  boundary ++ words "class" ["struct", "interface", "record"] ++ space ++ mark .name word.plus ++
    (noneOf "\x7b;").star ++ char '{'

/-- The attributes before a declaration. -/
def attributesBefore : Pattern :=
  mark .decorators (char '[' ++ (noneOf "]").star ++ char ']' ++ gap).star

/-- A constructor. -/
def constructorHeader : Pattern :=
  indent ++ attributesBefore ++
    mark .modifiers
      (BraceFamily.modifiers "public" ["private", "protected", "internal", "static"]) ++
    mark .name (one Char.isUpper ++ word.star) ++ gap ++ char '('

/-- What follows the parameters of a constructor. -/
def constructorTail : Pattern :=
  textStart ++ gap ++
    (char ':' ++ gap ++ words "base" ["this"] ++ gap ++ char '(' ++ (noneOf ")").star ++
      char ')').opt ++
    gap ++ (bodyBrace <|> (lit "=>" ++ gap ++ bodyExpression))

/-- A method. -/
def methodHeader : Pattern :=
  indent ++ attributesBefore ++
    mark .modifiers
      (BraceFamily.modifiers "public"
        [ "private", "protected", "internal", "static", "virtual", "override", "abstract",
          "sealed", "async", "extern", "unsafe", "new", "partial", "readonly" ]) ++
    mark .result (wordOr ".<>[]" ++ (wordOr ".<>[],? \t").starLazy) ++
    space ++ mark .name word.plus ++ gap ++ angles.opt ++ gap ++ char '('

/-- What follows the parameters of a method. -/
def methodTail : Pattern :=
  textStart ++ gap ++ (lit "where" ++ space ++ (noneOf "\x7b;=").plusLazy).opt ++ gap ++
    oneOf bodyBrace [lit "=>" ++ gap ++ bodyExpression, noBody]

/-- One attribute list among several. -/
def attributeItem : Pattern := char '[' ++ mark .item (noneOf "]").star ++ char ']'

end CSharpForms

open CSharpForms in
/-- The grammar of C#. -/
def Grammar.csharp : Grammar :=
  { language := .csharp
    containers := [⟨typeHeader, .braces⟩]
    declarations :=
      [ (DeclarationForm.braced .constructor constructorHeader constructorTail).asConstructor,
        DeclarationForm.braced .method methodHeader methodTail ]
    keywords := CSharpForms.keywords
    constructorWords := ["new"]
    calls := [BraceFamily.chainCall]
    constructs :=
      BraceFamily.constructs ++
        [.loop (BraceFamily.headed "foreach") .forLoop .parentheses none]
    decisions := BraceFamily.decisions
    junctions := BraceFamily.junctions
    decorator := some attributeItem
    parameterStyle := .typeFirst
    docStyle := .blockOrLines "///"
    staticWords := ["static"]
    abstractWords := ["abstract"]
    ignoresCase := false }

end CallAtlas
