/-
Module: CallAtlas.Grammar.Java
Purpose: The grammar of Java sources.
Main definitions: Grammar.java
-/
import CallAtlas.Grammar.BraceFamily

namespace CallAtlas

namespace JavaForms

open Pattern BraceFamily

/-- Reserved words. -/
def keywords : List String :=
  [ "if", "else", "for", "while", "do", "switch", "case", "default", "return", "new", "throw",
    "throws", "try", "catch", "finally", "break", "continue", "synchronized", "assert",
    "instanceof", "this", "super", "class", "interface", "enum", "import", "package", "extends",
    "implements", "goto", "yield" ]

/-- A class, interface, enumeration or record. -/
def typeHeader : Pattern :=
  boundary ++ words "class" ["interface", "enum", "record"] ++ space ++ mark .name word.plus ++
    (noneOf "\x7b;").star ++ char '{'

/-- A constructor. -/
def constructorHeader : Pattern :=
  indent ++ annotationsBefore ++
    mark .modifiers (BraceFamily.modifiers "public" ["private", "protected"]) ++
    mark .name (one Char.isUpper ++ word.star) ++ gap ++ char '('

/-- What follows the parameters of a constructor. -/
def constructorTail : Pattern :=
  textStart ++ gap ++
    (lit "throws" ++ space ++ (one fun c => isWordChar c || isBlank c || c == '.' || c == ',').plusLazy).opt ++
    gap ++ bodyBrace

/-- A method. -/
def methodHeader : Pattern :=
  indent ++ annotationsBefore ++
    mark .modifiers
      (BraceFamily.modifiers "public"
        [ "private", "protected", "static", "final", "abstract", "synchronized", "native",
          "default", "strictfp" ]) ++
    (angles ++ space).opt ++
    mark .result (wordOr ".$<>[]" ++ (wordOr ".$<>[],? \t").starLazy) ++
    space ++ mark .name word.plus ++ gap ++ char '('

/-- What follows the parameters of a method. -/
def methodTail : Pattern :=
  textStart ++ gap ++
    (lit "throws" ++ space ++
      (one fun c => isWordChar c || isBlank c || ".,<>".toList.contains c).plusLazy).opt ++
    gap ++ (bodyBrace <|> noBody)

end JavaForms

open JavaForms in
/-- The grammar of Java. -/
def Grammar.java : Grammar :=
  { language := .java
    containers := [⟨typeHeader, .braces⟩]
    declarations :=
      [ (DeclarationForm.braced .constructor constructorHeader constructorTail).asConstructor,
        DeclarationForm.braced .method methodHeader methodTail ]
    keywords := JavaForms.keywords
    constructorWords := ["new"]
    calls := [BraceFamily.chainCall]
    constructs := BraceFamily.constructs
    decisions := BraceFamily.decisions
    junctions := BraceFamily.junctions
    decorator := some BraceFamily.annotationItem
    parameterStyle := .typeFirst
    docStyle := .block
    staticWords := ["static"]
    abstractWords := ["abstract"]
    ignoresCase := false }

end CallAtlas
