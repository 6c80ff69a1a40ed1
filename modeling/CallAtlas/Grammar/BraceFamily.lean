/-
Module: CallAtlas.Grammar.BraceFamily
Purpose: Forms that the languages with braces have in common.
Main definitions: chainCall, constructs, caseLabel, annotationsBefore
-/
import CallAtlas.Pattern.Vocabulary
import CallAtlas.Scan.Grammar

namespace CallAtlas.BraceFamily

open Pattern

/-- A name: a letter, `_` or `$`, then word characters and `$`. -/
def plainName : Pattern :=
  one (fun c => c.isAlpha || c == '_' || c == '$') ++ (wordOr "$").star

/-- A chain of names, then an opening parenthesis. -/
def chainCall : CallForm :=
  { pattern :=
      mark .callee
          (plainName ++
            (gap ++ words "?." [".", "->", "::"] ++ gap ++ plainName).star) ++
        gap ++ char '('
    view := .code
    filtered := true }

/-- The keywords that decide between paths. -/
def decisions : Pattern :=
  boundary ++ words "if" ["for", "foreach", "while", "case", "catch"] ++ boundary

/-- The operators that join conditions. -/
def junctions : Pattern := words "&&" ["||"]

/-- The label of a case or of the default. -/
def caseLabel : Pattern :=
  mark .label
      ((boundary ++ lit "case" ++ boundary ++ (noneOf ":\n").starLazy) <|>
        (boundary ++ lit "default" ++ boundary)) ++
    gap ++ words ":" ["->"]

/-- A keyword, then an opening parenthesis. -/
def headed (keyword : String) : Pattern := boundary ++ lit keyword ++ gap ++ char '('

/-- The constructs whose conditions stand in parentheses. -/
def constructs : List ConstructForm :=
  [ .ifElse (headed "if") .parentheses,
    .doWhile (boundary ++ lit "do" ++ gap ++ char '{'),
    .loop (boundary ++ lit "for" ++ gap ++ (lit "await" ++ gap).opt ++ char '(') .forLoop
      .parentheses none,
    .loop (headed "while") .whileLoop .parentheses none,
    .tryCatch (boundary ++ lit "try" ++ boundary),
    .switch (headed "switch") .parentheses caseLabel ]

/-- An annotation with its arguments, without the sign before it. -/
def annotationBody : Pattern :=
  (wordOr ".").plus ++ (gap ++ char '(' ++ (noneOf ")").star ++ char ')').opt

/-- The annotations before a declaration. -/
def annotationsBefore : Pattern :=
  mark .decorators (char '@' ++ annotationBody ++ space).star

/-- One annotation among several. -/
def annotationItem : Pattern := char '@' ++ mark .item annotationBody

/-- Any number of the given words, each with blanks after it. -/
def modifiers (first : String) (others : List String) : Pattern :=
  (words first others ++ space).star

/-- Parameters of a type in angle brackets. -/
def angles : Pattern := char '<' ++ (noneOf ">").star ++ char '>'

/-- The brace that opens a body, marked. -/
def bodyBrace : Pattern := mark .block (char '{')

/-- The semicolon of a declaration without a body, marked. -/
def noBody : Pattern := mark .terminator (char ';')

/-- The first character of an expression body, marked. -/
def bodyExpression : Pattern := mark .expression nonBlank

end CallAtlas.BraceFamily
