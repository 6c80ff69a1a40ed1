/-
Module: CallAtlas.Grammar.Abap
Purpose: The grammar of ABAP sources.
Main definitions: Grammar.abap
-/
import CallAtlas.Pattern.Vocabulary
import CallAtlas.Scan.Grammar

namespace CallAtlas

/-!
Bodies run from an opening statement to its closing one, and the events of a report run to the next
event or processing block.  Keywords are the same in either case; names keep the case they have.
-/

namespace AbapForms

open Pattern

/-- Reserved words. -/
def keywords : List String :=
  [ "if", "elseif", "else", "endif", "case", "when", "while", "do", "loop", "try", "catch",
    "cleanup", "and", "or", "not", "data", "final", "symbol", "value", "new", "conv", "cast",
    "ref", "cond", "switch", "corresponding", "exact", "reduce", "filter", "check", "exit",
    "return", "raise", "into", "table", "type", "like", "is", "in", "of", "at", "for", "let",
    "then", "method", "form", "perform", "call", "function", "module" ]

/-- Words after which a name and a parenthesis make a value. -/
def constructorWords : List String :=
  [ "new", "conv", "cast", "ref", "value", "corresponding", "exact", "cond", "switch", "reduce",
    "filter" ]

/-- The full stop that ends a statement, perhaps after blanks. -/
def period : Pattern := gap ++ char '.'

/-- The text of a statement up to its full stop. -/
def untilPeriod : Pattern := (noneOf ".").star

/-- A closing statement. -/
def closing (keyword : String) : Pattern := boundary ++ noCase keyword ++ period

/-- A name, with slashes around a namespace. -/
def slashName : Pattern := (wordOr "/").plus

/-- The events of a report. -/
def events : Pattern :=
  oneOf (noCase "START-OF-SELECTION")
    [ noCase "END-OF-SELECTION",
      noCase "INITIALIZATION",
      noCase "LOAD-OF-PROGRAM",
      noCase "TOP-OF-PAGE",
      noCase "END-OF-PAGE",
      noCase "AT" ++ space ++ noCase "SELECTION-SCREEN" ++
        ((space ++ noCase "OUTPUT") <|>
          (space ++ noCase "ON" ++ space ++ (wordOr "-").plus)).opt,
      noCase "AT" ++ space ++ noCase "LINE-SELECTION",
      noCase "AT" ++ space ++ noCase "USER-COMMAND" ]

/-- The implementation of a class, its name put into the given pattern. -/
def classOpening (named : Pattern → Pattern) : Pattern :=
  indent ++ noCase "CLASS" ++ space ++ named slashName ++ space ++ noCase "IMPLEMENTATION" ++ period

/-- The opening statement of a method. -/
def methodOpening (named : Pattern → Pattern) : Pattern :=
  indent ++ noCase "METHOD" ++ space ++ named (wordOr "/~").plus ++ period

/-- The opening statement of a form. -/
def formOpening (named parameters : Pattern → Pattern) : Pattern :=
  indent ++ noCase "FORM" ++ space ++ named (wordOr "/-").plus ++ parameters untilPeriod ++ char '.'

/-- The opening statement of a function module. -/
def functionOpening (named : Pattern → Pattern) : Pattern :=
  indent ++ noCase "FUNCTION" ++ space ++ named slashName ++ period

/-- The opening statement of a dialog module. -/
def moduleOpening (named : Pattern → Pattern) : Pattern :=
  indent ++ noCase "MODULE" ++ space ++ named slashName ++
    (space ++ wordsNoCase "INPUT" ["OUTPUT"]).opt ++ period

/-- The statements around the implementation of a class. -/
def classPair : KeywordPair := ⟨classOpening id, closing "ENDCLASS"⟩

/-- The statements around a method. -/
def methodPair : KeywordPair := ⟨methodOpening id, closing "ENDMETHOD"⟩

/-- The statements around a form. -/
def formPair : KeywordPair := ⟨formOpening id id, closing "ENDFORM"⟩

/-- The statements around a function module. -/
def functionPair : KeywordPair := ⟨functionOpening id, closing "ENDFUNCTION"⟩

/-- The statements around a dialog module. -/
def modulePair : KeywordPair := ⟨moduleOpening id, closing "ENDMODULE"⟩

/-- A declaration between two statements. -/
def between (kind : FunctionKind) (header : Pattern) (pair : KeywordPair) : DeclarationForm :=
  { kind := kind
    header := header
    parameters := .nowhere
    tail := none
    body := .keywords pair
    membersOnly := false
    namedAsContainer := false }

/-- What ends the body of an event. -/
def eventBoundary : Pattern :=
  indent ++
    ((events ++ period) <|>
      (wordsNoCase "FORM" ["CLASS", "MODULE", "FUNCTION"] ++ blank))

/-- The forms of declaration. -/
def declarations : List DeclarationForm :=
  [ between .method (methodOpening (mark .name)) methodPair,
    { between .subroutine (formOpening (mark .name) (mark .parameters)) formPair with
      parameters := .header },
    between .function (functionOpening (mark .name)) functionPair,
    between .subroutine (moduleOpening (mark .name)) modulePair,
    { kind := .event
      header := indent ++ mark .name events ++ period
      parameters := .nowhere
      tail := none
      body := .upTo eventBoundary
      membersOnly := false
      namedAsContainer := false } ]

/-- A chain of names with arrows between. -/
def arrowChain (first later : Pattern) : Pattern :=
  first ++ (words "->" ["=>"] ++ later).star

/-- The start of a name. -/
def nameStart : Pattern := one fun c => c.isAlpha || c == '_' || c == '/'

/-- The forms of call. -/
def calls : List CallForm :=
  [ ⟨boundary ++ noCase "PERFORM" ++ space ++ mark .callee (wordOr "/-").plus, .code, false⟩,
    ⟨boundary ++ noCase "CALL" ++ space ++ noCase "FUNCTION" ++ space ++ char '\'' ++
        mark .callee (one fun c => c != '\'' && !isBlank c).plus ++ char '\'', .literal, false⟩,
    ⟨boundary ++ noCase "CALL" ++ space ++ noCase "METHOD" ++ space ++
        mark .callee (arrowChain slashName (wordOr "/~").plus), .code, false⟩,
    ⟨mark .callee
          (arrowChain (nameStart ++ (wordOr "/").star) (nameStart ++ (wordOr "/~").star)) ++
        char '(', .code, true⟩ ]

/-- The statements around `IF`. -/
def ifPair : KeywordPair :=
  ⟨indent ++ noCase "IF" ++ space ++ mark .condition untilPeriod ++ char '.', closing "ENDIF"⟩

/-- The statements around `CASE`. -/
def casePair : KeywordPair :=
  ⟨indent ++ noCase "CASE" ++ space ++ mark .condition untilPeriod ++ char '.', closing "ENDCASE"⟩

/-- The statements around `LOOP AT`. -/
def loopPair : KeywordPair :=
  ⟨indent ++ noCase "LOOP" ++ space ++ noCase "AT" ++ space ++ mark .condition untilPeriod ++
      char '.',
    closing "ENDLOOP"⟩

/-- The statements around `DO`. -/
def doPair : KeywordPair :=
  ⟨indent ++ noCase "DO" ++ (space ++ mark .condition (noneOf ".").starLazy).opt ++ period,
    closing "ENDDO"⟩

/-- The statements around `WHILE`. -/
def whilePair : KeywordPair :=
  ⟨indent ++ noCase "WHILE" ++ space ++ mark .condition untilPeriod ++ char '.',
    closing "ENDWHILE"⟩

/-- The statements around `TRY`. -/
def tryPair : KeywordPair := ⟨indent ++ noCase "TRY" ++ period, closing "ENDTRY"⟩

/-- A further branch of `IF`. -/
def elseClause : Pattern :=
  indent ++ mark .label (wordsNoCase "ELSEIF" ["ELSE"]) ++ boundary ++ untilPeriod ++ char '.'

/-- A branch of `CASE`. -/
def whenClause : Pattern :=
  indent ++ mark .label (noCase "WHEN" ++ boundary ++ untilPeriod) ++ char '.'

/-- A further branch of `TRY`. -/
def catchClause : Pattern :=
  indent ++
    mark .label
      ((noCase "CATCH" ++ space ++
          (noCase "BEFORE" ++ space ++ noCase "UNWIND" ++ space).opt ++ slashName ++
          (space ++ slashName).starLazy) <|>
        noCase "CLEANUP") ++
    (space ++ noCase "INTO" ++ space ++ untilPeriod).opt ++ period

/-- The forms of construct. -/
def constructs : List ConstructForm :=
  [ .keywords .ifElse ifPair (some elseClause) (some "if"),
    .keywords .switch casePair (some whenClause) none,
    .keywords .forLoop loopPair none none,
    .keywords .loop doPair none none,
    .keywords .whileLoop whilePair none none,
    .keywords .tryCatch tryPair (some catchClause) (some "try") ]

end AbapForms

open Pattern AbapForms in
/-- The grammar of ABAP. -/
def Grammar.abap : Grammar :=
  { language := .abap
    containers := [⟨classOpening (mark .name), .keywords classPair⟩]
    declarations := AbapForms.declarations
    keywords := AbapForms.keywords
    constructorWords := AbapForms.constructorWords
    calls := AbapForms.calls
    constructs := AbapForms.constructs
    decisions :=
      boundary ++ wordsNoCase "IF" ["ELSEIF", "WHEN", "LOOP", "DO", "WHILE", "CATCH"] ++ boundary
    junctions := boundary ++ wordsNoCase "AND" ["OR"] ++ boundary
    decorator := none
    parameterStyle := .sections
    docStyle := .none
    staticWords := []
    abstractWords := []
    ignoresCase := true }

end CallAtlas
