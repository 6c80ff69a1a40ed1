/-
Module: CallAtlas.Scan.Grammar
Purpose: What has to be known of a language to find its declarations, calls and constructs.
Main definitions: Grammar, ContainerForm, DeclarationForm, CallForm, ConstructForm
-/
import CallAtlas.Block.Keywords
import CallAtlas.Language
import CallAtlas.Record.ControlFlow
import CallAtlas.Record.Function

namespace CallAtlas

/-!
A grammar is plain data.  Its patterns are looked for in the view of a file in which comments and
strings are blank, unless the contrary is said.
-/

/-- How the body of a container or declaration is bounded. -/
inductive BodyForm where
  /-- By braces. -/
  | braces
  /-- By an opening and a closing statement; the opening one stands where the header starts. -/
  | keywords (pair : KeywordPair)
  /-- It runs from the header to the next boundary, or to the end of the file. -/
  | upTo (boundary : Pattern)

/-- A class or another container whose members carry its name. -/
structure ContainerForm where
  /-- Marks the `name`.  With braces the body opens at the last character of the match or later. -/
  header : Pattern
  body : BodyForm

/-- Where the names of the parameters are found. -/
inductive ParameterSource where
  /-- Between parentheses; the header ends with the opening one. -/
  | parentheses
  /-- In the group `parameters` of the header. -/
  | header
  /-- They are declared elsewhere. -/
  | nowhere
deriving Repr, DecidableEq, Inhabited

/-- One form of declaration. -/
structure DeclarationForm where
  kind : FunctionKind
  /-- Marks the `name`, and perhaps `decorators`, `modifiers`, `result`, `receiver`,
  `parameters`. -/
  header : Pattern
  parameters : ParameterSource
  /-- What follows the parameters, or the header if there are none.  Marks `block` where a body
  opens, `expression` where an expression body starts, or `terminator` if there is no body. -/
  tail : Option Pattern
  /-- How the body is bounded when there is no `tail`. -/
  body : BodyForm
  /-- Only directly inside a container. -/
  membersOnly : Bool
  /-- Only if the name is that of the container around it. -/
  namedAsContainer : Bool

namespace DeclarationForm

/-- A declaration with parameters in parentheses and a body in braces, anywhere in the file. -/
def braced (kind : FunctionKind) (header tail : Pattern) : DeclarationForm :=
  { kind := kind
    header := header
    parameters := .parentheses
    tail := some tail
    body := .braces
    membersOnly := false
    namedAsContainer := false }

/-- The same form, as a member of a container only. -/
def asMember (form : DeclarationForm) : DeclarationForm := { form with membersOnly := true }

/-- The same form, as a member that bears the name of its container. -/
def asConstructor (form : DeclarationForm) : DeclarationForm :=
  { form with membersOnly := true, namedAsContainer := true }

end DeclarationForm

/-- Which view of the text a call form is looked for in. -/
inductive ViewKind where
  /-- Comments and strings blank. -/
  | code
  /-- Comments blank, strings readable. -/
  | literal
deriving Repr, DecidableEq, Inhabited

/-- One form of call. -/
structure CallForm where
  /-- Marks the `callee`. -/
  pattern : Pattern
  view : ViewKind
  /-- Whether keywords and instantiations are to be left out. -/
  filtered : Bool

/-- How the condition after a keyword is delimited. -/
inductive ConditionForm where
  /-- By parentheses; the header ends with the opening one. -/
  | parentheses
  /-- By the brace that opens the body. -/
  | upToBrace
deriving Repr, DecidableEq, Inhabited

/-- One form of control-flow construct. -/
inductive ConstructForm where
  /-- `if` with the `else if` and `else` parts next to it. -/
  | ifElse (header : Pattern) (condition : ConditionForm)
  /-- A loop; `bare` is its kind when it has no condition. -/
  | loop (header : Pattern) (kind : FlowKind) (condition : ConditionForm) (bare : Option FlowKind)
  /-- `do` with a body in braces and a condition after it; the header ends with the brace. -/
  | doWhile (header : Pattern)
  /-- `try` with the `catch` and `finally` parts next to it. -/
  | tryCatch (header : Pattern)
  /-- `switch`; `labelled` marks the `label` of each branch. -/
  | switch (header : Pattern) (condition : ConditionForm) (labelled : Pattern)
  /-- A construct between two statements.  The opening one may mark a `condition`, `clause` marks
  the `label` of further branches, `first` names the first one. -/
  | keywords (kind : FlowKind) (pair : KeywordPair) (clause : Option Pattern) (first : Option String)

/-- How parameters are written. -/
inductive ParameterStyle where
  /-- A type, then a name. -/
  | typeFirst
  /-- A name, then a type. -/
  | nameFirst
  /-- Sections of names, each with its type behind a keyword. -/
  | sections
deriving Repr, DecidableEq, Inhabited

/-- Where the comment that documents a declaration is found. -/
inductive DocStyle where
  | none
  /-- `/** … */` right before the header. -/
  | block
  /-- Lines with a given start right before the header. -/
  | lines (start : String)
  /-- Either of the two. -/
  | blockOrLines (start : String)
deriving Repr, DecidableEq, Inhabited

/-- Everything needed to read the sources of a language by patterns. -/
structure Grammar where
  language : Language
  containers : List ContainerForm
  /-- Tried in order; of two forms that find the same name the first wins. -/
  declarations : List DeclarationForm
  /-- Words that are neither names of declarations nor types nor callees. -/
  keywords : List String
  /-- Words after which a name and a parenthesis make an instantiation. -/
  constructorWords : List String
  calls : List CallForm
  constructs : List ConstructForm
  /-- Each match adds one to the complexity. -/
  decisions : Pattern
  /-- Each match adds one to the complexity. -/
  junctions : Pattern
  /-- Marks each `item` among the decorators of a declaration. -/
  decorator : Option Pattern
  parameterStyle : ParameterStyle
  docStyle : DocStyle
  /-- Modifiers of a static method. -/
  staticWords : List String
  /-- Modifiers of an abstract method. -/
  abstractWords : List String
  /-- Whether keywords are the same in either case. -/
  ignoresCase : Bool

namespace Grammar

/-- Whether a word is reserved. -/
def isKeyword (g : Grammar) (word : Text) : Bool :=
  g.keywords.contains (String.ofList (if g.ignoresCase then word.toLower else word))

/-- Whether a name after this word is instantiated, not called. -/
def isConstructorWord (g : Grammar) (word : Text) : Bool :=
  g.constructorWords.any fun w =>
    if g.ignoresCase then Text.toLower w.toList == word.toLower else w.toList == word

end Grammar

end CallAtlas
