/-
Module: CallAtlas.Python.Expression
Purpose: The calls, chains, strings and junctions in the expressions of a Python text.
Main definitions: keywords, Pending, operands, expression
-/
import CallAtlas.Python.Shape
import CallAtlas.Python.Tree

namespace CallAtlas.Python

/-!
An expression is read as the row of its operands.  An operand is a name, a literal or a bracketed
group, together with what follows it directly: an attribute, an argument list or a subscript.  The
operators between the operands are passed over, except `and` and `or`, each of which is a node of
its own.  That is all the outline needs: how operators bind does not change which calls there are,
nor their order in the text.
-/

/-- Words that are neither names nor literals. -/
def keywords : List String :=
  [ "and", "as", "assert", "async", "await", "break", "class", "continue", "def", "del", "elif",
    "else", "except", "finally", "for", "from", "global", "if", "import", "in", "is", "lambda",
    "nonlocal", "not", "or", "pass", "raise", "return", "try", "while", "with", "yield" ]

/-- Words that are literals. -/
def constants : List String := ["True", "False", "None"]

/-- An operand that may still go on. -/
inductive Pending where
  | none
  | operand (t : Tree)
  /-- An operand and the dot after it. -/
  | dotted (t : Tree)
deriving Repr, Inhabited

/-- What is finished when nothing more follows. -/
def Pending.finish : Pending → List Tree
  | none => []
  | operand t => [t]
  | dotted t => [t]

/-- The node of an operand that starts with a token, or what the token is instead. -/
def startToken (token : Token) : List Tree × Pending :=
  let word := String.ofList token.text
  match token.kind with
  | .word =>
    if word = "and" || word = "or" then ([.node .booleanOperator .plain token.span []], .none)
    else if keywords.contains word then ([], .none)
    else if constants.contains word then ([], .operand (.node .expression .plain token.span []))
    else ([], .operand (.node .identifier .plain token.span []))
  | .number => ([], .operand (.node .expression .plain token.span []))
  | .symbol =>
    if word = "..." then ([], .operand (.node .expression .plain token.span [])) else ([], .none)
  | _ => ([], .none)

/-- The node of an operand that starts with a group, given the operands inside. -/
def startGroup (bracket : Bracket) (span : Span) (inside : List Tree) : Tree :=
  .node (if bracket = .quote then .string else .expression) .plain span inside

/-- A larger operand that starts where a smaller one does. -/
def extendOperand (kind : NodeKind) (t : Tree) (stop : Nat) (more : List Tree) : Tree :=
  .node kind .plain ⟨t.span.start, stop⟩ (t.withRole .callee :: more)

/-- Reads one shape after a pending operand, given the operands inside the shape: what is finished,
and what is pending then. -/
def Pending.step (p : Pending) (s : Shape) (inside : List Tree) : List Tree × Pending :=
  match p, s with
  | operand t, .group .round span _ =>
    ([], operand (extendOperand .call t span.stop [.node .arguments .plain span inside]))
  | operand t, .group .square span _ => ([], operand (extendOperand .subscript t span.stop inside))
  | operand t, .group .quote span _ =>
    if t.kind = .string || t.kind = .stringRun then
      ([], operand (extendOperand .stringRun t span.stop [startGroup .quote span inside]))
    else ([t], operand (startGroup .quote span inside))
  | dotted t, .leaf token =>
    if token.kind = .word then
      let name := .node .identifier .name token.span []
      ([], operand (extendOperand .attribute t token.span.stop [name]))
    else (t :: (startToken token).1, (startToken token).2)
  | operand t, .leaf token =>
    if s.isSymbol "." then ([], dotted t) else (t :: (startToken token).1, (startToken token).2)
  | none, .leaf token => startToken token
  | _, .group bracket span _ => (p.finish, operand (startGroup bracket span inside))

mutual

/-- The operands inside a shape. -/
def Shape.inside : Shape → List Tree
  | .leaf _ => []
  | .group _ _ items => operandsAfter .none items

/-- The operands of a row of shapes after a pending operand. -/
def operandsAfter (p : Pending) : List Shape → List Tree
  | [] => p.finish
  | s :: more =>
    let step := p.step s s.inside
    step.1 ++ operandsAfter step.2 more

end

/-- The operands of a row of shapes. -/
def operands (shapes : List Shape) : List Tree := operandsAfter .none shapes

/-- The expression in a row of shapes, in a given role; nothing if there are no shapes. -/
def expression (role : Role) (shapes : List Shape) : List Tree :=
  match spanOf shapes with
  | some span => [.node .expression role span (operands shapes)]
  | none => []

/-- Splits a row of shapes at its first colon, leaving aside the colons of lambdas, of which
`lambdas` are open. -/
def splitColon? (lambdas : Nat) : List Shape → Option (List Shape × Shape × List Shape)
  | [] => none
  | s :: more =>
    if s.isSymbol ":" && lambdas == 0 then some ([], s, more)
    else
      let nested :=
        if s.isWord "lambda" then lambdas + 1 else if s.isSymbol ":" then lambdas - 1 else lambdas
      (splitColon? nested more).map fun (front, colon, rest) => (s :: front, colon, rest)

/-- Splits a row of shapes at its commas, leaving aside those between a lambda and its colon. -/
def splitCommas (lambdas : Nat) : List Shape → List (List Shape)
  | [] => [[]]
  | s :: more =>
    if s.isSymbol "," && lambdas == 0 then [] :: splitCommas 0 more
    else
      let nested :=
        if s.isWord "lambda" then lambdas + 1 else if s.isSymbol ":" then lambdas - 1 else lambdas
      match splitCommas nested more with
      | part :: parts => (s :: part) :: parts
      | [] => [[s]]

/-- The name at the start of a parameter, with its stars, and the shapes after it. -/
def parameterName (shapes : List Shape) : Option Span × List Shape :=
  match shapes with
  | s :: rest =>
    if s.isSymbol "*" || s.isSymbol "**" then
      match rest with
      | name :: more => (some ⟨s.span.start, name.span.stop⟩, more)
      | [] => (none, [])
    else
      match s with
      | .leaf token => if token.kind = .word then (some token.span, rest) else (none, rest)
      | .group _ span _ =>
        if rest.head?.any (·.isSymbol "=") then (some span, rest) else (none, rest)
  | [] => (none, [])

/-- The node of a parameter: its name, and the operands of its type and default. -/
def parameter (shapes : List Shape) : List Tree :=
  match spanOf shapes with
  | some span =>
    let (name, rest) := parameterName shapes
    let names := name.toList.map fun s => Tree.node .identifier .name s []
    [.node .parameter .plain span (names ++ operands rest)]
  | none => []

/-- The node of a parameter list. -/
def parameters (span : Span) (items : List Shape) : Tree :=
  .node .parameters .parameters span ((splitCommas 0 items).flatMap parameter)

end CallAtlas.Python
