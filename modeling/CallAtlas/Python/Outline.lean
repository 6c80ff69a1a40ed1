/-
Module: CallAtlas.Python.Outline
Purpose: The statements and blocks of a Python text as a tree.
Main definitions: simpleStatements, suite, clauses, statements, outline
-/
import CallAtlas.Python.Expression

namespace CallAtlas.Python

/-!
Statements are read line by line.  A block is known by the indentation of its first line, its
level: it ends before the first line with less.  Comment lines stand in the block around them.  After
the last statement of a block each comment that is indented at least as far as the block still
belongs to it; the first one that is not ends the block.
-/

/-- Trees that were read, and the lines left. -/
abbrev Outlined := List Tree × List Line

/-- A reader of the statements of a block, given the level of the block. -/
abbrev BlockReader := Nat → List Line → Outlined

/-- The node of a simple statement; nothing if it is empty.  A string literal at the start counts as
a node of its own if no operator follows it. -/
def simpleStatement (shapes : List Shape) : List Tree :=
  match spanOf shapes with
  | none => []
  | some span =>
    let children :=
      match shapes with
      | first :: rest =>
        if first.isString && rest.head?.all (·.isSymbol ",") then operands shapes
        else expression .plain shapes
      | [] => []
    [.node .expressionStatement .plain span children]

/-- Splits a row of shapes at its semicolons. -/
def splitSemicolons : List Shape → List (List Shape)
  | [] => [[]]
  | s :: more =>
    if s.isSymbol ";" then [] :: splitSemicolons more
    else
      match splitSemicolons more with
      | part :: parts => (s :: part) :: parts
      | [] => [[s]]

/-- The simple statements on a line. -/
def simpleStatements (shapes : List Shape) : List Tree :=
  (splitSemicolons shapes).flatMap simpleStatement

/-- A node that ends where the last node in it does. -/
def nodeFrom (kind : NodeKind) (start : Nat) (children : List Tree) : Tree :=
  .node kind .plain ⟨start, (children.getLast?.map (·.span.stop)).getD start⟩ children

/-- The node of a block; one without statements stands at a given place. -/
def blockNode (place : Nat) (children : List Tree) : Tree :=
  let start := (children.head?.map (·.span.start)).getD place
  (nodeFrom .block start children).withRole .body

/-- The block after the colon of a header in a block of a given level: the rest of the line, or the
lines that follow if they are indented further. -/
def suite (inner : BlockReader) (level : Nat) (colon : Shape) (rest : List Shape)
    (lines : List Line) : Tree × List Line :=
  let place := colon.span.stop
  if !rest.isEmpty then (blockNode place (simpleStatements rest), lines)
  else
    match lines.dropWhile (·.isComment) with
    | [] => (blockNode place [], lines)
    | first :: more =>
      if level < first.indent then
        let (children, left) := inner first.indent (first :: more)
        (blockNode place children, left)
      else (blockNode place [], lines)

/-- The kind of the clause that a word starts. -/
def clauseKind? (shape : Shape) : Option NodeKind :=
  if shape.isWord "elif" then some .elifClause
  else if shape.isWord "else" then some .elseClause
  else if shape.isWord "except" then some .exceptClause
  else if shape.isWord "finally" then some .finallyClause
  else none

/-- The further clauses of a statement in a block of a given level. -/
def clauses (inner : BlockReader) (level : Nat) (allowed : List NodeKind) :
    Nat → List Line → Outlined
  | 0, lines => ([], lines)
  | fuel + 1, lines =>
    match lines.dropWhile (·.isComment) with
    | line :: more =>
      match line.shapes, splitColon? 0 (line.shapes.drop 1) with
      | word :: _, some (header, colon, rest) =>
        match clauseKind? word with
        | some kind =>
          if level ≤ line.indent && allowed.contains kind then
            let (block, left) := suite inner level colon rest more
            let node := nodeFrom kind word.span.start (expression .condition header ++ [block])
            let (nodes, left) := clauses inner level allowed fuel left
            (node :: nodes, left)
          else ([], lines)
        | none => ([], lines)
      | _, _ => ([], lines)
    | [] => ([], lines)

/-- Whether a comment line belongs to a block of a given level, given the lines after it. -/
def keepsComment (level : Nat) (comment : Line) (after : List Line) : Bool :=
  let next := ((after.find? fun l => !l.isComment).map (·.indent)).getD 0
  level ≤ next || level ≤ comment.indent

/-- The node of the comment on a line. -/
def commentNode (line : Line) : List Tree :=
  line.comment.toList.map fun span => .node .comment .plain span []

/-- The guard of a case: what follows its `if`. -/
def guardOf (header : List Shape) : List Shape :=
  (header.dropWhile fun s => !s.isWord "if").drop 1

/-- The cases of a match statement, in a block of a given level.  Patterns hold no expressions. -/
def caseClauses (inner : BlockReader) (level : Nat) : Nat → List Line → Outlined
  | 0, lines => ([], lines)
  | fuel + 1, lines =>
    match lines with
    | [] => ([], [])
    | line :: more =>
      if line.isComment then
        if keepsComment level line more then
          let (nodes, left) := caseClauses inner level fuel more
          (commentNode line ++ nodes, left)
        else ([], lines)
      else if level ≤ line.indent then
        match line.shapes, splitColon? 0 line.shapes with
        | word :: _, some (header, colon, rest) =>
          let (block, left) := suite inner level colon rest more
          let guard := expression .condition (guardOf header)
          let node := nodeFrom .caseClause word.span.start (guard ++ [block])
          let (nodes, left) := caseClauses inner level fuel left
          (node :: nodes, left)
        | _, _ => caseClauses inner level fuel more
      else ([], lines)

/-- The node of the name of a definition, the second shape of its header. -/
def definedName (header : List Shape) : List Tree :=
  (header[1]?).toList.map fun s => .node .identifier .name s.span []

/-- The parts of the header of a function: its name, its parameters and its other expressions. -/
def functionHeader (header : List Shape) : List Tree :=
  let afterName := header.drop 2
  let isParameters := fun s : Shape => match s with | .group .round _ _ => true | _ => false
  let typed := expression .plain (afterName.takeWhile fun s => !isParameters s)
  match afterName.dropWhile fun s => !isParameters s with
  | .group _ span items :: rest =>
    definedName header ++ typed ++ [parameters span items] ++ expression .plain rest
  | _ => definedName header

/-- The parts of the header of a class: its name and its superclasses. -/
def classHeader (header : List Shape) : List Tree :=
  definedName header ++ (header.drop 2).flatMap fun s =>
    match s with
    | .group .round span items => [.node .arguments .superclasses span (operands items)]
    | _ => []

/-- The parts of the header of a loop over values. -/
def loopHeader (header : List Shape) : List Tree :=
  let afterFor := header.drop 1
  expression .left (afterFor.takeWhile fun s => !s.isWord "in") ++
    expression .right ((afterFor.dropWhile fun s => !s.isWord "in").drop 1)

/-- The subjects of a match statement. -/
def subjects (header : List Shape) : List Tree :=
  (splitCommas 0 (header.drop 1)).flatMap (expression .subject)

/-- The compound statement that starts with a given line; nothing if the line starts none. -/
def compound? (inner : BlockReader) (fuel level : Nat) (line : Line) (more : List Line) :
    Option (Tree × List Line) := do
  let first ← line.shapes.head?
  let isAsync := first.isWord "async"
  let shapes := if isAsync then line.shapes.drop 1 else line.shapes
  let word ← shapes.head?
  let (header, colon, rest) ← splitColon? 0 shapes
  let start := first.span.start
  let plain := fun kind parts allowed =>
    let (block, left) := suite inner level colon rest more
    let (nodes, left) := clauses inner level allowed fuel left
    (nodeFrom kind start (parts ++ [block] ++ nodes), left)
  if word.isWord "def" then
    return plain (.functionDefinition isAsync) (functionHeader header) []
  else if word.isWord "class" then
    return plain .classDefinition (classHeader header) []
  else if word.isWord "if" then
    return plain .ifStatement (expression .condition (header.drop 1)) [.elifClause, .elseClause]
  else if word.isWord "for" then
    return plain .forStatement (loopHeader header) [.elseClause]
  else if word.isWord "while" then
    return plain .whileStatement (expression .condition (header.drop 1)) [.elseClause]
  else if word.isWord "try" then
    return plain .tryStatement [] [.exceptClause, .elseClause, .finallyClause]
  else if word.isWord "with" then
    return plain .withStatement (expression .plain (header.drop 1)) []
  else if word.isWord "match" && rest.isEmpty && 2 ≤ header.length then
    let readCases : BlockReader := fun level lines => caseClauses inner level fuel lines
    let (block, left) := suite readCases level colon rest more
    return (nodeFrom .matchStatement start (subjects header ++ [block]), left)
  else none

/-- The node of a decorator line.  A comment on the line belongs to it. -/
def decoratorNode (line : Line) : List Tree :=
  match spanOf line.shapes with
  | some span =>
    let stop := (line.comment.map (·.stop)).getD span.stop
    [.node .decorator .plain ⟨span.start, stop⟩ (operands (line.shapes.drop 1))]
  | none => []

/-- Whether a line is a decorator. -/
def Line.isDecorator (l : Line) : Bool := l.shapes.head?.any (·.isSymbol "@")

/-- The statements that start on a given line. -/
def statementsAt (inner : BlockReader) (fuel level : Nat) (line : Line) (more : List Line) :
    Outlined :=
  if line.isDecorator then
    let others := more.takeWhile fun l => l.isComment || l.isDecorator
    let decorators := (line :: others).flatMap decoratorNode
    match more.drop others.length with
    | definition :: after =>
      match compound? inner fuel level definition after with
      | some (node, left) =>
        let start := (decorators.head?.map (·.span.start)).getD 0
        ([nodeFrom .decoratedDefinition start (decorators ++ [node])], left)
      | none => (decorators, definition :: after)
    | [] => (decorators, [])
  else
    match compound? inner fuel level line more with
    | some (node, left) => ([node], left)
    | none => (simpleStatements line.shapes, more)

/-- The statements of a block of a given level.  Each step reads at least one line; `fuel` is at
least the number of lines. -/
def statements : Nat → BlockReader
  | 0, _, lines => ([], lines)
  | fuel + 1, level, lines =>
    match lines with
    | [] => ([], [])
    | line :: more =>
      if line.isComment then
        if keepsComment level line more then
          let (nodes, left) := statements fuel level more
          (commentNode line ++ nodes, left)
        else ([], lines)
      else if level ≤ line.indent then
        let (front, left) := statementsAt (statements fuel) fuel level line more
        let (nodes, left) := statements fuel level left
        (front ++ nodes, left)
      else ([], lines)

/-- The outline of a text. -/
def outline (t : Text) : Tree :=
  let lines := linesOf t
  .node .file .plain ⟨0, t.size⟩ (statements (lines.length + 1) 0 lines).1

end CallAtlas.Python
