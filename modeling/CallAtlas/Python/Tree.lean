/-
Module: CallAtlas.Python.Tree
Purpose: The outline of a Python text as a tree.
Main definitions: NodeKind, Role, Tree
-/
import CallAtlas.Text.Basic

namespace CallAtlas.Python

/-- The kinds of node. -/
inductive NodeKind where
  | file
  | functionDefinition (isAsync : Bool)
  | classDefinition
  /-- A definition with the decorators before it. -/
  | decoratedDefinition
  | decorator
  | ifStatement
  | elifClause
  | elseClause
  | forStatement
  | whileStatement
  | tryStatement
  | exceptClause
  | finallyClause
  | matchStatement
  | caseClause
  | withStatement
  | expressionStatement
  /-- Any other statement. -/
  | statement
  | block
  | parameters
  | parameter
  | arguments
  | call
  | attribute
  | subscript
  | identifier
  | string
  /-- Several string literals in a row. -/
  | stringRun
  /-- The operator of a conjunction or disjunction. -/
  | booleanOperator
  /-- Any other expression. -/
  | expression
  | comment
deriving Repr, DecidableEq, Inhabited

/-- What a node is to the node that holds it. -/
inductive Role where
  | plain
  | name
  | body
  | parameters
  | superclasses
  | condition
  | subject
  | left
  | right
  | callee
deriving Repr, DecidableEq, Inhabited

/-- A node: its kind, its role, its byte range and the nodes in it, in the order of the text. -/
inductive Tree where
  | node (kind : NodeKind) (role : Role) (span : Span) (children : List Tree)
deriving Repr, Inhabited

namespace Tree

/-- The kind of a node. -/
def kind : Tree → NodeKind
  | node kind _ _ _ => kind

/-- The role of a node. -/
def role : Tree → Role
  | node _ role _ _ => role

/-- The byte range of a node. -/
def span : Tree → Span
  | node _ _ span _ => span

/-- The nodes in a node. -/
def children : Tree → List Tree
  | node _ _ _ children => children

/-- The node in another role. -/
def withRole (role : Role) : Tree → Tree
  | node kind _ span children => node kind role span children

/-- The first node in a node with a given role. -/
def child? (t : Tree) (role : Role) : Option Tree := t.children.find? (·.role == role)

end Tree

end CallAtlas.Python
