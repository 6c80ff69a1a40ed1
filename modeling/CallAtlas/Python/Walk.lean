/-
Module: CallAtlas.Python.Walk
Purpose: The records of a Python file, from the outline of its text.
Main definitions: Scope, Yield, walk, recordsOf
-/
import CallAtlas.Python.Docstring
import CallAtlas.Python.Tree
import CallAtlas.Record.FileRecords

namespace CallAtlas.Python

/-- Where a node stands. -/
structure Scope where
  /-- The innermost function around it. -/
  functionId : Option String
  /-- The class whose body it is directly in. -/
  className : Option String
  /-- The names of the classes and functions around it, with dots between them. -/
  path : Option String
  /-- The control flow around it inside the innermost function, the innermost first. -/
  flows : List FlowKind
deriving Repr, DecidableEq, Inhabited

namespace Scope

/-- Outside of everything. -/
def outermost : Scope := ⟨none, none, none, []⟩

/-- The path of a name declared here. -/
def pathOf (s : Scope) (name : String) : String :=
  match s.path with
  | some path => path ++ "." ++ name
  | none => name

/-- Inside the body of a function declared here. -/
def enterFunction (s : Scope) (name id : String) : Scope :=
  ⟨some id, none, some (s.pathOf name), []⟩

/-- Inside the body of a class declared here. -/
def enterClass (s : Scope) (name : String) : Scope :=
  { s with className := some name, path := some (s.pathOf name) }

/-- Inside a control-flow construct that stands here. -/
def enterFlow (s : Scope) (kind : FlowKind) : Scope := { s with flows := kind :: s.flows }

end Scope

/-- What was found in a part of the tree, each kind in the order it was found.  Calls and control
flows have their ids set later, when the order in the file is known. -/
structure Yield where
  functions : List Function
  calls : List Call
  controlFlows : List ControlFlow
deriving Repr, DecidableEq, Inhabited

namespace Yield

/-- Nothing found. -/
def empty : Yield := ⟨[], [], []⟩

/-- What was found in one part, then in another. -/
def append (a b : Yield) : Yield :=
  ⟨a.functions ++ b.functions, a.calls ++ b.calls, a.controlFlows ++ b.controlFlows⟩

instance : Append Yield := ⟨append⟩

end Yield

/-- Whether a kind of node adds one to the complexity of the functions around it. -/
def NodeKind.isDecision : NodeKind → Bool
  | ifStatement | elifClause | forStatement | whileStatement | exceptClause | booleanOperator => true
  | _ => false

mutual

/-- Number of decisions in a node, itself included. -/
def Tree.decisions : Tree → Nat
  | .node kind _ _ children => (if kind.isDecision then 1 else 0) + decisionsIn children

/-- Number of decisions in several nodes. -/
def decisionsIn : List Tree → Nat
  | [] => 0
  | t :: more => t.decisions + decisionsIn more

end

/-- The control flow that a kind of node is. -/
def NodeKind.flow? : NodeKind → Option FlowKind
  | ifStatement => some .ifElse
  | forStatement => some .forLoop
  | whileStatement => some .whileLoop
  | tryStatement => some .tryCatch
  | matchStatement => some .switch
  | _ => none

/-- Whether one of several decorators has a given name, or a dotted name that ends in it. -/
def hasDecorator (decorators : List String) (name : String) : Bool :=
  decorators.any fun d => d = name || Text.endsWith d.toList ('.' :: name.toList)

/-- The kind of a function in the body of a class. -/
def methodKind (name : String) (decorators : List String) : FunctionKind :=
  if hasDecorator decorators "staticmethod" || hasDecorator decorators "classmethod" then
    .staticMethod
  else if hasDecorator decorators "abstractmethod" then .abstractMethod
  else if name = "__init__" then .constructor
  else .method

namespace Tree

/-- The text of a node. -/
def text (t : Tree) (source : Text) : Text := source.slice t.span

/-- The name that a definition declares. -/
def definedName (t : Tree) (source : Text) : String :=
  String.ofList (((t.child? .name).map (·.text source)).getD [])

/-- Whether a definition declares a name. -/
def isNamed (t : Tree) : Bool := (t.child? .name).isSome

/-- The names of the parameters of a function. -/
def parameterNames (t : Tree) (source : Text) : List String :=
  match t.child? .parameters with
  | some list => list.children.filterMap fun p =>
      (p.child? .name).map fun name => String.ofList (name.text source)
  | none => []

/-- The string that the body of a definition starts with. -/
def docstringNode? (t : Tree) : Option Tree := do
  let body ← t.child? .body
  let first ← body.children.head?
  let string ← first.children.head?
  if first.kind = .expressionStatement && string.kind = .string then some string else none

/-- The documentation of a definition. -/
def docstring (t : Tree) (source : Text) : Checked (Option String) :=
  match t.docstringNode? with
  | none => .ok none
  | some string => docstringText (string.text source)

/-- The decorators of a decorated definition, without their signs. -/
def decorators (t : Tree) (source : Text) : List String :=
  (t.children.filter (·.kind = .decorator)).map fun d =>
    String.ofList (Text.trim ((d.text source).dropWhile (· == '@')))

/-- The header of a clause on one line, without the colon at its end. -/
def clauseHeader (t : Tree) (source : Text) : String :=
  let stop := ((t.child? .body).map (·.span.start)).getD t.span.stop
  let front := Text.trim (source.slice ⟨t.span.start, stop⟩)
  String.ofList (Text.collapse (front.reverse.dropWhile (· == ':')).reverse)

/-- The branch names of the clauses of a statement. -/
def clauseBranches (t : Tree) (source : Text) : List String :=
  t.children.filterMap fun c =>
    match c.kind with
    | .elifClause => some "elif"
    | .elseClause => some "else"
    | .exceptClause => some (c.clauseHeader source)
    | .finallyClause => some "finally"
    | .caseClause => some (c.clauseHeader source)
    | _ => none

/-- The text of the part of a node with a given role. -/
def partText? (t : Tree) (role : Role) (source : Text) : Option Text :=
  (t.child? role).map (·.text source)

/-- The condition of a control-flow construct. -/
def condition? (t : Tree) (kind : FlowKind) (source : Text) : Option Text :=
  match kind with
  | .ifElse | .whileLoop => t.partText? .condition source
  | .forLoop => do
    return (← t.partText? .left source) ++ " in ".toList ++ (← t.partText? .right source)
  | .switch => t.partText? .subject source
  | _ => none

/-- The branches of a control-flow construct. -/
def branches (t : Tree) (kind : FlowKind) (source : Text) : List String :=
  match kind with
  | .ifElse => "if" :: t.clauseBranches source
  | .tryCatch => "try" :: t.clauseBranches source
  | .switch => ((t.child? .body).map (·.clauseBranches source)).getD []
  | _ => []

end Tree

/-- The record of a function.  There is no documentation in it where it cannot be cut out; for which
trees that happens is a matter of proof. -/
def functionRecord (file : SourceFile) (scope : Scope) (decorators : List String) (isAsync : Bool)
    (t : Tree) : Function :=
  let name := t.definedName file.text
  let qualified := qualify file.moduleName scope.path name
  let line := file.text.lineAt t.span.start
  { id := functionId qualified line
    kind := if scope.className.isSome then methodKind name decorators else .function
    name := name
    qualifiedName := qualified
    moduleName := file.moduleName
    filePath := file.path
    line := line
    endLine := file.text.lineAt t.span.stop
    parameters := t.parameterNames file.text
    decorators := decorators
    isAsync := isAsync
    isMethod := scope.className.isSome
    className := scope.className
    docstring := (t.docstring file.text).toOption.join
    complexity := 1 + t.decisions }

/-- The record of a class. -/
def classRecord (file : SourceFile) (scope : Scope) (decorators : List String) (t : Tree) :
    Function :=
  { functionRecord file scope decorators false t with
    kind := .container
    parameters := []
    isMethod := false
    className := none
    complexity := 1 }

/-- The record of a call in a function.  Only calls of a name or of an attribute have one. -/
def callRecord (file : SourceFile) (scope : Scope) (t : Tree) : List Call :=
  match scope.functionId, t.child? .callee with
  | some id, some target =>
    if target.kind = .identifier || target.kind = .attribute then
      [ { id := ""
          callerId := id
          calleeName := String.ofList (Text.squeeze (target.text file.text))
          calleeId := none
          callType := none
          filePath := file.path
          line := file.text.lineAt t.span.start
          isConditional := scope.flows.any (·.isConditional)
          isLoop := scope.flows.any (·.isLoop) } ]
    else []
  | _, _ => []

/-- The record of a control-flow construct in a function. -/
def flowRecord (file : SourceFile) (limit : Nat) (scope : Scope) (kind : FlowKind) (t : Tree) :
    List ControlFlow :=
  match scope.functionId with
  | some id =>
    [ { id := ""
        kind := kind
        parentId := id
        filePath := file.path
        line := file.text.lineAt t.span.start
        endLine := file.text.lineAt t.span.stop
        condition := (t.condition? kind file.text).bind (snippet? · limit)
        branches := t.branches kind file.text } ]
  | none => []

mutual

/-- What a node yields in a scope.  `decorators` are those of the decorated definition that the node
stands in directly.  The body of a function comes before its parameters, whose defaults belong to
the scope around it.  A definition without a name is nothing but its parts. -/
def walk (file : SourceFile) (limit : Nat) (scope : Scope) (decorators : List String) :
    Tree → Yield
  | .node kind role span children =>
    let t := Tree.node kind role span children
    match kind with
    | .functionDefinition isAsync =>
      if t.isNamed then
        let f := functionRecord file scope decorators isAsync t
        ⟨[f], [], []⟩ ++ walkRole file limit (scope.enterFunction f.name f.id) .body children ++
          walkRole file limit scope .parameters children
      else walkAll file limit scope [] children
    | .classDefinition =>
      if t.isNamed then
        let f := classRecord file scope decorators t
        ⟨[f], [], []⟩ ++ walkRole file limit scope .superclasses children ++
          walkRole file limit (scope.enterClass f.name) .body children
      else walkAll file limit scope [] children
    | .decoratedDefinition => walkAll file limit scope (t.decorators file.text) children
    | .call => ⟨[], callRecord file scope t, []⟩ ++ walkAll file limit scope [] children
    | _ =>
      match kind.flow? with
      | some flow =>
        ⟨[], [], flowRecord file limit scope flow t⟩ ++
          walkAll file limit (scope.enterFlow flow) [] children
      | none => walkAll file limit scope [] children

/-- What several nodes yield, in order. -/
def walkAll (file : SourceFile) (limit : Nat) (scope : Scope) (decorators : List String) :
    List Tree → Yield
  | [] => .empty
  | t :: more => walk file limit scope decorators t ++ walkAll file limit scope decorators more

/-- What the first node with a given role yields. -/
def walkRole (file : SourceFile) (limit : Nat) (scope : Scope) (role : Role) : List Tree → Yield
  | [] => .empty
  | t :: more =>
    if t.role = role then walk file limit scope [] t else walkRole file limit scope role more

end

/-- The records of a Python file with a given tree, entry points apart.  Conditions are cut after
`limit` characters. -/
def recordsOf (file : SourceFile) (limit : Nat) (tree : Tree) : FileRecords :=
  let found := walk file limit .outermost [] tree
  { path := file.path
    moduleName := file.moduleName
    functions := found.functions
    calls := found.calls.mapIdx fun i c => { c with id := callId file.path i }
    controlFlows := found.controlFlows.mapIdx fun i c => { c with id := flowId file.path i }
    entryPoints := [] }

end CallAtlas.Python
