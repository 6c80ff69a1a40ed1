/-
Module: CallAtlas.Scan.Declaration
Purpose: The declarations of a file.
Main definitions: Declaration, DeclarationForm.read?, findDeclarations
-/
import CallAtlas.Scan.Container
import CallAtlas.Scan.DocComment
import CallAtlas.Scan.Parameter

namespace CallAtlas

/-!
Headers are looked for in the view without comments and strings.  Decorators are read from the view
with strings and doc comments from the text itself, at the same offsets.
-/

/-- The three views of a file.  All have the same byte offsets and lines. -/
structure Views where
  /-- The text itself. -/
  raw : Text
  /-- Comments and strings blank. -/
  code : Text
  /-- Comments blank. -/
  literal : Text
deriving Repr, DecidableEq, Inhabited

/-- A declaration found in a file. -/
structure Declaration where
  kind : FunctionKind
  name : String
  /-- Where the name starts. -/
  nameAt : Nat
  /-- The range of the whole declaration, header included. -/
  span : Span
  /-- The range of the body, if there is one. -/
  body : Option Span
  parameters : List String
  decorators : List String
  isAsync : Bool
  className : Option String
  /-- The path of the classes around it. -/
  scope : Option String
  docstring : Option String
deriving Repr, DecidableEq, Inhabited

/-- Whether another declaration lies in the body of this one. -/
def Declaration.encloses (d other : Declaration) : Bool :=
  match d.body with
  | some body => body.start ≤ other.span.start && other.span.stop ≤ body.stop
  | none => false

/-- Whether a text contains a reserved word. -/
def hasKeyword (g : Grammar) (t : Text) : Bool :=
  (t.splitBy fun c => !(isNameChar c || c == '_' || c == '$')).any fun token =>
    !token.isEmpty && g.isKeyword token

/-- The type of a receiver such as `s *Server` or `r *Repo[T]`. -/
def receiverType? (receiver : Text) : Option String := do
  let last ← receiver.words.getLast?
  nonEmpty? ((last.dropWhile (· == '*')).takeWhile (· != '['))

/-- The decorators in a text, each on one line. -/
def decoratorsIn (g : Grammar) (t : Text) : List String :=
  match g.decorator with
  | none => []
  | some pattern =>
    let items := (pattern.findAll t).filterMap fun m => (m.group? .item).map t.slice
    (items.flatMap splitTopLevel).map fun d => String.ofList d.collapse

/-- The marked part of a header, empty if it is not marked. -/
def Match.textOf (m : Match) (t : Text) (g : Group) : Text :=
  ((m.group? g).map t.slice).getD []

/-- The text of the parameters and the offset after them. -/
def ParameterSource.read? (source : ParameterSource) (code : Text) (header : Match) :
    Option (Text × Nat) :=
  match source with
  | .parentheses =>
    (Block.braced? code (header.stop - 1) '(' ')').map fun b => (b.body, b.stop)
  | .header => some (header.textOf code .parameters, header.stop)
  | .nowhere => some ([], header.stop)

/-- The body that a tail announces and the end of the declaration.  The tail is looked for in the
text after the parameters. -/
def bodyAfterTail? (code : Text) (after : Nat) (tail : Pattern) : Option (Option Span × Nat) := do
  let found ← tail.find? (← code.from? after)
  match found.group? .block with
  | some brace =>
    let block ← Block.braced? code (after + brace.start) '{' '}'
    some (some block.bodySpan, block.stop)
  | none =>
    match found.group? .expression with
    | some expression =>
      let start := after + expression.start
      let stop := expressionEnd code start
      some (some ⟨start, stop⟩, stop)
    | none =>
      let stop := ((found.group? .terminator).map (·.stop)).getD found.stop
      some (none, after + stop)

/-- The body of a declaration without a tail and the end of the declaration. -/
def BodyForm.read? (form : BodyForm) (code : Text) (header : Match) (after : Nat) :
    Option (Option Span × Nat) :=
  match form with
  | .braces => (Block.braced? code after '{' '}').map fun b => (some b.bodySpan, b.stop)
  | .keywords pair =>
    (Block.keyword? code header.start pair).map fun b => (some b.bodySpan, b.stop)
  | .upTo _ => (form.bodyOf? code header).map fun body => (some body, body.stop)

/-- The kind of a declaration, given its form, its modifiers, whether it is in a class, whether it
has a receiver and whether it has a body. -/
def Grammar.kindOf (g : Grammar) (form : FunctionKind) (modifiers : List Text)
    (inContainer hasReceiver hasBody : Bool) : FunctionKind :=
  let has (words : List String) : Bool := modifiers.any fun m => words.contains (String.ofList m)
  match form with
  | .method =>
    if !inContainer then .function
    else if has g.staticWords then .staticMethod
    else if has g.abstractWords || !hasBody then .abstractMethod
    else .method
  | .function => if hasReceiver then .method else .function
  | other => other

/-- The declaration of a header, if the form admits it there. -/
def DeclarationForm.read? (g : Grammar) (form : DeclarationForm) (views : Views)
    (containers : List Container) (header : Match) : Option Declaration := do
  let code := views.code
  let nameSpan ← header.group? .name
  let name := (code.slice nameSpan).collapse
  if g.isKeyword name || hasKeyword g (header.textOf code .result) then none else
  let container := containerAt? containers code nameSpan.start
  if form.membersOnly && container.isNone then none else
  if form.namedAsContainer && container.map (·.name) != some (String.ofList name) then none else
  let (parameters, after) ← form.parameters.read? code header
  let (body, stop) ←
    match form.tail with
    | some tail => bodyAfterTail? code after tail
    | none => form.body.read? code header after
  let modifiers := (header.textOf code .modifiers).words
  let receiver := receiverType? (header.textOf code .receiver)
  let decorators :=
    match (header.group? .decorators).bind views.literal.slice? with
    | some t => decoratorsIn g t
    | none => []
  return {
    kind := g.kindOf form.kind modifiers container.isSome receiver.isSome body.isSome
    name := String.ofList name
    nameAt := nameSpan.start
    span := ⟨header.start, stop⟩
    body := body
    parameters := g.parameterStyle.names parameters
    decorators := decorators
    isAsync := modifiers.contains "async".toList
    className := (container.map (·.name)).or receiver
    scope := (container.map (·.path)).or receiver
    docstring := (docCommentBefore? views.raw header.start g.docStyle).map String.ofList }

/-- Declarations without those whose name an earlier one has found already. -/
def firstByName (seen : List Nat) : List Declaration → List Declaration
  | [] => []
  | d :: more =>
    if seen.contains d.nameAt then firstByName seen more
    else d :: firstByName (d.nameAt :: seen) more

/-- The declarations of a file, sorted by start. -/
def findDeclarations (g : Grammar) (views : Views) (containers : List Container) :
    List Declaration :=
  let found := g.declarations.flatMap fun form =>
    (form.header.findAll views.code).filterMap (form.read? g views containers)
  (firstByName [] found).mergeSort fun a b =>
    a.span.start < b.span.start || (a.span.start == b.span.start && a.nameAt ≤ b.nameAt)

end CallAtlas
