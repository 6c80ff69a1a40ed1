/-
Module: CallAtlas.Proofs.CheckedDeclarations
Purpose: Containers and declarations read with checked cuts.  The offsets of a header are positions
  of the view in which it was found, and the body of a container starts at one, so what is cut out
  at them can be cut out; the statements around a body are never empty, so the scan for its end
  stays in the text.
Main definitions: Checked.findContainers, Checked.readDeclaration, Checked.findDeclarations,
  Grammar.consumes
Main results: bodyStart_of_mem_findContainers, Checked.findContainers_eq,
  Checked.findDeclarations_eq, Language.containers_checked, Language.declarations_checked
-/
import CallAtlas.Proofs.CheckedHeaders
import CallAtlas.Proofs.ClassPaths

namespace CallAtlas

/-! ### Containers -/

/-- Whether the statements around a body, if it has any, are not empty. -/
def BodyForm.consumes : BodyForm → Bool
  | .keywords pair => pair.consumes
  | .braces | .upTo _ => true

namespace Checked

/-- The byte range of the body that goes with a header. -/
def bodyOf (form : BodyForm) (code : Text) (header : Match) : OptionT Checked Span :=
  match form with
  | .braces => do
    let block ← braced code (header.stop - 1) '{' '}'
    return block.bodySpan
  | .keywords pair => do
    let block ← keyword code header.start pair
    return block.bodySpan
  | .upTo boundary => do
    let c ← cursorAt code header.stop
    return ⟨header.stop, ((boundary.searchFrom? c).map (·.start)).getD code.size⟩

/-- The container of a header, with its own name as path. -/
def readContainer (form : ContainerForm) (code : Text) (header : Match) :
    OptionT Checked Container := do
  let nameSpan ← ofOption (header.group? .name)
  let body ← bodyOf form.body code header
  let name := String.ofList (← code.cut nameSpan)
  return {
    name := name
    path := name
    start := header.start
    bodyStart := body.start
    bodyEnd := body.stop
    braces := form.body matches .braces }

/-- The containers of a file, sorted by start, with their paths. -/
def findContainers (g : Grammar) (code : Text) : Checked (List Container) := do
  let found ← flatMap
    (fun form => collect (readContainer form code) (form.header.findAll code)) g.containers
  return withPaths [] (found.mergeSort fun a b => a.start ≤ b.start)

/-- The innermost container around a byte offset, if the offset is directly in its body. -/
def containerAt (containers : List Container) (code : Text) (offset : Nat) :
    OptionT Checked Container := do
  let c ← ofOption (containers.reverse.find? (·.holds offset))
  if !c.braces then return c
  else
    let inner ← code.cut ⟨c.bodyStart, offset⟩
    if inner.count '{' == inner.count '}' then return c else ofOption none

theorem bodyOf_eq {form : BodyForm} {header : Pattern} {code : Text} {m : Match}
    (consumes : form.consumes = true) (found : header.FoundIn code m) :
    bodyOf form code m = ofOption (form.bodyOf? code m) := by
  cases form with
  | braces =>
      rw [bodyOf, braced_eq]
      exact ofOption_map _ _
  | keywords pair =>
      rw [bodyOf, keyword_eq consumes found]
      exact ofOption_map _ _
  | upTo boundary =>
      rw [bodyOf, Match.stop, cursorAt_eq found.after_in]
      rfl

theorem readContainer_eq {form : ContainerForm} {code : Text} {m : Match}
    (consumes : form.body.consumes = true) (found : form.header.FoundIn code m) :
    readContainer form code m = ofOption (form.read? code m) := by
  rw [readContainer, ContainerForm.read?]
  cases isName : m.group? .name with
  | none => rfl
  | some span =>
      rw [ofOption_some_bind, bodyOf_eq consumes found, found.cut_group isName]
      cases form.body.bodyOf? code m with
      | none => rfl
      | some body => rfl

theorem findContainers_eq {g : Grammar} (code : Text)
    (consumes : ∀ form ∈ g.containers, form.body.consumes = true) :
    findContainers g code = .ok (CallAtlas.findContainers g code) := by
  have found : flatMap (fun form => collect (readContainer form code) (form.header.findAll code))
      g.containers = .ok (g.containers.flatMap (·.findAll code)) := by
    apply flatMap_eq
    intro form inTable
    apply collect_eq
    intro m searched
    exact readContainer_eq (consumes form inTable) (Pattern.mem_findAll searched)
  rw [findContainers, found]
  rfl

theorem containerAt_eq {containers : List Container} {code : Text} {offset : Nat}
    (starts : ∀ c ∈ containers, code.IsBoundary c.bodyStart) (boundary : code.IsBoundary offset) :
    containerAt containers code offset = ofOption (containerAt? containers code offset) := by
  rw [containerAt, containerAt?]
  cases around : containers.reverse.find? (·.holds offset) with
  | none => rfl
  | some c =>
      have listed : c ∈ containers := List.mem_reverse.1 (List.mem_of_find?_eq_some around)
      have holds : c.holds offset = true :=
        List.find?_some (p := fun c : Container => c.holds offset) around
      have cut := Text.cut_eq_slice
        ((starts c listed).isSome_slice? boundary (Container.holds_iff.1 holds).1)
      cases braces : c.braces with
      | false => simp [braces]
      | true => simp [braces, cut, ofOption_ite]

end Checked

theorem BodyForm.start_of_bodyOf? {form : BodyForm} {header : Pattern} {code : Text} {m : Match}
    {body : Span} (found : header.FoundIn code m) (cut : form.bodyOf? code m = some body) :
    code.IsBoundary body.start := by
  cases form with
  | braces =>
      obtain ⟨b, braced, rfl⟩ := Option.map_eq_some_iff.1 cut
      exact (Block.braced?_standsIn braced (by decide) (by decide)).1.bodyStart.isBoundary
  | keywords pair =>
      obtain ⟨b, opened, rfl⟩ := Option.map_eq_some_iff.1 cut
      simp only [Block.keyword?, Option.bind_eq_bind, Option.bind_eq_some_iff] at opened
      obtain ⟨_, _, opening, _, closing, _, _, sliced, made⟩ := opened
      obtain rfl := Option.some.inj made
      obtain ⟨p, s, split, range⟩ := Text.slice?_eq_some_iff.1 sliced
      exact ⟨p, _, split, (Span.mk.inj range).1.symm⟩
  | upTo boundary =>
      obtain rfl := Option.some.inj cut
      exact found.after_in.isBoundary

theorem bodyStart_of_mem_findContainers {g : Grammar} {code : Text} {c : Container}
    (listed : c ∈ findContainers g code) : code.IsBoundary c.bodyStart := by
  obtain ⟨c', inFound, same⟩ := exists_bare_of_mem_withPaths listed
  obtain ⟨form, _, read⟩ := List.mem_flatMap.1 (List.mem_mergeSort.1 inFound)
  obtain ⟨m, isHeader, read⟩ := List.mem_filterMap.1 read
  simp only [ContainerForm.read?, Option.bind_eq_bind, Option.bind_eq_some_iff] at read
  obtain ⟨_, _, body, cut, made⟩ := read
  obtain rfl := Option.some.inj made
  have sameStart : body.start = c.bodyStart := congrArg Container.bodyStart same
  rw [← sameStart]
  exact BodyForm.start_of_bodyOf? (Pattern.mem_findAll isHeader) cut

/-! ### Declarations -/

namespace Checked

/-- The marked part of a header, empty if it is not marked. -/
def textOf (m : Match) (t : Text) (g : Group) : Checked Text := do
  return (← (group m t g).run).getD []

/-- The text of the parameters and the offset after them. -/
def readParameters (source : ParameterSource) (code : Text) (header : Match) :
    OptionT Checked (Text × Nat) :=
  match source with
  | .parentheses => do
    let block ← braced code (header.stop - 1) '(' ')'
    return (block.body, block.stop)
  | .header => do
    let parameters ← textOf header code .parameters
    return (parameters, header.stop)
  | .nowhere => return ([], header.stop)

/-- The body that a tail announces and the end of the declaration. -/
def bodyAfterTail (code : Text) (after : Nat) (tail : Pattern) :
    OptionT Checked (Option Span × Nat) := do
  let rest ← ofOption (code.from? after)
  let found ← ofOption (tail.find? rest)
  match found.group? .block with
  | some brace =>
    let block ← braced code (after + brace.start) '{' '}'
    return (some block.bodySpan, block.stop)
  | none =>
    match found.group? .expression with
    | some expression =>
      let start := after + expression.start
      let stop := expressionEnd code start
      return (some ⟨start, stop⟩, stop)
    | none =>
      let stop := ((found.group? .terminator).map (·.stop)).getD found.stop
      return (none, after + stop)

/-- The body of a declaration without a tail and the end of the declaration. -/
def readBody (form : BodyForm) (code : Text) (header : Match) (after : Nat) :
    OptionT Checked (Option Span × Nat) :=
  match form with
  | .braces => do
    let block ← braced code after '{' '}'
    return (some block.bodySpan, block.stop)
  | .keywords pair => do
    let block ← keyword code header.start pair
    return (some block.bodySpan, block.stop)
  | .upTo _ => do
    let body ← bodyOf form code header
    return (some body, body.stop)

/-- The decorators in front of a header. -/
def readDecorators (g : Grammar) (views : Views) (header : Match) : Checked (List String) :=
  match (header.group? .decorators).bind views.literal.slice? with
  | some t => decoratorsIn g t
  | none => .ok []

/-- The declaration of a header, if the form admits it there. -/
def readDeclaration (g : Grammar) (form : DeclarationForm) (views : Views)
    (containers : List Container) (header : Match) : OptionT Checked Declaration := do
  let code := views.code
  let nameSpan ← ofOption (header.group? .name)
  let name := (← code.cut nameSpan).collapse
  let result ← textOf header code .result
  if g.isKeyword name || hasKeyword g result then ofOption none else
  let container ← attempt (containerAt containers code nameSpan.start)
  if form.membersOnly && container.isNone then ofOption none else
  if form.namedAsContainer && container.map (·.name) != some (String.ofList name) then
    ofOption none else
  let (parameters, after) ← readParameters form.parameters code header
  let (body, stop) ←
    match form.tail with
    | some tail => bodyAfterTail code after tail
    | none => readBody form.body code header after
  let modifiers := (← textOf header code .modifiers).words
  let receiver := receiverType? (← textOf header code .receiver)
  let decorators ← readDecorators g views header
  let names ← parameterNames g.parameterStyle parameters
  let docstring ← attempt (docCommentBefore views.raw header.start g.docStyle)
  return {
    kind := g.kindOf form.kind modifiers container.isSome receiver.isSome body.isSome
    name := String.ofList name
    nameAt := nameSpan.start
    span := ⟨header.start, stop⟩
    body := body
    parameters := names
    decorators := decorators
    isAsync := modifiers.contains "async".toList
    className := (container.map (·.name)).or receiver
    scope := (container.map (·.path)).or receiver
    docstring := docstring.map String.ofList }

/-- The declarations of a file, sorted by start. -/
def findDeclarations (g : Grammar) (views : Views) (containers : List Container) :
    Checked (List Declaration) := do
  let found ← flatMap
    (fun form => collect (readDeclaration g form views containers)
      (form.header.findAll views.code)) g.declarations
  return (firstByName [] found).mergeSort fun a b =>
    a.span.start < b.span.start || (a.span.start == b.span.start && a.nameAt ≤ b.nameAt)

theorem textOf_eq {p : Pattern} {t : Text} {m : Match} (found : p.FoundIn t m) (g : Group) :
    textOf m t g = .ok (m.textOf t g) := by
  rw [textOf, group_eq found]
  rfl

theorem readParameters_eq {source : ParameterSource} {header : Pattern} {code : Text} {m : Match}
    (found : header.FoundIn code m) :
    readParameters source code m = ofOption (source.read? code m) := by
  cases source with
  | parentheses =>
      rw [readParameters, braced_eq]
      exact ofOption_map _ _
  | header =>
      rw [readParameters, textOf_eq found]
      rfl
  | nowhere => rfl

theorem bodyAfterTail_eq (code : Text) (after : Nat) (tail : Pattern) :
    bodyAfterTail code after tail = ofOption (bodyAfterTail? code after tail) := by
  rw [bodyAfterTail, bodyAfterTail?]
  cases code.from? after with
  | none => rfl
  | some rest =>
      cases searched : tail.find? rest with
      | none => simp [searched]
      | some found =>
          rw [ofOption_some_bind, Option.bind_eq_bind, Option.bind_some, searched,
            ofOption_some_bind, Option.bind_eq_bind, Option.bind_some]
          cases found.group? .block with
          | some brace =>
              dsimp only
              rw [braced_eq]
              cases Block.braced? code (after + brace.start) '{' '}' with
              | none => rfl
              | some block => rfl
          | none =>
              cases found.group? .expression with
              | some expression => rfl
              | none => rfl

theorem readBody_eq {form : BodyForm} {header : Pattern} {code : Text} {m : Match}
    (consumes : form.consumes = true) (found : header.FoundIn code m) (after : Nat) :
    readBody form code m after = ofOption (form.read? code m after) := by
  cases form with
  | braces =>
      rw [readBody, braced_eq]
      exact ofOption_map _ _
  | keywords pair =>
      rw [readBody, keyword_eq consumes found]
      exact ofOption_map _ _
  | upTo boundary =>
      rw [readBody, bodyOf_eq consumes found]
      exact ofOption_map _ _

theorem readDecorators_eq (g : Grammar) (views : Views) (m : Match) :
    readDecorators g views m =
      .ok (match (m.group? .decorators).bind views.literal.slice? with
        | some t => CallAtlas.decoratorsIn g t
        | none => []) := by
  rw [readDecorators]
  cases (m.group? .decorators).bind views.literal.slice? with
  | none => rfl
  | some t => exact decoratorsIn_eq g t

theorem readDeclaration_eq {g : Grammar} {form : DeclarationForm} {views : Views}
    {containers : List Container} {m : Match}
    (starts : ∀ c ∈ containers, views.code.IsBoundary c.bodyStart)
    (consumes : form.body.consumes = true) (found : form.header.FoundIn views.code m) :
    readDeclaration g form views containers m = ofOption (form.read? g views containers m) := by
  rw [readDeclaration, DeclarationForm.read?]
  cases isName : m.group? .name with
  | none => rfl
  | some span =>
      obtain ⟨_, _, c, _, _, inside, _, _, rfl, _⟩ := found.exists_group isName
      rw [ofOption_some_bind, found.cut_group isName, textOf_eq found,
        containerAt_eq starts inside.isBoundary, readParameters_eq found]
      simp only [lift_ok, ofOption_some_bind, attempt_ofOption, bodyAfterTail_eq, textOf_eq found,
        readBody_eq consumes found, readDecorators_eq, parameterNames_eq, docCommentBefore_eq,
        Option.bind_eq_bind, Option.bind_some]
      cases form.tail with
      | none =>
          simp only [pure_eq, ofOption_bind, ofOption_ite]
          rfl
      | some tail =>
          simp only [pure_eq, ofOption_bind, ofOption_ite]
          rfl

theorem findDeclarations_eq {g : Grammar} {views : Views} {containers : List Container}
    (starts : ∀ c ∈ containers, views.code.IsBoundary c.bodyStart)
    (consumes : ∀ form ∈ g.declarations, form.body.consumes = true) :
    findDeclarations g views containers =
      .ok (CallAtlas.findDeclarations g views containers) := by
  have found : flatMap (fun form => collect (readDeclaration g form views containers)
      (form.header.findAll views.code)) g.declarations =
        .ok (g.declarations.flatMap fun form =>
          (form.header.findAll views.code).filterMap (form.read? g views containers)) := by
    apply flatMap_eq
    intro form inTable
    apply collect_eq
    intro m searched
    exact readDeclaration_eq starts (consumes form inTable) (Pattern.mem_findAll searched)
  rw [findDeclarations, found]
  rfl

end Checked

/-! ### The tables of all languages -/

/-- Whether the statements around the bodies of a language are not empty. -/
def Grammar.consumes (g : Grammar) : Bool :=
  g.containers.all (·.body.consumes) && g.declarations.all (·.body.consumes)

theorem Language.consumes_of_grammar? {lang : Language} {g : Grammar}
    (scanned : lang.grammar? = some g) : g.consumes = true :=
  Language.passes_of_grammar? (by decide +kernel) scanned

theorem Language.containers_checked {lang : Language} {g : Grammar}
    (scanned : lang.grammar? = some g) (code : Text) :
    Checked.findContainers g code = .ok (findContainers g code) := by
  have consumes := Language.consumes_of_grammar? scanned
  rw [Grammar.consumes, Bool.and_eq_true, List.all_eq_true] at consumes
  exact Checked.findContainers_eq code consumes.1

/-- The declarations of a text are found without an error. -/
theorem Language.declarations_checked {lang : Language} {g : Grammar}
    (scanned : lang.grammar? = some g) (views : Views) :
    Checked.findDeclarations g views (findContainers g views.code) =
      .ok (g.declarationsOf views) := by
  have consumes := Language.consumes_of_grammar? scanned
  rw [Grammar.consumes, Bool.and_eq_true, List.all_eq_true, List.all_eq_true] at consumes
  exact Checked.findDeclarations_eq (fun c => bodyStart_of_mem_findContainers) consumes.2

end CallAtlas
