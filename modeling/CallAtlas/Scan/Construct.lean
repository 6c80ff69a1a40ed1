/-
Module: CallAtlas.Scan.Construct
Purpose: The control-flow constructs in the own text of a declaration.
Main definitions: Construct, OwnText.conditionAt?, OwnText.bodyEnd?, findConstructs
-/
import CallAtlas.Block.Braces
import CallAtlas.Pattern.Vocabulary
import CallAtlas.Scan.CallSite

namespace CallAtlas

/-!
Constructs are looked for in the view without strings.  Conditions and labels are read from the view
with strings, at the same offsets.
-/

/-- A construct in the own text of a declaration. -/
structure Construct where
  kind : FlowKind
  /-- Where it starts. -/
  start : Nat
  /-- One past its end, with all parts that follow it. -/
  stop : Nat
  condition : Option Text
  branches : List String
deriving Repr, DecidableEq, Inhabited

namespace OwnText

open Pattern

/-- The readable text of a range, trimmed, unless it is blank. -/
def literal? (own : OwnText) (span : Span) : Option Text := do
  let t := (← own.literal.slice? span).trim
  if t.isEmpty then none else some t

/-- Byte offset of the first character at or after an offset that satisfies a test. -/
def next? (own : OwnText) (offset : Nat) (p : Char → Bool) : Option Nat :=
  ((own.code.rest offset).offsetOf? p).map (offset + ·)

/-- Byte offset of the first character at or after an offset that is not blank, if it is `c`. -/
def nextIs? (own : OwnText) (offset : Nat) (c : Char) : Option Nat := do
  let found ← own.next? offset fun x => !isBlank x
  if (own.code.rest found).head? = some c then some found else none

/-- The condition after an offset and the offset after it. -/
def conditionAt? (own : OwnText) (offset : Nat) : ConditionForm → Option (Option Text × Nat)
  | .parentheses => do
    let opening ← own.nextIs? offset '('
    let block ← Block.braced? own.code opening '(' ')'
    some (own.literal? block.bodySpan, block.stop)
  | .upToBrace => do
    let brace ← own.next? offset (· == '{')
    some (own.literal? ⟨offset, brace⟩, brace)

/-- End of the block or of the single statement at or after an offset. -/
def bodyEnd? (own : OwnText) (offset : Nat) : Option Nat := do
  let start ← own.next? offset fun x => !isBlank x
  if (own.code.rest start).head? = some '{' then
    (Block.braced? own.code start '{' '}').map (·.stop)
  else some (statementEnd own.code start)

/-- `else if`, with the `if` marked. -/
def elseIf : Pattern :=
  textStart ++ gap ++ lit "else" ++ space ++ mark .keyword (lit "if") ++ boundary

/-- `else`. -/
def elsePart : Pattern := textStart ++ gap ++ lit "else" ++ boundary

/-- `catch`. -/
def catchPart : Pattern := textStart ++ gap ++ lit "catch" ++ boundary

/-- The filter of a `catch`, up to its parenthesis. -/
def catchFilter : Pattern := textStart ++ gap ++ lit "when" ++ gap ++ char '('

/-- `finally`. -/
def finallyPart : Pattern := textStart ++ gap ++ lit "finally" ++ boundary

/-- The condition after the body of a `do`, with the `while` marked. -/
def whilePart : Pattern :=
  textStart ++ gap ++ mark .keyword (lit "while") ++ gap ++ char '('

/-- Where the condition of a header is looked for: at the parenthesis that ends the header, or right
after the keyword. -/
def conditionStart (headerStop : Nat) : ConditionForm → Nat
  | .parentheses => headerStop - 1
  | .upToBrace => headerStop

/-- The parts of an `if` after its first body, which ends at `stop`: the end of the last part, the
labels of the parts, and the offsets of the `if` keywords among them.  `fuel` is the text; every
part takes some of it. -/
def elseParts (own : OwnText) (form : ConditionForm) : Text → Nat → Nat × List String × List Nat
  | fuel, stop =>
    match elseIf.find? (own.code.rest stop) with
    | some m =>
      match m.group? .keyword with
      | none => (stop, [], [])
      | some keyword =>
        let ifAt := stop + keyword.start
        match (own.conditionAt? (ifAt + 2) form).bind fun c => own.bodyEnd? c.2 with
        | none => (stop, [], [ifAt])
        | some next =>
          match fuel with
          | [] => (next, ["else if"], [ifAt])
          | _ :: fuel =>
            let (last, labels, taken) := elseParts own form fuel next
            (last, "else if" :: labels, ifAt :: taken)
    | none =>
      match elsePart.find? (own.code.rest stop) with
      | some m =>
        match own.bodyEnd? (stop + m.stop) with
        | some next => (next, ["else"], [])
        | none => (stop, [], [])
      | none => (stop, [], [])

/-- The `if` of a header, and the offsets of the `if` keywords of its parts. -/
def ifElse? (own : OwnText) (form : ConditionForm) (header : Match) :
    Option (Construct × List Nat) := do
  let (condition, after) ← own.conditionAt? (conditionStart header.stop form) form
  let first ← own.bodyEnd? after
  let (stop, labels, taken) := own.elseParts form own.code first
  some (⟨.ifElse, header.start, stop, condition, "if" :: labels⟩, taken)

/-- The loop of a header. -/
def loop? (own : OwnText) (kind : FlowKind) (form : ConditionForm) (bare : Option FlowKind)
    (header : Match) : Option Construct := do
  let (condition, after) ← own.conditionAt? (conditionStart header.stop form) form
  let stop ← own.bodyEnd? after
  let kind := if condition.isNone then bare.getD kind else kind
  some ⟨kind, header.start, stop, condition, []⟩

/-- The offset after a `;` that follows an offset directly or after blanks; else the offset. -/
def pastSemicolon (own : OwnText) (offset : Nat) : Nat :=
  match own.nextIs? offset ';' with
  | some semicolon => semicolon + 1
  | none => offset

/-- The `do` loop of a header, and the offset of its `while`, if it has one. -/
def doWhile? (own : OwnText) (header : Match) : Option (Construct × List Nat) := do
  let block ← Block.braced? own.code (header.stop - 1) '{' '}'
  let bare : Construct := ⟨.doWhileLoop, header.start, block.stop, none, []⟩
  match whilePart.find? (own.code.rest block.stop) with
  | none => some (bare, [])
  | some tail =>
    let taken := ((tail.group? .keyword).map fun k => block.stop + k.start).toList
    match own.conditionAt? (block.stop + tail.stop - 1) .parentheses with
    | none => some (bare, taken)
    | some (condition, after) =>
      some ({ bare with stop := own.pastSemicolon after, condition := condition }, taken)

/-- The offset after the parentheses that follow an offset, and what stands in them.  Without
parentheses the offset stays; with unclosed ones there is none. -/
def afterParentheses? (own : OwnText) (offset : Nat) : Option (Nat × Option Span) :=
  match own.nextIs? offset '(' with
  | none => some (offset, none)
  | some opening =>
    (Block.braced? own.code opening '(' ')').map fun b => (b.stop, some b.bodySpan)

/-- The label of a `catch` with the given range in parentheses. -/
def catchLabel (own : OwnText) (inside : Option Span) : String :=
  match inside with
  | none => "catch"
  | some span => "catch (" ++ String.ofList (((own.literal? span).getD []).collapse) ++ ")"

/-- The offset after the filter of a `catch`, if there is a filter. -/
def afterFilter? (own : OwnText) (offset : Nat) : Option Nat :=
  match catchFilter.find? (own.code.rest offset) with
  | none => some offset
  | some m => (Block.braced? own.code (offset + m.stop - 1) '(' ')').map (·.stop)

/-- The parts of a `try` after its body, which ends at `stop`: the end of the last part and the
labels.  There is no result if a parenthesis of a part is never closed.  `fuel` is the text. -/
def catchParts? (own : OwnText) : Text → Nat → Option (Nat × List String)
  | fuel, stop =>
    match catchPart.find? (own.code.rest stop) with
    | some m => do
      let (cursor, inside) ← own.afterParentheses? (stop + m.stop)
      let cursor ← own.afterFilter? cursor
      match own.bodyEnd? cursor with
      | none => some (stop, [])
      | some next =>
        match fuel with
        | [] => some (next, [own.catchLabel inside])
        | _ :: fuel =>
          let (last, labels) ← catchParts? own fuel next
          some (last, own.catchLabel inside :: labels)
    | none =>
      match finallyPart.find? (own.code.rest stop) with
      | some m =>
        match own.bodyEnd? (stop + m.stop) with
        | some next => some (next, ["finally"])
        | none => some (stop, [])
      | none => some (stop, [])

/-- The `try` of a header.  Resources in parentheses may stand before its body, which has to be in
braces. -/
def tryCatch? (own : OwnText) (header : Match) : Option Construct := do
  let (after, _) ← own.afterParentheses? header.stop
  let _ ← own.nextIs? after '{'
  let first ← own.bodyEnd? after
  let (stop, labels) ← own.catchParts? own.code first
  some ⟨.tryCatch, header.start, stop, none, "try" :: labels⟩

/-- The label of a case, if no brace of the construct is open before it.  Labels are found in the
readable body, braces are counted in the body without strings. -/
def caseLabel? (readable body : Text) (m : Match) : Option String := do
  let span ← m.group? .label
  let before := body.startingBefore span.start
  if before.count '{' = before.count '}' then some (String.ofList (readable.slice span).collapse)
  else none

/-- The `switch` of a header. -/
def switch? (own : OwnText) (form : ConditionForm) (labelled : Pattern) (header : Match) :
    Option Construct := do
  let (condition, after) ← own.conditionAt? (conditionStart header.stop form) form
  let brace ← own.nextIs? after '{'
  let block ← Block.braced? own.code brace '{' '}'
  let readable := own.literal.slice block.bodySpan
  let labels := (labelled.findAll readable).filterMap (caseLabel? readable block.body)
  some ⟨.switch, header.start, block.stop, condition, labels⟩

/-- A clause label with its keyword in lower case and single spaces. -/
def clauseLabel (t : Text) : String :=
  match t.words with
  | [] => ""
  | keyword :: more => String.ofList (Text.join [' '] (keyword.toLower :: more))

/-- The label of a clause, if no construct of the same kind is open before it. -/
def clauseLabel? (own : OwnText) (pair : KeywordPair) (block : Block) (m : Match) :
    Option String := do
  let label ← m.group? .label
  let before := block.body.slice ⟨0, m.start⟩
  if (pair.opener.findAll before).length = (pair.closer.findAll before).length then
    let t ← own.literal? ⟨block.bodyStart + label.start, block.bodyStart + label.stop⟩
    some (clauseLabel t)
  else none

/-- The construct of an opening statement. -/
def keywords? (own : OwnText) (kind : FlowKind) (pair : KeywordPair) (clause : Option Pattern)
    (first : Option String) (opening : Match) : Option Construct := do
  let block ← Block.keyword? own.code opening.start pair
  let clauses :=
    match clause with
    | none => []
    | some pattern => (pattern.findAll block.body).filterMap (own.clauseLabel? pair block)
  let opened := own.code.slice opening.span
  some {
    kind := kind
    start := opening.start + (opened.size - opened.trimStart.size)
    stop := block.stop
    condition := (opening.group? .condition).bind own.literal?
    branches := first.toList ++ clauses }

end OwnText

/-- The constructs found so far, and the offsets of keywords that belong to one of them. -/
structure Constructs where
  found : List Construct
  taken : List Nat
deriving Repr, DecidableEq, Inhabited

namespace Constructs

/-- Adds a construct and the keywords that belong to it, if there is one. -/
def add? (sites : Constructs) : Option (Construct × List Nat) → Constructs
  | none => sites
  | some (construct, taken) => ⟨sites.found ++ [construct], sites.taken ++ taken⟩

/-- Adds the constructs of one form. -/
def addForm (own : OwnText) (sites : Constructs) : ConstructForm → Constructs
  | .ifElse header condition =>
    (header.findAll own.code).foldl
      (fun sites m =>
        if sites.taken.contains m.start then sites else sites.add? (own.ifElse? condition m))
      sites
  | .loop header kind condition bare =>
    (header.findAll own.code).foldl
      (fun sites m =>
        if sites.taken.contains m.start then sites
        else sites.add? ((own.loop? kind condition bare m).map fun c => (c, [])))
      sites
  | .doWhile header =>
    (header.findAll own.code).foldl (fun sites m => sites.add? (own.doWhile? m)) sites
  | .tryCatch header =>
    (header.findAll own.code).foldl
      (fun sites m => sites.add? ((own.tryCatch? m).map fun c => (c, []))) sites
  | .switch header condition labelled =>
    (header.findAll own.code).foldl
      (fun sites m => sites.add? ((own.switch? condition labelled m).map fun c => (c, []))) sites
  | .keywords kind pair clause first =>
    (pair.opener.findAll own.code).foldl
      (fun sites m => sites.add? ((own.keywords? kind pair clause first m).map fun c => (c, [])))
      sites

end Constructs

/-- The constructs in the own text of a declaration, in the order of the text. -/
def findConstructs (g : Grammar) (own : OwnText) : List Construct :=
  (g.constructs.foldl (Constructs.addForm own) ⟨[], []⟩).found.mergeSort fun a b =>
    a.start ≤ b.start

end CallAtlas
