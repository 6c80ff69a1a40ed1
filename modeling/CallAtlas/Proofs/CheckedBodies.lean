/-
Module: CallAtlas.Proofs.CheckedBodies
Purpose: Calls and control-flow constructs read with checked cuts.  A callee and the text before it,
  the character behind a keyword, the body of a block and the text before a clause are all found by
  a search in the text that is cut; a header that is stepped back from has at least one character.
Main definitions: Checked.findCalls, Checked.conditionAt, Checked.bodyEnd, Checked.findConstructs,
  ConstructForm.consumes, Grammar.constructsConsume
Main results: Checked.findCalls_eq, Checked.findConstructs_eq, Language.constructs_checked
-/
import CallAtlas.Proofs.BodyPlaces
import CallAtlas.Proofs.CheckedCuts

namespace CallAtlas

namespace Checked

/-! ### Calls -/

/-- The call of a match, if it is one. -/
def readCall (g : Grammar) (form : CallForm) (t : Text) (m : Match) :
    OptionT Checked (Nat × Text) := do
  let span ← ofOption (m.group? .callee)
  let callee ← t.cut span
  if form.filtered then
    let before ← t.cut ⟨0, span.start⟩
    if !g.accepts before callee then ofOption none else return (span.start, callee.squeeze)
  else return (span.start, callee.squeeze)

/-- The calls in the own text of a declaration, in the order of the text. -/
def findCalls (g : Grammar) (own : OwnText) : Checked (List CallSite) := do
  let found ← flatMap (fun form => collect (readCall g form (own.view form.view))
    (form.pattern.findAll (own.view form.view))) g.calls
  return (firstByOffset [] found).mergeSort fun a b => a.offset ≤ b.offset

theorem readCall_eq {g : Grammar} {form : CallForm} {t : Text} {m : Match}
    (found : form.pattern.FoundIn t m) :
    readCall g form t m = ofOption (form.read? g t m) := by
  rw [readCall, CallForm.read?]
  cases isCallee : m.group? .callee with
  | none => rfl
  | some span =>
      obtain ⟨_, _, c, _, _, inside, _, _, rfl, _⟩ := found.exists_group isCallee
      cases filtered : form.filtered with
      | false => simp [found.cut_group isCallee]
      | true => simp [found.cut_group isCallee, inside.isBoundary.cut_before, ofOption_ite]

theorem findCalls_eq (g : Grammar) (own : OwnText) :
    findCalls g own = .ok (CallAtlas.findCalls g own) := by
  have found : flatMap (fun form => collect (readCall g form (own.view form.view))
      (form.pattern.findAll (own.view form.view))) g.calls =
        .ok (g.calls.flatMap fun form => (form.pattern.findAll (own.view form.view)).filterMap
          (form.read? g (own.view form.view))) := by
    apply flatMap_eq
    intro form _
    apply collect_eq
    intro m searched
    exact readCall_eq (Pattern.mem_findAll searched)
  rw [findCalls, found]
  rfl

/-! ### Parts of constructs -/

/-- Byte offset of the first character at or after an offset that is not blank, if it is `c`. -/
def nextIs (own : OwnText) (offset : Nat) (c : Char) : OptionT Checked Nat := do
  let found ← ofOption (own.next? offset fun x => !isBlank x)
  if (← charAt own.code found) = c then return found else ofOption none

/-- The condition after an offset and the offset after it. -/
def conditionAt (own : OwnText) (offset : Nat) :
    ConditionForm → OptionT Checked (Option Text × Nat)
  | .parentheses => do
    let opening ← nextIs own offset '('
    let block ← braced own.code opening '(' ')'
    return (own.literal? block.bodySpan, block.stop)
  | .upToBrace => do
    let brace ← ofOption (own.next? offset (· == '{'))
    return (own.literal? ⟨offset, brace⟩, brace)

/-- End of the block or of the single statement at or after an offset. -/
def bodyEnd (own : OwnText) (offset : Nat) : OptionT Checked Nat := do
  let start ← ofOption (own.next? offset fun x => !isBlank x)
  if (← charAt own.code start) = '{' then
    let block ← braced own.code start '{' '}'
    return block.stop
  else return statementEnd own.code start

/-- The character that comes next is there. -/
theorem charAt_of_next? {own : OwnText} {offset n : Nat} {p : Char → Bool}
    (found : own.next? offset p = some n) :
    ∃ c, charAt own.code n = .ok c ∧ (own.code.rest n).head? = some c := by
  obtain ⟨front, q, c, s, split, atFront, atNext, _⟩ := OwnText.next?_eq_some_iff.1 found
  have place : n = Text.size (front ++ q) := by
    rw [Text.size_append, atFront, atNext]
  rw [split, ← List.append_assoc, place, charAt_append, Text.rest_append]
  exact ⟨c, rfl, rfl⟩

theorem nextIs_eq (own : OwnText) (offset : Nat) (c : Char) :
    nextIs own offset c = ofOption (own.nextIs? offset c) := by
  rw [nextIs, OwnText.nextIs?]
  cases found : own.next? offset fun x => !isBlank x with
  | none => rfl
  | some n =>
      obtain ⟨x, isChar, isHead⟩ := charAt_of_next? found
      simp [isChar, isHead, ofOption_ite]

theorem conditionAt_eq (own : OwnText) (offset : Nat) (form : ConditionForm) :
    conditionAt own offset form = ofOption (own.conditionAt? offset form) := by
  cases form with
  | parentheses =>
      rw [conditionAt, nextIs_eq]
      simp only [braced_eq, pure_eq, ofOption_bind]
      rfl
  | upToBrace =>
      rw [conditionAt, OwnText.conditionAt?]
      exact ofOption_bind _ _

theorem bodyEnd_eq (own : OwnText) (offset : Nat) :
    bodyEnd own offset = ofOption (own.bodyEnd? offset) := by
  rw [bodyEnd, OwnText.bodyEnd?]
  cases found : own.next? offset fun x => !isBlank x with
  | none => rfl
  | some n =>
      obtain ⟨x, isChar, isHead⟩ := charAt_of_next? found
      simp [isChar, isHead, braced_eq, ofOption_map, ofOption_ite]

/-! ### Constructs -/

/-- The end of the body behind the condition after an offset. -/
def conditionedEnd (own : OwnText) (offset : Nat) (form : ConditionForm) : OptionT Checked Nat := do
  let condition ← conditionAt own offset form
  bodyEnd own condition.2

/-- The parts of an `if` after its first body, which ends at `stop`: the end of the last part, the
labels of the parts, and the offsets of the `if` keywords among them. -/
def elseParts (own : OwnText) (form : ConditionForm) :
    Text → Nat → Checked (Nat × List String × List Nat)
  | fuel, stop =>
    match OwnText.elseIf.find? (own.code.rest stop) with
    | some m =>
      match m.group? .keyword with
      | none => return (stop, [], [])
      | some keyword => do
        let ifAt := stop + keyword.start
        match ← (conditionedEnd own (ifAt + 2) form).run with
        | none => return (stop, [], [ifAt])
        | some next =>
          match fuel with
          | [] => return (next, ["else if"], [ifAt])
          | _ :: fuel =>
            let (last, labels, taken) ← elseParts own form fuel next
            return (last, "else if" :: labels, ifAt :: taken)
    | none =>
      match OwnText.elsePart.find? (own.code.rest stop) with
      | some m => do
        match ← (bodyEnd own (stop + m.stop)).run with
        | some next => return (next, ["else"], [])
        | none => return (stop, [], [])
      | none => return (stop, [], [])

/-- The `if` of a header, and the offsets of the `if` keywords of its parts. -/
def ifElse (own : OwnText) (form : ConditionForm) (header : Match) :
    OptionT Checked (Construct × List Nat) := do
  let (condition, after) ← conditionAt own (OwnText.conditionStart header.stop form) form
  let first ← bodyEnd own after
  let (stop, labels, taken) ← elseParts own form own.code first
  return (⟨.ifElse, header.start, stop, condition, "if" :: labels⟩, taken)

/-- The loop of a header. -/
def loop (own : OwnText) (kind : FlowKind) (form : ConditionForm) (bare : Option FlowKind)
    (header : Match) : OptionT Checked Construct := do
  let (condition, after) ← conditionAt own (OwnText.conditionStart header.stop form) form
  let stop ← bodyEnd own after
  let kind := if condition.isNone then bare.getD kind else kind
  return ⟨kind, header.start, stop, condition, []⟩

/-- The `do` loop of a header, and the offset of its `while`, if it has one. -/
def doWhile (own : OwnText) (header : Match) : OptionT Checked (Construct × List Nat) := do
  let opening ← subtract header.stop 1
  let block ← braced own.code opening '{' '}'
  let bare : Construct := ⟨.doWhileLoop, header.start, block.stop, none, []⟩
  match OwnText.whilePart.find? (own.code.rest block.stop) with
  | none => return (bare, [])
  | some tail =>
    let taken := ((tail.group? .keyword).map fun k => block.stop + k.start).toList
    let parenthesis ← subtract (block.stop + tail.stop) 1
    match ← attempt (conditionAt own parenthesis .parentheses) with
    | none => return (bare, taken)
    | some (condition, after) =>
      return ({ bare with stop := own.pastSemicolon after, condition := condition }, taken)

/-- The offset after the parentheses that follow an offset, and what stands in them. -/
def afterParentheses (own : OwnText) (offset : Nat) : OptionT Checked (Nat × Option Span) :=
  match own.nextIs? offset '(' with
  | none => return (offset, none)
  | some opening => do
    let block ← braced own.code opening '(' ')'
    return (block.stop, some block.bodySpan)

/-- The offset after the filter of a `catch`, if there is a filter. -/
def afterFilter (own : OwnText) (offset : Nat) : OptionT Checked Nat :=
  match OwnText.catchFilter.find? (own.code.rest offset) with
  | none => return offset
  | some m => do
    let opening ← subtract (offset + m.stop) 1
    let block ← braced own.code opening '(' ')'
    return block.stop

/-- The next part of a `try` after those that end at `stop`.  `more` goes on behind a `catch` that
ends somewhere, with its label. -/
def catchPart (own : OwnText) (stop : Nat)
    (more : Nat → String → OptionT Checked (Nat × List String)) :
    OptionT Checked (Nat × List String) :=
  match OwnText.catchPart.find? (own.code.rest stop) with
  | some m => do
    let (cursor, inside) ← afterParentheses own (stop + m.stop)
    let cursor ← afterFilter own cursor
    match ← attempt (bodyEnd own cursor) with
    | none => return (stop, [])
    | some next => more next (own.catchLabel inside)
  | none =>
    match OwnText.finallyPart.find? (own.code.rest stop) with
    | some m => do
      match ← attempt (bodyEnd own (stop + m.stop)) with
      | some next => return (next, ["finally"])
      | none => return (stop, [])
    | none => return (stop, [])

/-- The parts of a `try` after its body, which ends at `stop`: the end of the last part and the
labels. -/
def catchParts (own : OwnText) : Text → Nat → OptionT Checked (Nat × List String)
  | [], stop => catchPart own stop fun next label => return (next, [label])
  | _ :: fuel, stop =>
    catchPart own stop fun next label => do
      let (last, labels) ← catchParts own fuel next
      return (last, label :: labels)

/-- The `try` of a header. -/
def tryCatch (own : OwnText) (header : Match) : OptionT Checked Construct := do
  let (after, _) ← afterParentheses own header.stop
  let _ ← ofOption (own.nextIs? after '{')
  let first ← bodyEnd own after
  let (stop, labels) ← catchParts own own.code first
  return ⟨.tryCatch, header.start, stop, none, "try" :: labels⟩

/-- The label of a case, if no brace of the construct is open before it. -/
def caseLabel (readable body : Text) (m : Match) : OptionT Checked String := do
  let span ← ofOption (m.group? .label)
  let before := body.startingBefore span.start
  if before.count '{' = before.count '}' then
    let label ← readable.cut span
    return String.ofList label.collapse
  else ofOption none

/-- The `switch` of a header. -/
def switch (own : OwnText) (form : ConditionForm) (labelled : Pattern) (header : Match) :
    OptionT Checked Construct := do
  let (condition, after) ← conditionAt own (OwnText.conditionStart header.stop form) form
  let brace ← nextIs own after '{'
  let block ← braced own.code brace '{' '}'
  let readable := own.literal.slice block.bodySpan
  let labels ← collect (caseLabel readable block.body) (labelled.findAll readable)
  return ⟨.switch, header.start, block.stop, condition, labels⟩

/-- The label of a clause, if no construct of the same kind is open before it. -/
def clauseLabel (own : OwnText) (pair : KeywordPair) (block : Block) (m : Match) :
    OptionT Checked String := do
  let label ← ofOption (m.group? .label)
  let before ← block.body.cut ⟨0, m.start⟩
  if (pair.opener.findAll before).length = (pair.closer.findAll before).length then
    let t ← ofOption
      (own.literal? ⟨block.bodyStart + label.start, block.bodyStart + label.stop⟩)
    return OwnText.clauseLabel t
  else ofOption none

/-- The labels of the clauses of a block. -/
def clauseLabels (own : OwnText) (pair : KeywordPair) (block : Block) :
    Option Pattern → Checked (List String)
  | none => return []
  | some pattern => collect (clauseLabel own pair block) (pattern.findAll block.body)

/-- The construct of an opening statement. -/
def keywords (own : OwnText) (kind : FlowKind) (pair : KeywordPair) (clause : Option Pattern)
    (first : Option String) (opening : Match) : OptionT Checked Construct := do
  let block ← keyword own.code opening.start pair
  let clauses ← clauseLabels own pair block clause
  let opened ← own.code.cut opening.span
  let indent ← subtract opened.size opened.trimStart.size
  return {
    kind := kind
    start := opening.start + indent
    stop := block.stop
    condition := (opening.group? .condition).bind own.literal?
    branches := first.toList ++ clauses }

/-- Adds a construct and the keywords that belong to it, if there is one. -/
def add (sites : Constructs) (found : OptionT Checked (Construct × List Nat)) :
    Checked Constructs := do
  return sites.add? (← found.run)

/-- A construct to which no keywords belong. -/
def sole (found : OptionT Checked Construct) : OptionT Checked (Construct × List Nat) := do
  return (← found, [])

/-- Adds the constructs of one form. -/
def addForm (own : OwnText) (sites : Constructs) : ConstructForm → Checked Constructs
  | .ifElse header condition =>
    (header.findAll own.code).foldlM
      (fun sites m =>
        if sites.taken.contains m.start then return sites else add sites (ifElse own condition m))
      sites
  | .loop header kind condition bare =>
    (header.findAll own.code).foldlM
      (fun sites m =>
        if sites.taken.contains m.start then return sites
        else add sites (sole (loop own kind condition bare m)))
      sites
  | .doWhile header =>
    (header.findAll own.code).foldlM (fun sites m => add sites (doWhile own m)) sites
  | .tryCatch header =>
    (header.findAll own.code).foldlM (fun sites m => add sites (sole (tryCatch own m))) sites
  | .switch header condition labelled =>
    (header.findAll own.code).foldlM
      (fun sites m => add sites (sole (switch own condition labelled m))) sites
  | .keywords kind pair clause first =>
    (pair.opener.findAll own.code).foldlM
      (fun sites m => add sites (sole (keywords own kind pair clause first m))) sites

/-- The constructs in the own text of a declaration, in the order of the text. -/
def findConstructs (g : Grammar) (own : OwnText) : Checked (List Construct) := do
  let sites ← g.constructs.foldlM (addForm own) ⟨[], []⟩
  return sites.found.mergeSort fun a b => a.start ≤ b.start

variable {own : OwnText} {m : Match}

theorem conditionedEnd_eq (own : OwnText) (offset : Nat) (form : ConditionForm) :
    conditionedEnd own offset form =
      ofOption ((own.conditionAt? offset form).bind fun c => own.bodyEnd? c.2) := by
  rw [conditionedEnd, conditionAt_eq]
  simp only [bodyEnd_eq, ofOption_bind]

theorem elseParts_eq (own : OwnText) (form : ConditionForm) (fuel : Text) (stop : Nat) :
    elseParts own form fuel stop = .ok (own.elseParts form fuel stop) := by
  fun_induction OwnText.elseParts own form fuel stop with
  | case1 fuel stop m isElseIf noKeyword =>
      rw [elseParts]
      simp only [isElseIf, noKeyword]
      rfl
  | case2 fuel stop m isElseIf keyword isKeyword ifAt unfinished =>
      rw [elseParts]
      simp only [isElseIf, isKeyword, conditionedEnd_eq]
      rw [unfinished]
      rfl
  | case3 stop m isElseIf keyword isKeyword ifAt next finished =>
      rw [elseParts]
      simp only [isElseIf, isKeyword, conditionedEnd_eq]
      rw [finished]
      rfl
  | case4 stop m isElseIf keyword isKeyword ifAt next finished x fuel last labels taken more ih =>
      rw [elseParts]
      simp only [isElseIf, isKeyword, conditionedEnd_eq]
      rw [finished]
      change (elseParts own form fuel next >>= _) = _
      rw [ih, more]
      rfl
  | case5 fuel stop noElseIf m isElse next finished =>
      rw [elseParts]
      simp only [noElseIf, isElse, bodyEnd_eq, finished]
      rfl
  | case6 fuel stop noElseIf m isElse unfinished =>
      rw [elseParts]
      simp only [noElseIf, isElse, bodyEnd_eq, unfinished]
      rfl
  | case7 fuel stop noElseIf noElse =>
      rw [elseParts]
      simp only [noElseIf, noElse]
      rfl

theorem ifElse_eq (own : OwnText) (form : ConditionForm) (m : Match) :
    ifElse own form m = ofOption (own.ifElse? form m) := by
  rw [ifElse, conditionAt_eq, OwnText.ifElse?]
  simp only [bodyEnd_eq, elseParts_eq, lift_ok, pure_eq, ofOption_bind]
  rfl

theorem loop_eq (own : OwnText) (kind : FlowKind) (form : ConditionForm) (bare : Option FlowKind)
    (m : Match) : loop own kind form bare m = ofOption (own.loop? kind form bare m) := by
  rw [loop, conditionAt_eq, OwnText.loop?]
  simp only [bodyEnd_eq, pure_eq, ofOption_bind]
  rfl

theorem doWhile_eq (filled : 0 < m.stop) : doWhile own m = ofOption (own.doWhile? m) := by
  rw [doWhile, OwnText.doWhile?, subtract_eq filled, lift_ok, ofOption_some_bind, braced_eq]
  cases braced : Block.braced? own.code (m.stop - 1) '{' '}' with
  | none => rfl
  | some block =>
      obtain ⟨_, _, _, _, _, _, _, _, atStop, _⟩ := Block.braced?_spec braced
      rw [ofOption_some_bind, Option.bind_eq_bind, Option.bind_some]
      cases OwnText.whilePart.find? (own.code.rest block.stop) with
      | none => rfl
      | some tail =>
          have width : 0 < '}'.utf8Size := by decide
          have positive : 1 ≤ block.stop + tail.stop := by omega
          dsimp only
          rw [subtract_eq positive, lift_ok, ofOption_some_bind, conditionAt_eq, attempt_ofOption,
            ofOption_some_bind]
          cases own.conditionAt? (block.stop + tail.stop - 1) .parentheses with
          | none => rfl
          | some found => rfl

theorem afterParentheses_eq (own : OwnText) (offset : Nat) :
    afterParentheses own offset = ofOption (own.afterParentheses? offset) := by
  rw [afterParentheses, OwnText.afterParentheses?]
  cases own.nextIs? offset '(' with
  | none => rfl
  | some opening =>
      dsimp only
      rw [braced_eq]
      exact ofOption_map _ _

theorem afterFilter_eq (own : OwnText) (offset : Nat) :
    afterFilter own offset = ofOption (own.afterFilter? offset) := by
  rw [afterFilter, OwnText.afterFilter?]
  cases found : OwnText.catchFilter.find? (own.code.rest offset) with
  | none => rfl
  | some filter =>
      have positive := ((Pattern.find?_sound found).stop_visibleBefore (by decide)).pos
      dsimp only
      rw [subtract_eq (by omega), lift_ok, ofOption_some_bind, braced_eq]
      exact ofOption_map _ _

theorem catchPart_eq {more : Nat → String → OptionT Checked (Nat × List String)}
    {more? : Nat → String → Option (Nat × List String)} (stop : Nat)
    (same : ∀ next label, more next label = ofOption (more? next label)) :
    catchPart own stop more = ofOption
      (match OwnText.catchPart.find? (own.code.rest stop) with
      | some m => do
        let (cursor, inside) ← own.afterParentheses? (stop + m.stop)
        let cursor ← own.afterFilter? cursor
        match own.bodyEnd? cursor with
        | none => some (stop, [])
        | some next => more? next (own.catchLabel inside)
      | none =>
        match OwnText.finallyPart.find? (own.code.rest stop) with
        | some m =>
          match own.bodyEnd? (stop + m.stop) with
          | some next => some (next, ["finally"])
          | none => some (stop, [])
        | none => some (stop, [])) := by
  rw [catchPart]
  cases OwnText.catchPart.find? (own.code.rest stop) with
  | some m =>
      simp only [afterParentheses_eq, afterFilter_eq, bodyEnd_eq, attempt_ofOption,
        ofOption_some_bind, pure_eq, same]
      cases own.afterParentheses? (stop + m.stop) with
      | none => rfl
      | some opened =>
          rw [ofOption_some_bind, Option.bind_eq_bind, Option.bind_some]
          cases own.afterFilter? opened.1 with
          | none => rfl
          | some cursor =>
              rw [ofOption_some_bind, Option.bind_eq_bind, Option.bind_some]
              cases own.bodyEnd? cursor with
              | none => rfl
              | some next => rfl
  | none =>
      cases OwnText.finallyPart.find? (own.code.rest stop) with
      | none => rfl
      | some m =>
          simp only [bodyEnd_eq, attempt_ofOption, ofOption_some_bind]
          cases own.bodyEnd? (stop + m.stop) with
          | none => rfl
          | some next => rfl

theorem catchParts_eq (own : OwnText) (fuel : Text) (stop : Nat) :
    catchParts own fuel stop = ofOption (own.catchParts? fuel stop) := by
  induction fuel generalizing stop with
  | nil =>
      rw [OwnText.catchParts?]
      exact catchPart_eq stop fun _ _ => pure_eq _
  | cons x fuel ih =>
      have more : ∀ next label, (do
          let (last, labels) ← catchParts own fuel next
          return (last, label :: labels)) =
            ofOption ((own.catchParts? fuel next).bind fun rest =>
              some (rest.1, label :: rest.2)) := by
        intro next label
        rw [ih]
        exact ofOption_bind _ _
      rw [OwnText.catchParts?]
      exact catchPart_eq stop more

theorem tryCatch_eq (own : OwnText) (m : Match) :
    tryCatch own m = ofOption (own.tryCatch? m) := by
  rw [tryCatch, afterParentheses_eq, OwnText.tryCatch?]
  simp only [bodyEnd_eq, catchParts_eq, pure_eq, ofOption_bind]
  rfl

theorem caseLabel_eq {labelled : Pattern} {readable : Text} (body : Text)
    (found : labelled.FoundIn readable m) :
    caseLabel readable body m = ofOption (OwnText.caseLabel? readable body m) := by
  rw [caseLabel, OwnText.caseLabel?]
  cases isLabel : m.group? .label with
  | none => rfl
  | some span => simp [found.cut_group isLabel, ofOption_ite]

theorem switch_eq (own : OwnText) (form : ConditionForm) (labelled : Pattern) (m : Match) :
    switch own form labelled m = ofOption (own.switch? form labelled m) := by
  have labels : ∀ readable body, collect (caseLabel readable body) (labelled.findAll readable) =
      .ok ((labelled.findAll readable).filterMap (OwnText.caseLabel? readable body)) :=
    fun readable body => collect_eq fun m searched =>
      caseLabel_eq body (Pattern.mem_findAll searched)
  rw [switch, conditionAt_eq, OwnText.switch?]
  simp only [nextIs_eq, braced_eq, labels, lift_ok, pure_eq, ofOption_bind]
  rfl

theorem clauseLabel_eq {clause : Pattern} {pair : KeywordPair} {block : Block}
    (found : clause.FoundIn block.body m) :
    clauseLabel own pair block m = ofOption (own.clauseLabel? pair block m) := by
  rw [clauseLabel, OwnText.clauseLabel?, found.start_isBoundary.cut_before]
  simp only [lift_ok, pure_eq, ofOption_bind, ofOption_ite]
  rfl

theorem clauseLabels_eq (own : OwnText) (pair : KeywordPair) (block : Block)
    (clause : Option Pattern) :
    clauseLabels own pair block clause =
      .ok (match clause with
        | none => []
        | some pattern =>
          (pattern.findAll block.body).filterMap (own.clauseLabel? pair block)) := by
  cases clause with
  | none => rfl
  | some pattern => exact collect_eq fun m searched => clauseLabel_eq (Pattern.mem_findAll searched)

theorem keywords_eq {kind : FlowKind} {pair : KeywordPair} {clause : Option Pattern}
    {first : Option String} (consumes : pair.consumes = true)
    (opened : pair.opener.FoundIn own.code m) :
    keywords own kind pair clause first m =
      ofOption (own.keywords? kind pair clause first m) := by
  have span : own.code.cut m.span = .ok (own.code.slice m.span) :=
    Text.cut_eq_slice (opened.start_isBoundary.isSome_slice? opened.after_in.isBoundary
      opened.start_le_stop)
  have shorter : (own.code.slice m.span).trimStart.size ≤ (own.code.slice m.span).size := by
    have cut : (own.code.slice m.span).takeWhile isBlank ++ (own.code.slice m.span).trimStart =
        own.code.slice m.span := List.takeWhile_append_dropWhile
    calc (own.code.slice m.span).trimStart.size
        ≤ Text.size ((own.code.slice m.span).takeWhile isBlank) +
            (own.code.slice m.span).trimStart.size := Nat.le_add_left _ _
      _ = (own.code.slice m.span).size := by rw [← Text.size_append, cut]
  rw [keywords, keyword_eq consumes opened, OwnText.keywords?]
  simp only [clauseLabels_eq, span, subtract_eq shorter, lift_ok, ofOption_some_bind, pure_eq,
    ofOption_bind]
  rfl

theorem add_eq (sites : Constructs) (found : Option (Construct × List Nat)) :
    add sites (ofOption found) = .ok (sites.add? found) := rfl

theorem sole_eq (found : Option Construct) :
    sole (ofOption found) = ofOption (found.map fun c => (c, [])) := ofOption_map _ _

end Checked

/-- Whether a header that is stepped back from, or the statements around a body, are not empty. -/
def ConstructForm.consumes : ConstructForm → Bool
  | .doWhile header => header.endsVisible
  | .keywords _ pair _ _ => pair.consumes
  | .ifElse .. | .loop .. | .tryCatch _ | .switch .. => true

namespace Checked

theorem addForm_eq {form : ConstructForm} (consumes : form.consumes = true) (own : OwnText)
    (sites : Constructs) : addForm own sites form = .ok (sites.addForm own form) := by
  cases form with
  | ifElse header condition =>
      apply foldlM_eq
      intro sites m _
      rw [ifElse_eq, add_eq]
      split <;> rfl
  | loop header kind condition bare =>
      apply foldlM_eq
      intro sites m _
      rw [loop_eq, sole_eq, add_eq]
      split <;> rfl
  | doWhile header =>
      apply foldlM_eq
      intro sites m searched
      rw [doWhile_eq ((Pattern.mem_findAll searched).stop_visibleBefore consumes).pos, add_eq]
  | tryCatch header =>
      apply foldlM_eq
      intro sites m _
      rw [tryCatch_eq, sole_eq, add_eq]
  | «switch» header condition labelled =>
      apply foldlM_eq
      intro sites m _
      rw [switch_eq, sole_eq, add_eq]
  | keywords kind pair clause first =>
      apply foldlM_eq
      intro sites m searched
      rw [keywords_eq consumes (Pattern.mem_findAll searched), sole_eq, add_eq]

theorem findConstructs_eq {g : Grammar} (consumes : ∀ form ∈ g.constructs, form.consumes = true)
    (own : OwnText) : findConstructs g own = .ok (CallAtlas.findConstructs g own) := by
  have found : g.constructs.foldlM (addForm own) ⟨[], []⟩ =
      .ok (g.constructs.foldl (Constructs.addForm own) ⟨[], []⟩) :=
    foldlM_eq (fun sites form inTable => addForm_eq (consumes form inTable) own sites) _
  rw [findConstructs, found]
  rfl

end Checked

/-! ### The tables of all languages -/

/-- Whether the headers and statements of all constructs of a language are not empty. -/
def Grammar.constructsConsume (g : Grammar) : Bool := g.constructs.all (·.consumes)

/-- The constructs of a declaration are found without an error. -/
theorem Language.constructs_checked {lang : Language} {g : Grammar}
    (scanned : lang.grammar? = some g) (own : OwnText) :
    Checked.findConstructs g own = .ok (findConstructs g own) := by
  have consumes : g.constructsConsume = true :=
    Language.passes_of_grammar? (by decide +kernel) scanned
  exact Checked.findConstructs_eq (List.all_eq_true.1 consumes) own

end CallAtlas
