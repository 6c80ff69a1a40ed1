/-
Module: CallAtlas.Scan.CallSite
Purpose: The calls in the own text of a declaration.
Main definitions: CallSite, Grammar.accepts, findCalls
-/
import CallAtlas.Pattern.Search
import CallAtlas.Scan.Grammar
import CallAtlas.Text.Words

namespace CallAtlas

/-- A call in the own text of a declaration: what is called, and where the callee starts. -/
structure CallSite where
  callee : String
  offset : Nat
deriving Repr, DecidableEq, Inhabited

/-- The own text of a declaration in two views. -/
structure OwnText where
  /-- Comments and strings blank. -/
  code : Text
  /-- Comments blank. -/
  literal : Text
deriving Repr, DecidableEq, Inhabited

/-- The view a form is looked for in. -/
def OwnText.view (own : OwnText) : ViewKind → Text
  | .code => own.code
  | .literal => own.literal

/-- The word that ends a text; empty if it ends otherwise. -/
def lastWord (t : Text) : Text :=
  (t.reverse.takeWhile fun c => isNameChar c || c == '_').reverse

/-- Whether a callee after the given text is a call: it is no keyword, no annotation and no
instantiation. -/
def Grammar.accepts (g : Grammar) (before callee : Text) : Bool :=
  let single := callee.all fun c => isNameChar c || c == '_' || c == '$' || c == '/'
  let before := before.trimEnd
  let previous := lastWord before
  !(single && g.isKeyword callee) && before.getLast? != some '@' &&
    (previous.isEmpty || !g.isConstructorWord previous)

/-- The call of a match, if it is one. -/
def CallForm.read? (g : Grammar) (form : CallForm) (t : Text) (m : Match) : Option (Nat × Text) := do
  let span ← m.group? .callee
  let callee := t.slice span
  if form.filtered && !g.accepts (t.slice ⟨0, span.start⟩) callee then none
  else some (span.start, callee.squeeze)

/-- Calls without those whose offset an earlier one has taken, and without empty callees. -/
def firstByOffset (seen : List Nat) : List (Nat × Text) → List CallSite
  | [] => []
  | (offset, callee) :: more =>
    if seen.contains offset then firstByOffset seen more
    else if callee.isEmpty then firstByOffset (offset :: seen) more
    else ⟨String.ofList callee, offset⟩ :: firstByOffset (offset :: seen) more

/-- The calls in the own text of a declaration, in the order of the text. -/
def findCalls (g : Grammar) (own : OwnText) : List CallSite :=
  let found := g.calls.flatMap fun form =>
    ((form.pattern.findAll (own.view form.view)).filterMap
      (form.read? g (own.view form.view)))
  (firstByOffset [] found).mergeSort fun a b => a.offset ≤ b.offset

end CallAtlas
