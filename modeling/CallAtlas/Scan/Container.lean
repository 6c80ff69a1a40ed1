/-
Module: CallAtlas.Scan.Container
Purpose: The classes of a file and the class a position belongs to.
Main definitions: Container, findContainers, containerAt?
-/
import CallAtlas.Block.Braces
import CallAtlas.Scan.Grammar

namespace CallAtlas

/-- A class found in a file. -/
structure Container where
  name : String
  /-- The names of the classes around it and its own, outermost first, with dots between. -/
  path : String
  /-- Where the header starts. -/
  start : Nat
  /-- Where the body starts. -/
  bodyStart : Nat
  /-- Where the body ends. -/
  bodyEnd : Nat
  /-- Whether the body stands in braces. -/
  braces : Bool
deriving Repr, DecidableEq, Inhabited

/-- Whether a byte offset lies in the body. -/
def Container.holds (c : Container) (offset : Nat) : Bool :=
  c.bodyStart ≤ offset && offset < c.bodyEnd

/-- The byte range of the body that goes with a header. -/
def BodyForm.bodyOf? (form : BodyForm) (code : Text) (header : Match) : Option Span :=
  match form with
  | .braces => (Block.braced? code (header.stop - 1) '{' '}').map (·.bodySpan)
  | .keywords pair => (Block.keyword? code header.start pair).map (·.bodySpan)
  | .upTo boundary =>
    let stop := ((boundary.searchFrom? header.after).map (·.start)).getD code.size
    some ⟨header.stop, stop⟩

/-- The container of a header, with its own name as path. -/
def ContainerForm.read? (form : ContainerForm) (code : Text) (header : Match) :
    Option Container := do
  let nameSpan ← header.group? .name
  let body ← form.body.bodyOf? code header
  let name := String.ofList (code.slice nameSpan)
  return {
    name := name
    path := name
    start := header.start
    bodyStart := body.start
    bodyEnd := body.stop
    braces := form.body matches .braces }

/-- The containers of one form, from left to right. -/
def ContainerForm.findAll (form : ContainerForm) (code : Text) : List Container :=
  (form.header.findAll code).filterMap (form.read? code)

/-- Containers, sorted by start, with their paths: behind the path of the last earlier container
that holds the header.  `earlier` holds those before the list, the last one first. -/
def withPaths (earlier : List Container) : List Container → List Container
  | [] => []
  | c :: more =>
    let path :=
      match earlier.find? (·.holds c.start) with
      | some parent => parent.path ++ "." ++ c.name
      | none => c.name
    let placed := { c with path := path }
    placed :: withPaths (placed :: earlier) more

/-- The containers of a file, sorted by start, with their paths. -/
def findContainers (g : Grammar) (code : Text) : List Container :=
  let found := g.containers.flatMap (·.findAll code)
  withPaths [] (found.mergeSort fun a b => a.start ≤ b.start)

/-- The innermost container around a byte offset, if the offset is directly in its body: in braces
no further brace is open there. -/
def containerAt? (containers : List Container) (code : Text) (offset : Nat) :
    Option Container := do
  let c ← containers.reverse.find? (·.holds offset)
  let inner := code.slice ⟨c.bodyStart, offset⟩
  if !c.braces || inner.count '{' == inner.count '}' then some c else none

end CallAtlas
