/-
Module: CallAtlas.Scan.File
Purpose: The records of a source file that is read by patterns.
Main definitions: Views.of, ownTextOf, complexityOf, Grammar.extract
-/
import CallAtlas.Mask
import CallAtlas.Record.FileRecords
import CallAtlas.Scan.Construct
import CallAtlas.Scan.Declaration

namespace CallAtlas

/-!
Declarations inside the body of another declaration are blanked out of it, so every call and every
construct belongs to one declaration.  Records are numbered in the order in which they are found:
by declaration, and within a declaration by position.
-/

/-- The views of a text in a language. -/
def Views.of (lang : Language) (t : Text) : Views :=
  ⟨t, codeView lang t, literalView lang t⟩

/-- The ranges of the declarations that one declaration encloses.  `index` is its own place in the
list: a declaration does not enclose itself. -/
def nestedRanges (declarations : List Declaration) (index : Nat) (d : Declaration) : List Span :=
  (declarations.zipIdx.filter fun (other, j) => j != index && d.encloses other).map (·.1.span)

/-- The body of a declaration without the declarations in it. -/
def ownTextOf (views : Views) (nested : List Span) (body : Span) : OwnText :=
  { code := blankRanges views.code body.start (body.stop - body.start) nested
    literal := blankRanges views.literal body.start (body.stop - body.start) nested }

/-- One, and one more for each decision and each junction of conditions. -/
def Grammar.complexityOf (g : Grammar) (code : Text) : Nat :=
  1 + (g.decisions.findAll code).length + (g.junctions.findAll code).length

/-- The record of a call in a body that starts at byte offset `base`. -/
def CallSite.record (file : SourceFile) (callerId : String) (base number : Nat) (site : CallSite) :
    Call :=
  { id := callId file.path number
    callerId := callerId
    calleeName := site.callee
    calleeId := none
    callType := none
    filePath := file.path
    line := file.text.lineAt (base + site.offset)
    isConditional := false
    isLoop := false }

/-- The record of a construct in a body that starts at byte offset `base`. -/
def Construct.record (file : SourceFile) (limit : Nat) (parentId : String) (base number : Nat)
    (site : Construct) : ControlFlow :=
  { id := flowId file.path number
    kind := site.kind
    parentId := parentId
    filePath := file.path
    line := file.text.lineAt (base + site.start)
    endLine := file.text.lineAt (base + max (site.stop - 1) site.start)
    condition := site.condition.bind (snippet? · limit)
    branches := site.branches }

/-- The record of a declaration. -/
def Declaration.record (file : SourceFile) (complexity : Nat) (d : Declaration) : Function :=
  let qualifiedName := qualify file.moduleName d.scope d.name
  let line := file.text.lineAt d.nameAt
  { id := functionId qualifiedName line
    kind := d.kind
    name := d.name
    qualifiedName := qualifiedName
    moduleName := file.moduleName
    filePath := file.path
    line := line
    endLine := file.text.lineAt (max (d.span.stop - 1) d.nameAt)
    parameters := d.parameters
    decorators := d.decorators
    isAsync := d.isAsync
    isMethod := d.className.isSome
    className := d.className
    docstring := d.docstring
    complexity := complexity }

/-- The calls and constructs of one declaration, and its complexity. -/
structure Findings where
  base : Nat
  complexity : Nat
  calls : List CallSite
  constructs : List Construct
deriving Repr, DecidableEq, Inhabited

/-- What the body of a declaration holds.  Without a body it holds nothing. -/
def Grammar.findings (g : Grammar) (views : Views) (declarations : List Declaration) (index : Nat)
    (d : Declaration) : Findings :=
  match d.body with
  | none => ⟨0, 1, [], []⟩
  | some body =>
    let own := ownTextOf views (nestedRanges declarations index d) body
    ⟨body.start, g.complexityOf own.code, findCalls g own, findConstructs g own⟩

/-- Adds the records of one declaration to those of a file. -/
def FileRecords.addDeclaration (file : SourceFile) (limit : Nat) (records : FileRecords)
    (d : Declaration) (found : Findings) : FileRecords :=
  let f := d.record file found.complexity
  let calls := found.calls.mapIdx fun i site =>
    site.record file f.id found.base (records.calls.length + i)
  let flows := found.constructs.mapIdx fun i site =>
    site.record file limit f.id found.base (records.controlFlows.length + i)
  { records with
    functions := records.functions ++ [f]
    calls := records.calls ++ calls
    controlFlows := records.controlFlows ++ flows }

/-- The declarations of a text, sorted by start. -/
def Grammar.declarationsOf (g : Grammar) (views : Views) : List Declaration :=
  findDeclarations g views (findContainers g views.code)

/-- The records of a source file, entry points apart.  Conditions are cut after `limit`
characters. -/
def Grammar.extract (g : Grammar) (file : SourceFile) (limit : Nat) : FileRecords :=
  let views := Views.of g.language file.text
  let declarations := g.declarationsOf views
  declarations.zipIdx.foldl
    (fun records (d, index) =>
      records.addDeclaration file limit d (g.findings views declarations index d))
    ⟨file.path, file.moduleName, [], [], [], []⟩

end CallAtlas
