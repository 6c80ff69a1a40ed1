/-
Module: CallAtlas.Proofs.FileReferences
Purpose: The records of a source file refer to functions of that file.  Files read by patterns and
  files read from a tree number and name their records apart from each other; both end in the same
  property, which the entry points then share.
Main definitions: Declares, ReferencesClosed, Python.Yield.OwnedBy, entryId, EntryPoint.IsAt,
  EntryPoint.MadeAt, Language.entriesOf, numberedId
Main results: Grammar.extract_closed, Python.recordsOf_closed, entryPoints_isAt,
  Language.extractWith_closed
-/
import CallAtlas.Extraction

namespace CallAtlas

/-! ### References to functions -/

/-- Some function has the given id and stands in the given file. -/
def Declares (functions : List Function) (id filePath : String) : Prop :=
  ∃ f ∈ functions, f.id = id ∧ f.filePath = filePath

/-- Every record of one kind belongs to a function in the file of the record. -/
def AllOwned {α : Type} (functions : List Function) (owner filePath : α → String)
    (records : List α) : Prop :=
  ∀ r ∈ records, Declares functions (owner r) (filePath r)

theorem AllOwned.append {α : Type} {functions functions' : List Function}
    {owner filePath : α → String} {records records' : List α}
    (first : AllOwned functions owner filePath records)
    (second : AllOwned functions' owner filePath records') :
    AllOwned (functions ++ functions') owner filePath (records ++ records') := by
  intro r listed
  rcases List.mem_append.1 listed with before | after
  · obtain ⟨f, declared, same⟩ := first r before
    exact ⟨f, List.mem_append_left _ declared, same⟩
  · obtain ⟨f, declared, same⟩ := second r after
    exact ⟨f, List.mem_append_right _ declared, same⟩

/-- Every record refers to a function in the file of the record. -/
structure ReferencesClosed (functions : List Function) (calls : List Call)
    (controlFlows : List ControlFlow) (entryPoints : List EntryPoint) : Prop where
  calls : AllOwned functions (·.callerId) (·.filePath) calls
  controlFlows : AllOwned functions (·.parentId) (·.filePath) controlFlows
  entryPoints : AllOwned functions (·.functionId) (·.filePath) entryPoints

theorem ReferencesClosed.nil : ReferencesClosed [] [] [] [] :=
  ⟨by simp [AllOwned], by simp [AllOwned], by simp [AllOwned]⟩

theorem ReferencesClosed.append {functions functions' : List Function} {calls calls' : List Call}
    {flows flows' : List ControlFlow} {entries entries' : List EntryPoint}
    (first : ReferencesClosed functions calls flows entries)
    (second : ReferencesClosed functions' calls' flows' entries') :
    ReferencesClosed (functions ++ functions') (calls ++ calls') (flows ++ flows')
      (entries ++ entries') :=
  ⟨first.calls.append second.calls, first.controlFlows.append second.controlFlows,
    first.entryPoints.append second.entryPoints⟩

/-- The records of a file refer to its functions. -/
def FileRecords.Closed (r : FileRecords) : Prop :=
  ReferencesClosed r.functions r.calls r.controlFlows r.entryPoints

/-! ### Files read by patterns -/

/-- The records of one declaration refer to its function. -/
theorem FileRecords.addDeclaration_closed {file : SourceFile} {limit : Nat} {records : FileRecords}
    (closed : records.Closed) (d : Declaration) (found : Findings) :
    (records.addDeclaration file limit d found).Closed := by
  have here : ReferencesClosed [d.record file found.complexity]
      (found.calls.mapIdx fun i site =>
        site.record file (d.record file found.complexity).id found.base (records.calls.length + i))
      (found.constructs.mapIdx fun i site =>
        site.record file limit (d.record file found.complexity).id found.base
          (records.controlFlows.length + i)) [] := by
    refine ⟨?_, ?_, by simp [AllOwned]⟩
    · intro c listed
      obtain ⟨i, _, rfl⟩ := List.mem_mapIdx.1 listed
      exact ⟨_, List.mem_singleton_self _, rfl, rfl⟩
    · intro c listed
      obtain ⟨i, _, rfl⟩ := List.mem_mapIdx.1 listed
      exact ⟨_, List.mem_singleton_self _, rfl, rfl⟩
  have both := ReferencesClosed.append closed here
  rw [List.append_nil] at both
  exact both

/-- The records of a file that is read by patterns refer to its functions. -/
theorem Grammar.extract_closed (g : Grammar) (file : SourceFile) (limit : Nat) :
    (g.extract file limit).Closed := by
  unfold Grammar.extract
  refine List.foldlRecOn (motive := FileRecords.Closed) _ _ .nil ?_
  intro records closed item _
  exact records.addDeclaration_closed closed _ _

/-! ### Files read from a tree -/

namespace Python

/-- Every record of one kind is in the file, and it belongs to a listed function or to the function
around all of them, if there is one. -/
def OwnedIn {α : Type} (file : SourceFile) (around : Option String) (functions : List Function)
    (owner filePath : α → String) (records : List α) : Prop :=
  ∀ r ∈ records, filePath r = file.path ∧
    (around = some (owner r) ∨ ∃ f ∈ functions, f.id = owner r)

section OwnedIn

variable {α : Type} {file : SourceFile} {around : Option String}
  {functions functions' : List Function} {owner filePath : α → String} {records records' : List α}

theorem OwnedIn.append (first : OwnedIn file around functions owner filePath records)
    (second : OwnedIn file around functions' owner filePath records') :
    OwnedIn file around (functions ++ functions') owner filePath (records ++ records') := by
  intro r listed
  rcases List.mem_append.1 listed with before | after
  · obtain ⟨inFile, outside | ⟨f, declared, same⟩⟩ := first r before
    · exact ⟨inFile, .inl outside⟩
    · exact ⟨inFile, .inr ⟨f, List.mem_append_left _ declared, same⟩⟩
  · obtain ⟨inFile, outside | ⟨f, declared, same⟩⟩ := second r after
    · exact ⟨inFile, .inl outside⟩
    · exact ⟨inFile, .inr ⟨f, List.mem_append_right _ declared, same⟩⟩

/-- What belongs to a function belongs to a listed one once the function is listed. -/
theorem OwnedIn.close {f : Function}
    (inside : OwnedIn file (some f.id) functions owner filePath records) :
    OwnedIn file around (f :: functions) owner filePath records := by
  intro r listed
  obtain ⟨inFile, outside | ⟨g, declared, same⟩⟩ := inside r listed
  · rw [Option.some.injEq] at outside
    exact ⟨inFile, .inr ⟨f, List.mem_cons_self, outside⟩⟩
  · exact ⟨inFile, .inr ⟨g, List.mem_cons_of_mem f declared, same⟩⟩

/-- With no function around them records belong to listed functions in the file. -/
theorem OwnedIn.declares (inFile : ∀ f ∈ functions, f.filePath = file.path)
    (owned : OwnedIn file none functions owner filePath records) :
    AllOwned functions owner filePath records := by
  intro r listed
  obtain ⟨here, outside | ⟨f, declared, same⟩⟩ := owned r listed
  · cases outside
  · exact ⟨f, declared, same, (inFile f declared).trans here.symm⟩

end OwnedIn

/-- What was found in a scope: all of it is in the file, and a call or construct belongs to a
function that was found as well or to the innermost function around the scope. -/
structure Yield.OwnedBy (file : SourceFile) (scope : Scope) (y : Yield) : Prop where
  functions : ∀ f ∈ y.functions, f.filePath = file.path
  calls : OwnedIn file scope.functionId y.functions (·.callerId) (·.filePath) y.calls
  controlFlows :
    OwnedIn file scope.functionId y.functions (·.parentId) (·.filePath) y.controlFlows

namespace Yield

variable {file : SourceFile} {scope : Scope}

theorem OwnedBy.empty : Yield.empty.OwnedBy file scope :=
  ⟨by simp [Yield.empty], by simp [Yield.empty, OwnedIn], by simp [Yield.empty, OwnedIn]⟩

theorem OwnedBy.append {a b : Yield} (first : a.OwnedBy file scope)
    (second : b.OwnedBy file scope) : (a ++ b).OwnedBy file scope where
  functions := by
    intro f listed
    rcases List.mem_append.1 listed with before | after
    · exact first.functions f before
    · exact second.functions f after
  calls := first.calls.append second.calls
  controlFlows := first.controlFlows.append second.controlFlows

theorem OwnedBy.single {f : Function} (inFile : f.filePath = file.path) :
    (Yield.mk [f] [] []).OwnedBy file scope :=
  ⟨by simpa using inFile, by simp [OwnedIn], by simp [OwnedIn]⟩

/-- What is found in the body of a function belongs to that function, if to none inside it. -/
theorem OwnedBy.of_enterFunction {f : Function} {y : Yield} {name : String}
    (inFile : f.filePath = file.path) (body : y.OwnedBy file (scope.enterFunction name f.id)) :
    (Yield.mk [f] [] [] ++ y).OwnedBy file scope where
  functions := by
    intro g listed
    rcases List.mem_cons.1 listed with rfl | inside
    · exact inFile
    · exact body.functions g inside
  calls := body.calls.close
  controlFlows := body.controlFlows.close

/-- A class does not own what is found in its body. -/
theorem OwnedBy.of_enterClass {y : Yield} {name : String}
    (owned : y.OwnedBy file (scope.enterClass name)) : y.OwnedBy file scope :=
  ⟨owned.functions, owned.calls, owned.controlFlows⟩

theorem OwnedBy.of_enterFlow {y : Yield} {kind : FlowKind}
    (owned : y.OwnedBy file (scope.enterFlow kind)) : y.OwnedBy file scope :=
  ⟨owned.functions, owned.calls, owned.controlFlows⟩

theorem OwnedBy.callRecord (t : Tree) :
    (Yield.mk [] (callRecord file scope t) []).OwnedBy file scope := by
  refine ⟨by simp, ?_, by simp [OwnedIn]⟩
  intro c listed
  simp only [Python.callRecord] at listed
  split at listed
  · next id target inside _ =>
      split at listed
      · rw [List.mem_singleton.1 listed]
        exact ⟨rfl, .inl inside⟩
      · cases listed
  · cases listed

theorem OwnedBy.flowRecord (limit : Nat) (kind : FlowKind) (t : Tree) :
    (Yield.mk [] [] (flowRecord file limit scope kind t)).OwnedBy file scope := by
  refine ⟨by simp, by simp [OwnedIn], ?_⟩
  intro c listed
  simp only [Python.flowRecord] at listed
  split at listed
  · next id inside =>
      rw [List.mem_singleton.1 listed]
      exact ⟨rfl, .inl inside⟩
  · cases listed

end Yield

mutual

/-- What a node yields belongs to the functions in it or to the scope it stands in. -/
theorem walk_owned (file : SourceFile) (limit : Nat) (scope : Scope) (decorators : List String) :
    ∀ t : Tree, (walk file limit scope decorators t).OwnedBy file scope
  | .node kind role span children => by
      unfold walk
      dsimp only
      split
      · split
        · -- a function: the body belongs to it, the parameters to the scope around it
          refine Yield.OwnedBy.append ?_ (walkRole_owned file limit scope .parameters children)
          exact .of_enterFunction rfl (walkRole_owned file limit _ .body children)
        · exact walkAll_owned file limit scope [] children
      · split
        · -- a class: neither its bases nor its body belong to it
          exact ((Yield.OwnedBy.single rfl).append
            (walkRole_owned file limit scope .superclasses children)).append
            (walkRole_owned file limit _ .body children).of_enterClass
        · exact walkAll_owned file limit scope [] children
      · exact walkAll_owned file limit scope _ children
      · exact (Yield.OwnedBy.callRecord _).append (walkAll_owned file limit scope [] children)
      · split
        · exact (Yield.OwnedBy.flowRecord limit _ _).append
            (walkAll_owned file limit _ [] children).of_enterFlow
        · exact walkAll_owned file limit scope [] children

theorem walkAll_owned (file : SourceFile) (limit : Nat) (scope : Scope)
    (decorators : List String) :
    ∀ ts : List Tree, (walkAll file limit scope decorators ts).OwnedBy file scope
  | [] => .empty
  | t :: more => by
      rw [walkAll]
      exact (walk_owned file limit scope decorators t).append
        (walkAll_owned file limit scope decorators more)

theorem walkRole_owned (file : SourceFile) (limit : Nat) (scope : Scope) (role : Role) :
    ∀ ts : List Tree, (walkRole file limit scope role ts).OwnedBy file scope
  | [] => .empty
  | t :: more => by
      rw [walkRole]
      split
      · exact walk_owned file limit scope [] t
      · exact walkRole_owned file limit scope role more

end

/-- The records of a file that is read from a tree refer to its functions, for every tree. -/
theorem recordsOf_closed (file : SourceFile) (limit : Nat) (tree : Tree) :
    (recordsOf file limit tree).Closed := by
  have owned := walk_owned file limit .outermost [] tree
  refine ⟨?_, ?_, by simp [AllOwned, recordsOf]⟩
  -- the numbers that records get at the end change their own ids only
  · intro c listed
    obtain ⟨i, bound, rfl⟩ := List.mem_mapIdx.1 listed
    have belongs := owned.calls.declares owned.functions _ (List.getElem_mem bound)
    exact belongs
  · intro c listed
    obtain ⟨i, bound, rfl⟩ := List.mem_mapIdx.1 listed
    have belongs := owned.controlFlows.declares owned.functions _ (List.getElem_mem bound)
    exact belongs

end Python

/-! ### Entry points -/

/-- The kinds that entry points of source files have. -/
def entryKinds : List String :=
  ["main_function", "route", "scheduled", "init_function", "program_event"]

/-- The id of an entry point: its kind, the id of its function, and what tells it from others. -/
def entryId (kind functionId suffix : String) : String :=
  "entry:" ++ kind ++ ":" ++ functionId ++ suffix

/-- The entry point stands at the function: it has its id, its file and its line, one of the known
kinds, and an id that shows the function. -/
structure EntryPoint.IsAt (e : EntryPoint) (f : Function) : Prop where
  functionId : e.functionId = f.id
  filePath : e.filePath = f.filePath
  line : e.line = f.line
  kind : e.kind ∈ entryKinds
  id : ∃ suffix, e.id = entryId e.kind f.id suffix

/-- Something behind its id leaves an entry point at its function. -/
theorem EntryPoint.IsAt.append_id {e : EntryPoint} {f : Function} (placed : e.IsAt f)
    (more : String) : { e with id := e.id ++ more }.IsAt f := by
  obtain ⟨suffix, shown⟩ := placed.id
  refine ⟨placed.functionId, placed.filePath, placed.line, placed.kind, suffix ++ more, ?_⟩
  rw [shown, entryId, entryId, String.append_assoc]

/-- The entry point is made for the function: it stands at it, and its id ends in that of the
function. -/
structure EntryPoint.MadeAt (e : EntryPoint) (f : Function) : Prop where
  functionId : e.functionId = f.id
  filePath : e.filePath = f.filePath
  line : e.line = f.line
  kind : e.kind ∈ entryKinds
  id : e.id = entryId e.kind f.id ""

theorem EntryPoint.MadeAt.isAt {e : EntryPoint} {f : Function} (made : e.MadeAt f) : e.IsAt f :=
  ⟨made.functionId, made.filePath, made.line, made.kind, "", made.id⟩

namespace Entry

variable {f : Function} {e : EntryPoint}

theorem ofFunction_madeAt (f : Function) {kind : String} (known : kind ∈ entryKinds) :
    (EntryPoint.ofFunction f kind).MadeAt f :=
  ⟨rfl, rfl, rfl, known, by rw [entryId, String.append_empty]; rfl⟩

theorem note_madeAt (placed : e.MadeAt f) (key value : String) : (e.note key value).MadeAt f :=
  ⟨placed.functionId, placed.filePath, placed.line, placed.kind, placed.id⟩

theorem routeOf_madeAt (f : Function) (decorator : String) : (routeOf f decorator).MadeAt f :=
  note_madeAt (ofFunction_madeAt f (by decide)) _ _

theorem scheduledOf_madeAt (f : Function) (decorator : String) :
    (scheduledOf f decorator).MadeAt f :=
  note_madeAt (ofFunction_madeAt f (by decide)) _ _

theorem notePath_madeAt (placed : e.MadeAt f) (path : Option String) :
    (notePath e path).MadeAt f := by
  cases path with
  | some p => exact note_madeAt placed _ _
  | none => exact placed

theorem mainIf_madeAt {isMain : Bool} (listed : e ∈ mainIf isMain f) : e.MadeAt f := by
  unfold mainIf at listed
  split at listed
  · rw [List.mem_singleton.1 listed]
    exact ofFunction_madeAt f (by decide)
  · cases listed

/-- Most languages list the main entry of a function and then those that its decorators give. -/
theorem main_or_decorated_madeAt {isMain : Bool} {pick : String → Option EntryPoint}
    (each : ∀ {d e}, pick d = some e → e.MadeAt f)
    (listed : e ∈ mainIf isMain f ++ f.decorators.filterMap pick) : e.MadeAt f := by
  rcases List.mem_append.1 listed with main | decorated
  · exact mainIf_madeAt main
  · obtain ⟨d, _, chosen⟩ := List.mem_filterMap.1 decorated
    exact each chosen

/-- A decorator gives a route, a scheduled entry or none. -/
theorem route_or_scheduled_madeAt {isRoute isScheduled : Prop} [Decidable isRoute]
    [Decidable isScheduled] {d : String} {path : Option String}
    (chosen : (if isRoute then some (notePath (routeOf f d) path)
      else if isScheduled then some (scheduledOf f d) else none) = some e) : e.MadeAt f := by
  split at chosen
  · injection chosen with same
    exact same ▸ notePath_madeAt (routeOf_madeAt f d) path
  · split at chosen
    · injection chosen with same
      exact same ▸ scheduledOf_madeAt f d
    · cases chosen

theorem ofJava_madeAt (listed : e ∈ ofJava f) : e.MadeAt f :=
  main_or_decorated_madeAt route_or_scheduled_madeAt listed

theorem ofPython_madeAt (listed : e ∈ ofPython f) : e.MadeAt f :=
  main_or_decorated_madeAt route_or_scheduled_madeAt listed

theorem ofScript_madeAt (listed : e ∈ ofScript f) : e.MadeAt f := by
  refine main_or_decorated_madeAt ?_ listed
  intro d e chosen
  dsimp only at chosen
  split at chosen
  · injection chosen with same
    exact same ▸ notePath_madeAt (note_madeAt (routeOf_madeAt f d) _ _) _
  · cases chosen

theorem ofCSharp_madeAt (listed : e ∈ ofCSharp f) : e.MadeAt f := by
  rcases List.mem_append.1 listed with main | decorated
  · exact mainIf_madeAt main
  · split at decorated
    · rw [List.mem_singleton.1 decorated]
      exact notePath_madeAt (routeOf_madeAt f _) _
    · cases decorated

theorem ofGo_madeAt (listed : e ∈ ofGo f) : e.MadeAt f := by
  unfold ofGo at listed
  split at listed
  · split at listed
    · rw [List.mem_singleton.1 listed]
      exact ofFunction_madeAt f (by decide)
    · split at listed
      · rw [List.mem_singleton.1 listed]
        exact ofFunction_madeAt f (by decide)
      · cases listed
  · cases listed

theorem ofAbap_madeAt (listed : e ∈ ofAbap f) : e.MadeAt f := by
  unfold ofAbap at listed
  split at listed
  · have entered : (EntryPoint.ofFunction f "program_event").MadeAt f :=
      ofFunction_madeAt f (by decide)
    have placed := note_madeAt entered "event" f.name
    split at listed
    · rw [List.mem_singleton.1 listed]
      exact note_madeAt placed _ _
    · rw [List.mem_singleton.1 listed]
      exact placed
  · cases listed

end Entry

/-- The entries of a function in a language, before repeated ids are numbered. -/
def Language.entriesOf : Language → Function → List EntryPoint
  | .java => Entry.ofJava
  | .javascript | .typescript => Entry.ofScript
  | .csharp => Entry.ofCSharp
  | .go => Entry.ofGo
  | .abap => Entry.ofAbap
  | .python => Entry.ofPython

/-- Whether repeated ids of entries are numbered. -/
def Language.numbersEntries : Language → Bool
  | .java | .javascript | .typescript | .python => true
  | .csharp | .go | .abap => false

theorem entryPoints_eq (lang : Language) (functions : List Function) :
    entryPoints lang functions =
      if lang.numbersEntries then numberDuplicates (functions.flatMap lang.entriesOf)
      else functions.flatMap lang.entriesOf := by
  cases lang <;> rfl

theorem Language.entriesOf_madeAt {lang : Language} {f : Function} {e : EntryPoint}
    (listed : e ∈ lang.entriesOf f) : e.MadeAt f := by
  cases lang with
  | java => exact Entry.ofJava_madeAt listed
  | javascript | typescript => exact Entry.ofScript_madeAt listed
  | csharp => exact Entry.ofCSharp_madeAt listed
  | go => exact Entry.ofGo_madeAt listed
  | abap => exact Entry.ofAbap_madeAt listed
  | python => exact Entry.ofPython_madeAt listed

/-- An id behind a number of entries with the same id. -/
def numberedId (id : String) (earlier : Nat) : String :=
  if earlier = 0 then id else id ++ "#" ++ toString (earlier + 1)

theorem exists_suffix_numberedId (id : String) (earlier : Nat) :
    ∃ suffix, numberedId id earlier = id ++ suffix := by
  unfold numberedId
  split
  · exact ⟨"", by rw [String.append_empty]⟩
  · exact ⟨"#" ++ toString (earlier + 1), by rw [String.append_assoc]⟩

theorem numberFrom_cons (seen : List String) (e : EntryPoint) (more : List EntryPoint) :
    numberFrom seen (e :: more) =
      { e with id := numberedId e.id (seen.count e.id) } :: numberFrom (e.id :: seen) more :=
  rfl

/-- Numbering puts something behind ids and changes nothing else. -/
theorem forall_mem_numberFrom {P : EntryPoint → Prop}
    (blind : ∀ e suffix, P e → P { e with id := e.id ++ suffix })
    {seen : List String} {entries : List EntryPoint} (each : ∀ e ∈ entries, P e) :
    ∀ e ∈ numberFrom seen entries, P e := by
  induction entries generalizing seen with
  | nil =>
      intro e listed
      cases listed
  | cons first more ih =>
      intro e listed
      rw [numberFrom_cons] at listed
      rcases List.mem_cons.1 listed with rfl | behind
      · obtain ⟨suffix, numbered⟩ := exists_suffix_numberedId first.id (seen.count first.id)
        rw [numbered]
        exact blind first suffix (each first List.mem_cons_self)
      · exact ih (fun e behind => each e (List.mem_cons_of_mem first behind)) e behind

/-- Every entry point of a file stands at one of its functions. -/
theorem entryPoints_isAt {lang : Language} {functions : List Function} {e : EntryPoint}
    (listed : e ∈ entryPoints lang functions) : ∃ f ∈ functions, e.IsAt f := by
  have plain : ∀ e ∈ functions.flatMap lang.entriesOf, ∃ f ∈ functions, e.IsAt f := by
    intro e listed
    obtain ⟨f, declared, entry⟩ := List.mem_flatMap.1 listed
    exact ⟨f, declared, (Language.entriesOf_madeAt entry).isAt⟩
  have blind : ∀ (e : EntryPoint) (suffix : String), (∃ f ∈ functions, e.IsAt f) →
      ∃ f ∈ functions, { e with id := e.id ++ suffix }.IsAt f := by
    rintro e suffix ⟨f, declared, placed⟩
    exact ⟨f, declared, placed.append_id suffix⟩
  rw [entryPoints_eq] at listed
  split at listed
  · exact forall_mem_numberFrom blind plain e listed
  · exact plain e listed

/-! ### All languages -/

/-- The records of a source file refer to its functions, in every language and for every text.  The
tree of a Python text may be any tree. -/
theorem Language.extractWith_closed (parse : Text → Python.Tree) (lang : Language)
    (file : SourceFile) (limit : Nat) : (lang.extractWith parse file limit).Closed := by
  have declared : (lang.declaredWith parse file limit).Closed := by
    unfold Language.declaredWith
    split
    · exact Grammar.extract_closed _ file limit
    · exact Python.recordsOf_closed file limit _
  refine ⟨declared.calls, declared.controlFlows, ?_⟩
  intro e listed
  obtain ⟨f, found, placed⟩ := entryPoints_isAt listed
  exact ⟨f, found, placed.functionId.symm, placed.filePath.symm⟩

end CallAtlas
