/-
Module: CallAtlas.Proofs.PythonCallOwners
Purpose: Which function a Python call belongs to.  The steps to a call say it: the last one that
  leads into the body of a function tells the function, and what is passed after it tells whether
  the call is conditional or in a loop.  Headers of definitions are not part of their bodies, so
  their calls belong to the function around the definition.
Main definitions: Innermost, definitionId, Step.InHeader, Site.HasCall, Site.IsRecordedBy
Main results: functionId_of_innermost, mem_flows_of_innermost, calls_belong_to_innermost_functions
-/
import Mathlib.Data.List.Forall2
import Mathlib.Data.List.Induction
import CallAtlas.Proofs.PythonSites

namespace CallAtlas.Python

/-! ### The innermost function -/

/-- The last step of several that leads into the body of a function, with the steps before it, which
lead to the function, and those after it, which stay in the body.  A definition without a name is
no function: its parts belong to what is around it. -/
structure Innermost (steps outer : List Step) (entry : Step) (inner : List Step) : Prop where
  split : steps = outer ++ entry :: inner
  enters : entry.InFunctionBody
  stays : ∀ s ∈ inner, ¬ s.InFunctionBody

theorem exists_innermost {steps : List Step} (inside : ∃ s ∈ steps, s.InFunctionBody) :
    ∃ outer entry inner, Innermost steps outer entry inner := by
  induction steps with
  | nil =>
      obtain ⟨s, listed, _⟩ := inside
      cases listed
  | cons s steps ih =>
      by_cases later : ∃ s ∈ steps, s.InFunctionBody
      · obtain ⟨outer, entry, inner, innermost⟩ := ih later
        exact ⟨s :: outer, entry, inner, congrArg (s :: ·) innermost.split, innermost.enters,
          innermost.stays⟩
      · have enters : s.InFunctionBody := by
          simpa [later] using inside
        exact ⟨[], s, steps, rfl, enters, fun s listed body => later ⟨s, listed, body⟩⟩

/-- Steps that enter no function leave the innermost one as it is. -/
theorem Innermost.append {front outer inner back : List Step} {entry : Step}
    (innermost : Innermost front outer entry inner) (stays : ∀ s ∈ back, ¬ s.InFunctionBody) :
    Innermost (front ++ back) outer entry (inner ++ back) := by
  refine ⟨?_, innermost.enters, ?_⟩
  · simp [innermost.split]
  · intro s listed
    cases List.mem_append.1 listed with
    | inl inside => exact innermost.stays s inside
    | inr behind => exact stays s behind

/-! ### Scopes behind several steps -/

section Scopes

variable {file : SourceFile} {scope : Scope} {steps outer inner : List Step} {entry s : Step}
  {flow : FlowKind}

theorem functionId_after (stays : ¬ s.InFunctionBody) :
    (scope.after file s).functionId = scope.functionId := by
  by_cases inClass : s.InClassBody
  · rw [Scope.after_classBody inClass]
    rfl
  · rw [Scope.after_other stays inClass]

theorem flows_after (stays : ¬ s.InFunctionBody) :
    (scope.after file s).flows = s.holder.kind.flow?.toList ++ scope.flows := by
  by_cases inClass : s.InClassBody
  · rw [Scope.after_classBody inClass, (Tree.definesClass_iff.1 inClass.1).1]
    rfl
  · rw [Scope.after_other stays inClass]

/-- Inside a function its id is kept. -/
theorem functionId_foldl_after (stays : ∀ s ∈ steps, ¬ s.InFunctionBody) :
    (steps.foldl (Scope.after file) scope).functionId = scope.functionId := by
  induction steps generalizing scope with
  | nil => rfl
  | cons s steps ih =>
      have here := List.forall_mem_cons.1 stays
      exact (ih here.2).trans (functionId_after here.1)

/-- Inside a function the constructs that are passed are added up. -/
theorem mem_flows_foldl_after (stays : ∀ s ∈ steps, ¬ s.InFunctionBody) :
    flow ∈ (steps.foldl (Scope.after file) scope).flows ↔
      (∃ s ∈ steps, s.holder.kind.flow? = some flow) ∨ flow ∈ scope.flows := by
  induction steps generalizing scope with
  | nil => simp
  | cons s steps ih =>
      have here := List.forall_mem_cons.1 stays
      rw [List.foldl_cons, ih here.2, flows_after here.1]
      simp [or_assoc, or_comm]

/-- The step leads into the body of a definition. -/
def Step.EntersBody (s : Step) : Prop := s.InFunctionBody ∨ s.InClassBody

instance (s : Step) : Decidable s.EntersBody :=
  inferInstanceAs (Decidable (_ ∨ _))

/-- The names of the definitions whose bodies are entered, the outermost first. -/
def enteredNames (file : SourceFile) (steps : List Step) : List String :=
  (steps.filter (·.EntersBody)).map (·.holder.definedName file.text)

/-- The id of a definition: the names of the definitions around it with dots between them make its
qualified name. -/
def definitionId (file : SourceFile) (outer : List Step) (t : Tree) : String :=
  functionId (qualify file.moduleName (some (".".intercalate (enteredNames file outer)))
    (t.definedName file.text)) (file.text.lineAt t.span.start)

theorem path_after_of_entersBody (enters : s.EntersBody) :
    (scope.after file s).path = some (scope.pathOf (s.holder.definedName file.text)) := by
  cases enters with
  | inl inFunction =>
      rw [Scope.after_functionBody inFunction]
      rfl
  | inr inClass =>
      rw [Scope.after_classBody inClass]
      rfl

theorem path_after_of_not_entersBody (stays : ¬ s.EntersBody) :
    (scope.after file s).path = scope.path := by
  have apart := not_or.1 stays
  rw [Scope.after_other apart.1 apart.2]

/-- The path of a scope joins the names of the definitions whose bodies were entered. -/
theorem path_foldl_after (file : SourceFile) (steps : List Step) :
    (steps.foldl (Scope.after file) .outermost).path =
      if enteredNames file steps = [] then none
      else some (".".intercalate (enteredNames file steps)) := by
  induction steps using List.reverseRecOn with
  | nil => rfl
  | append_singleton steps s ih =>
      rw [List.foldl_append, List.foldl_cons, List.foldl_nil]
      by_cases enters : s.EntersBody
      · have names : enteredNames file (steps ++ [s]) =
            enteredNames file steps ++ [s.holder.definedName file.text] := by
          simp [enteredNames, enters]
        rw [path_after_of_entersBody enters, names, Scope.pathOf, ih]
        by_cases none : enteredNames file steps = []
        · simp [none]
        · simp [none, String.intercalate_append_of_ne_nil]
      · have names : enteredNames file (steps ++ [s]) = enteredNames file steps := by
          simp [enteredNames, enters]
        rw [path_after_of_not_entersBody enters, names, ih]

/-- A scope knows the ids of definitions in it. -/
theorem idOf_foldl_after (file : SourceFile) (outer : List Step) (t : Tree) :
    (outer.foldl (Scope.after file) .outermost).idOf file t = definitionId file outer t := by
  rw [Scope.idOf, definitionId, path_foldl_after]
  by_cases none : enteredNames file outer = []
  · simp [none, qualify]
  · rw [if_neg none]

theorem foldl_after_of_innermost (innermost : Innermost steps outer entry inner) :
    steps.foldl (Scope.after file) .outermost =
      inner.foldl (Scope.after file)
        ((outer.foldl (Scope.after file) .outermost).enterFunction
          (entry.holder.definedName file.text) (definitionId file outer entry.holder)) := by
  rw [innermost.split, List.foldl_append, List.foldl_cons,
    Scope.after_functionBody innermost.enters, idOf_foldl_after]

/-- The function of a scope is the innermost one whose body was entered. -/
theorem functionId_of_innermost (innermost : Innermost steps outer entry inner) :
    (steps.foldl (Scope.after file) .outermost).functionId =
      some (definitionId file outer entry.holder) := by
  rw [foldl_after_of_innermost innermost]
  exact functionId_foldl_after innermost.stays

/-- The constructs of a scope are those that were passed in the innermost function. -/
theorem mem_flows_of_innermost (innermost : Innermost steps outer entry inner) :
    flow ∈ (steps.foldl (Scope.after file) .outermost).flows ↔
      ∃ s ∈ inner, s.holder.kind.flow? = some flow := by
  rw [foldl_after_of_innermost innermost, mem_flows_foldl_after innermost.stays]
  simp [Scope.enterFunction]

theorem any_flows_of_innermost (innermost : Innermost steps outer entry inner)
    (p : FlowKind → Bool) :
    (steps.foldl (Scope.after file) .outermost).flows.any p = true ↔
      ∃ s ∈ inner, ∃ flow, s.holder.kind.flow? = some flow ∧ p flow = true := by
  simp only [List.any_eq_true, mem_flows_of_innermost innermost]
  constructor
  · rintro ⟨flow, ⟨s, listed, isFlow⟩, holds⟩
    exact ⟨s, listed, flow, isFlow, holds⟩
  · rintro ⟨s, listed, flow, isFlow, holds⟩
    exact ⟨flow, ⟨s, listed, isFlow⟩, holds⟩

end Scopes

/-! ### Records of calls -/

/-- The node calls a name or an attribute. -/
def Tree.CallsName (t : Tree) : Prop :=
  ∃ target, t.child? .callee = some target ∧
    (target.kind = .identifier ∨ target.kind = .attribute)

section Records

variable {file : SourceFile} {limit : Nat} {scope : Scope} {tree t node : Tree}
  {outer inner : List Step} {entry : Step}

theorem callRecord_eq_nil (missing : scope.functionId = none ∨ ¬ t.CallsName) :
    callRecord file scope t = [] := by
  unfold callRecord
  split
  · next id target inside called =>
      apply if_neg
      intro named
      cases missing with
      | inl outside => cases inside.symm.trans outside
      | inr unnamed => exact unnamed ⟨target, called, by simpa using named⟩
  · rfl

theorem callRecord_eq_singleton {id : String} (inside : scope.functionId = some id)
    (calls : t.CallsName) :
    ∃ c, callRecord file scope t = [c] ∧ c.callerId = id ∧
      c.line = file.text.lineAt t.span.start ∧ c.isConditional = scope.flows.any (·.isConditional) ∧
      c.isLoop = scope.flows.any (·.isLoop) := by
  obtain ⟨target, called, named⟩ := calls
  simp [callRecord, inside, called, named]

theorem exists_conditional_flow_iff {kind : NodeKind} :
    (∃ flow, kind.flow? = some flow ∧ flow.isConditional = true) ↔
      kind = .ifStatement ∨ kind = .matchStatement := by
  cases kind <;> simp [NodeKind.flow?, FlowKind.isConditional]

theorem exists_loop_flow_iff {kind : NodeKind} :
    (∃ flow, kind.flow? = some flow ∧ flow.isLoop = true) ↔
      kind = .forStatement ∨ kind = .whileStatement := by
  cases kind <;> simp [NodeKind.flow?, FlowKind.isLoop]

theorem Leads.holder (leads : Leads t (outer ++ entry :: inner) node) :
    Leads t outer entry.holder := by
  induction outer generalizing t with
  | nil =>
      cases leads with
      | down found leads => exact .here t
  | cons s outer ih =>
      cases leads with
      | down found leads => exact .down found (ih leads)

/-- A function whose definition the walk comes to has a record under its id. -/
theorem exists_function_record (leads : Leads tree outer t) (walked : ∀ s ∈ outer, s.IsTaken)
    (isFunction : t.definesFunction = true) :
    ∃ f ∈ (recordsOf file limit tree).functions, f.id = definitionId file outer t ∧
      f.name = t.definedName file.text ∧ f.line = file.text.lineAt t.span.start ∧
      f.endLine = file.text.lineAt t.span.stop := by
  have listed : (⟨outer, t⟩ : Site) ∈ tree.sites := Tree.mem_sites.2 ⟨leads, walked⟩
  obtain ⟨⟨isAsync, isKind⟩, isNamed⟩ := Tree.definesFunction_iff.1 isFunction
  rw [functions_recordsOf]
  refine ⟨functionRecord file (outer.foldl (Scope.after file) .outermost)
    (outer.foldl (fun _ s => s.decorators file) []) isAsync t,
    List.mem_flatMap.2 ⟨_, listed, ?_⟩, idOf_foldl_after file outer t, rfl, rfl, rfl⟩
  rw [Site.yield, Tree.own_function isKind, if_pos isNamed]
  exact List.mem_singleton_self _

end Records

/-- The step leads into the header of a definition: to the parameters of a function, to the base
classes of a class or to a decorator. -/
def Step.InHeader (s : Step) : Prop :=
  (s.holder.kind.isFunction = true ∧ s.part.role = .parameters) ∨
    (s.holder.kind = .classDefinition ∧ s.part.role = .superclasses) ∨
    (s.holder.kind = .decoratedDefinition ∧ s.part.kind = .decorator)

theorem Step.InHeader.notInFunctionBody {s : Step} (header : s.InHeader) :
    ¬ s.InFunctionBody := by
  rintro ⟨isFunction, inBody⟩
  obtain ⟨⟨isAsync, isKind⟩, _⟩ := Tree.definesFunction_iff.1 isFunction
  rcases header with ⟨_, inRole⟩ | ⟨isClass, _⟩ | ⟨isDecorated, _⟩
  · cases inRole.symm.trans inBody
  · cases isKind.symm.trans isClass
  · cases isKind.symm.trans isDecorated

namespace Site

/-- The site is a call of a name or an attribute in the body of a function, and the walk comes to
it. -/
structure HasCall (tree : Tree) (site : Site) : Prop where
  leads : Leads tree site.steps site.node
  isCall : site.node.kind = .call
  callsName : site.node.CallsName
  inside : ∃ s ∈ site.steps, s.InFunctionBody
  walked : ∀ s ∈ site.steps, s.IsTaken

/-- The call belongs to the innermost function around the site, which is one of the given functions.
It is conditional if an `if` or `match` statement is between the function and the site, and in a
loop if a `for` or `while` statement is. -/
structure IsRecordedBy (file : SourceFile) (functions : List Function) (site : Site) (c : Call) :
    Prop where
  line : c.line = file.text.lineAt site.node.span.start
  owner : ∃ outer entry inner, Innermost site.steps outer entry inner ∧
    c.callerId = definitionId file outer entry.holder ∧
    (∃ f ∈ functions, f.id = c.callerId ∧ f.name = entry.holder.definedName file.text ∧
      f.line = file.text.lineAt entry.holder.span.start ∧
      f.endLine = file.text.lineAt entry.holder.span.stop) ∧
    (c.isConditional = true ↔
      ∃ s ∈ inner, s.holder.kind = .ifStatement ∨ s.holder.kind = .matchStatement) ∧
    (c.isLoop = true ↔
      ∃ s ∈ inner, s.holder.kind = .forStatement ∨ s.holder.kind = .whileStatement)
  header : ∀ front header back, site.steps = front ++ header :: back → header.InHeader →
    (∀ s ∈ back, ¬ s.InFunctionBody) →
    ∃ outer entry inner, Innermost front outer entry inner ∧
      c.callerId = definitionId file outer entry.holder

theorem calls_yield (file : SourceFile) (limit : Nat) (site : Site) :
    (site.yield file limit .outermost []).calls =
      if site.node.kind = .call then
        callRecord file (site.steps.foldl (Scope.after file) .outermost) site.node
      else [] := rfl

/-- A site with a call yields one record. -/
theorem HasCall.exists_recordedBy (file : SourceFile) (limit : Nat) {tree : Tree} {site : Site}
    (hasCall : site.HasCall tree) :
    ∃ c, (site.yield file limit .outermost []).calls = [c] ∧
      site.IsRecordedBy file (recordsOf file limit tree).functions c := by
  obtain ⟨outer, entry, inner, innermost⟩ := exists_innermost hasCall.inside
  obtain ⟨c, record, caller, line, conditional, loop⟩ :=
    callRecord_eq_singleton (functionId_of_innermost innermost) hasCall.callsName
  have callerId : ∀ {outer entry inner}, Innermost site.steps outer entry inner →
      c.callerId = definitionId file outer entry.holder := by
    intro outer' entry' inner' innermost'
    apply Option.some.inj
    rw [caller]
    exact (functionId_of_innermost innermost).symm.trans (functionId_of_innermost innermost')
  refine ⟨c, ?_, line, ⟨outer, entry, inner, innermost, caller, ?_, ?_, ?_⟩, ?_⟩
  · rw [calls_yield, if_pos hasCall.isCall]
    exact record
  · rw [caller]
    apply exists_function_record
    · exact (innermost.split ▸ hasCall.leads).holder
    · intro s listed
      apply hasCall.walked
      rw [innermost.split]
      exact List.mem_append_left _ listed
    · exact innermost.enters.1
  · rw [conditional, any_flows_of_innermost innermost]
    simp only [exists_conditional_flow_iff]
  · rw [loop, any_flows_of_innermost innermost]
    simp only [exists_loop_flow_iff]
  · intro front header back split isHeader stays
    have outside : ∀ s ∈ header :: back, ¬ s.InFunctionBody :=
      List.forall_mem_cons.2 ⟨isHeader.notInFunctionBody, stays⟩
    have inside : ∃ s ∈ front, s.InFunctionBody := by
      obtain ⟨s, listed, body⟩ := hasCall.inside
      rw [split] at listed
      cases List.mem_append.1 listed with
      | inl before => exact ⟨s, before, body⟩
      | inr behind => exact absurd body (outside s behind)
    obtain ⟨outer', entry', inner', innermost'⟩ := exists_innermost inside
    refine ⟨outer', entry', inner', innermost', ?_⟩
    apply callerId
    rw [split]
    exact innermost'.append outside

theorem calls_yield_eq_nil (file : SourceFile) (limit : Nat) {tree : Tree} {site : Site}
    (listed : site ∈ tree.sites) (noCall : ¬ site.HasCall tree) :
    (site.yield file limit .outermost []).calls = [] := by
  obtain ⟨leads, walked⟩ := Tree.mem_sites.1 listed
  rw [calls_yield]
  by_cases isCall : site.node.kind = .call
  · rw [if_pos isCall]
    apply callRecord_eq_nil
    by_cases callsName : site.node.CallsName
    · apply Or.inl
      apply functionId_foldl_after
      intro s listed body
      exact noCall ⟨leads, isCall, callsName, ⟨s, listed, body⟩, walked⟩
    · exact Or.inr callsName
  · exact if_neg isCall

end Site

/-- Lists of at most one element each, put together, match the places where there is one. -/
theorem forall₂_filter_flatMap {α β : Type} {R : α → β → Prop} {found : α → List β}
    {places : List α} (each : ∀ x ∈ places, found x = [] ∨ ∃ y, found x = [y] ∧ R x y) :
    List.Forall₂ R (places.filter fun x => !(found x).isEmpty) (places.flatMap found) := by
  induction places with
  | nil => exact .nil
  | cons x places ih =>
      have here := List.forall_mem_cons.1 each
      cases here.1 with
      | inl nothing => simpa [nothing] using ih here.2
      | inr something =>
          obtain ⟨y, one, related⟩ := something
          simpa [one] using ⟨related, ih here.2⟩

/-- Numbering does not change what records match. -/
theorem forall₂_mapIdx {α β : Type} {R : α → β → Prop} {number : Nat → β → β} {places : List α}
    {records : List β} (blind : ∀ i x y, R x y → R x (number i y))
    (related : List.Forall₂ R places records) : List.Forall₂ R places (records.mapIdx number) := by
  induction related generalizing number with
  | nil => exact .nil
  | cons here _ ih =>
      rw [List.mapIdx_cons]
      exact .cons (blind 0 _ _ here) (ih fun i x y => blind (i + 1) x y)

/-- Every call record of a Python tree comes from a call node of its own, and exactly the calls of
names and attributes have one that stand in a function's body where the walk comes to them: what is
in no function has none.  The caller is the innermost function whose body holds the node; the record
is conditional or in a loop exactly if a statement of that kind is around the node in that body.  A
call in the header of a definition belongs to the innermost function around the definition. -/
theorem calls_belong_to_innermost_functions (file : SourceFile) (limit : Nat) (tree : Tree) :
    ∃ sites : List Site, (sites.map Site.address).Nodup ∧
      (∀ site, site ∈ sites ↔ site.HasCall tree) ∧
      List.Forall₂ (Site.IsRecordedBy file (recordsOf file limit tree).functions) sites
        (recordsOf file limit tree).calls := by
  refine ⟨tree.sites.filter fun site => !(site.yield file limit .outermost []).calls.isEmpty,
    ?_, ?_, ?_⟩
  · exact tree.nodup_addresses_sites.sublist (List.filter_sublist.map _)
  · intro site
    rw [List.mem_filter]
    constructor
    · rintro ⟨listed, some⟩
      by_contra noCall
      simp [Site.calls_yield_eq_nil file limit listed noCall] at some
    · intro hasCall
      obtain ⟨c, one, _⟩ := hasCall.exists_recordedBy file limit
      exact ⟨Tree.mem_sites.2 ⟨hasCall.leads, hasCall.walked⟩, by simp [one]⟩
  · rw [calls_recordsOf]
    apply forall₂_mapIdx
    · intro i site c recorded
      exact ⟨recorded.line, recorded.owner, recorded.header⟩
    · apply forall₂_filter_flatMap
      intro site listed
      by_cases hasCall : site.HasCall tree
      · exact Or.inr (hasCall.exists_recordedBy file limit)
      · exact Or.inl (Site.calls_yield_eq_nil file limit listed hasCall)

end CallAtlas.Python
