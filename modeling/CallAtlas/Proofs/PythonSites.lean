/-
Module: CallAtlas.Proofs.PythonSites
Purpose: The records of a Python tree node by node.  A site is a node with the steps that lead to
  it from the root.  The walk goes through the sites whose steps it takes, each of them once, and
  what it finds at a site is determined by the node, by the scope that the steps make and by the
  decorators of the last one.
Main definitions: Step, Leads, Site, Tree.taken, Tree.sites, Scope.after, Site.yield
Main results: Tree.mem_sites, Tree.nodup_addresses_sites, walk_eq_concat, functions_recordsOf,
  calls_recordsOf
-/
import Mathlib.Data.List.Nodup
import CallAtlas.Python.Walk

namespace CallAtlas.Python

/-! ### Sites -/

/-- A step from a node to the node at a place in it. -/
structure Step where
  holder : Tree
  place : Nat
  part : Tree

/-- The steps lead from one node to another, each into the node that the one before it led to. -/
inductive Leads : Tree → List Step → Tree → Prop where
  | here (t : Tree) : Leads t [] t
  | down {t part node : Tree} {place : Nat} {steps : List Step} :
      t.children[place]? = some part → Leads part steps node →
      Leads t (⟨t, place, part⟩ :: steps) node

/-- A node and the steps to it. -/
structure Site where
  steps : List Step
  node : Tree

namespace Site

/-- The places of the steps, which tell the site from all others of a tree. -/
def address (site : Site) : List Nat := site.steps.map (·.place)

/-- A site in a part of a tree, seen from the tree. -/
def below (s : Step) (site : Site) : Site := ⟨s :: site.steps, site.node⟩

end Site

/-! ### Steps that are taken -/

/-- Whether a kind is that of a function. -/
def NodeKind.isFunction : NodeKind → Bool
  | functionDefinition _ => true
  | _ => false

/-- Whether a node defines a function with a name. -/
def Tree.definesFunction (t : Tree) : Bool := t.kind.isFunction && t.isNamed

/-- Whether a node defines a class with a name. -/
def Tree.definesClass (t : Tree) : Bool := t.kind = .classDefinition && t.isNamed

theorem Tree.definesFunction_iff {t : Tree} :
    t.definesFunction = true ↔
      (∃ isAsync, t.kind = .functionDefinition isAsync) ∧ t.isNamed = true := by
  rw [definesFunction, Bool.and_eq_true]
  cases t.kind <;> simp [NodeKind.isFunction]

theorem Tree.definesClass_iff {t : Tree} :
    t.definesClass = true ↔ t.kind = .classDefinition ∧ t.isNamed = true := by
  rw [definesClass, Bool.and_eq_true, decide_eq_true_eq]

/-- The step leads to the first part with a role. -/
structure Step.IsFirst (s : Step) (role : Role) : Prop where
  inRole : s.part.role = role
  first : ∀ place < s.place, ∀ other, s.holder.children[place]? = some other → other.role ≠ role

/-- Of a function with a name only its body and its parameters are walked, of a class with a name
its base classes and its body, and of other nodes everything. -/
def Step.IsTaken (s : Step) : Prop :=
  if s.holder.definesFunction then s.IsFirst .body ∨ s.IsFirst .parameters
  else if s.holder.definesClass then s.IsFirst .superclasses ∨ s.IsFirst .body
  else True

namespace Tree

/-- All steps from a node. -/
def parts (t : Tree) : List Step := t.children.zipIdx.map fun (part, place) => ⟨t, place, part⟩

/-- The step from a node to its first part with a role, if there is one. -/
def firstIn (t : Tree) (role : Role) : List Step :=
  (t.parts.find? fun s => decide (s.part.role = role)).toList

/-- The steps that the walk takes from a node, in its order. -/
def taken (t : Tree) : List Step :=
  if t.definesFunction then t.firstIn .body ++ t.firstIn .parameters
  else if t.definesClass then t.firstIn .superclasses ++ t.firstIn .body
  else t.parts

theorem mem_parts {t : Tree} {s : Step} :
    s ∈ t.parts ↔ s.holder = t ∧ t.children[s.place]? = some s.part := by
  rcases s with ⟨holder, place, part⟩
  simp only [parts, List.mem_map, Prod.exists, List.mk_mem_zipIdx_iff_getElem?, Step.mk.injEq]
  constructor
  · rintro ⟨part, place, found, rfl, rfl, rfl⟩
    exact ⟨rfl, found⟩
  · rintro ⟨rfl, found⟩
    exact ⟨part, place, found, rfl, rfl, rfl⟩

theorem getElem?_parts (t : Tree) (place : Nat) :
    t.parts[place]? = t.children[place]?.map fun part => ⟨t, place, part⟩ := by
  simp [parts, Function.comp_def]

theorem mem_firstIn {t : Tree} {role : Role} {s : Step} :
    s ∈ t.firstIn role ↔ s ∈ t.parts ∧ s.IsFirst role := by
  rw [firstIn, Option.mem_toList, List.find?_eq_some_iff_getElem, decide_eq_true_eq]
  constructor
  · rintro ⟨inRole, place, bound, rfl, earlier⟩
    have atPlace := t.getElem?_parts place
    rw [List.getElem?_eq_getElem bound] at atPlace
    obtain ⟨part, found, same⟩ := Option.map_eq_some_iff.1 atPlace.symm
    refine ⟨List.getElem_mem bound, inRole, ?_⟩
    rw [← same]
    intro before isBefore other atBefore
    have listed : t.parts[before]? = some ⟨t, before, other⟩ := by
      rw [getElem?_parts, atBefore]
      rfl
    obtain ⟨_, isOther⟩ := List.getElem?_eq_some_iff.1 listed
    have notInRole := earlier before isBefore
    rw [isOther] at notInRole
    simpa using notInRole
  · rintro ⟨isPart, inRole, earlier⟩
    obtain ⟨rfl, found⟩ := mem_parts.1 isPart
    have listed : s.holder.parts[s.place]? = some s := by
      rw [getElem?_parts, found]
      rfl
    obtain ⟨bound, isStep⟩ := List.getElem?_eq_some_iff.1 listed
    refine ⟨inRole, s.place, bound, isStep, ?_⟩
    intro before isBefore
    have atBefore := s.holder.getElem?_parts before
    rw [List.getElem?_eq_getElem (Nat.lt_trans isBefore bound)] at atBefore
    obtain ⟨other, isOther, same⟩ := Option.map_eq_some_iff.1 atBefore.symm
    rw [← same]
    simpa using earlier before isBefore other isOther

theorem mem_taken {t : Tree} {s : Step} : s ∈ t.taken ↔ s ∈ t.parts ∧ s.IsTaken := by
  by_cases listed : s ∈ t.parts
  · rw [Step.IsTaken, (mem_parts.1 listed).1, taken]
    split
    · simp [mem_firstIn, listed]
    · split <;> simp [mem_firstIn, listed]
  · rw [taken]
    split
    · simp [mem_firstIn, listed]
    · split <;> simp [mem_firstIn, listed]

theorem sizeOf_part_lt {t : Tree} {s : Step} (listed : s ∈ t.taken) : sizeOf s.part < sizeOf t := by
  obtain ⟨_, found⟩ := mem_parts.1 (mem_taken.1 listed).1
  have inChildren : sizeOf s.part < sizeOf t.children :=
    List.sizeOf_lt_of_mem (List.mem_of_getElem? found)
  have inNode : sizeOf t.children < sizeOf t := by
    rcases t with ⟨kind, role, span, children⟩
    rw [node.sizeOf_spec]
    show sizeOf children < _
    omega
  exact Nat.lt_trans inChildren inNode

/-- The sites of a tree that the walk comes to, in its order. -/
def sites (t : Tree) : List Site :=
  ⟨[], t⟩ :: t.taken.attach.flatMap fun ⟨s, listed⟩ =>
    have := sizeOf_part_lt listed
    (sites s.part).map (Site.below s)
termination_by sizeOf t

theorem sites_eq (t : Tree) :
    t.sites = ⟨[], t⟩ :: t.taken.flatMap fun s => s.part.sites.map (Site.below s) := by
  rw [sites]
  simp

/-- What holds of a tree if it holds of the parts that are walked holds of all trees. -/
theorem induction_on_taken {motive : Tree → Prop} (t : Tree)
    (node : ∀ t : Tree, (∀ s ∈ t.taken, motive s.part) → motive t) : motive t :=
  node t fun s listed =>
    have := sizeOf_part_lt listed
    induction_on_taken s.part node
termination_by sizeOf t

/-- The walk comes to the nodes to which steps lead that it takes. -/
theorem mem_sites {t : Tree} {site : Site} :
    site ∈ t.sites ↔ Leads t site.steps site.node ∧ ∀ s ∈ site.steps, s.IsTaken := by
  induction t using induction_on_taken generalizing site with
  | node t ih =>
      rcases site with ⟨steps, n⟩
      rw [sites_eq, List.mem_cons, List.mem_flatMap]
      constructor
      · rintro (same | ⟨s, listed, below⟩)
        · cases same
          exact ⟨.here t, fun s listed => by cases listed⟩
        · obtain ⟨site, inPart, same⟩ := List.mem_map.1 below
          cases same
          obtain ⟨leads, each⟩ := (ih s listed).1 inPart
          obtain ⟨isPart, isTaken⟩ := mem_taken.1 listed
          obtain ⟨rfl, found⟩ := mem_parts.1 isPart
          exact ⟨.down found leads, List.forall_mem_cons.2 ⟨isTaken, each⟩⟩
      · rintro ⟨leads, each⟩
        cases leads with
        | here => exact Or.inl rfl
        | @down _ part _ place steps found leads =>
            obtain ⟨isTaken, each⟩ := List.forall_mem_cons.1 each
            have listed : ⟨t, place, part⟩ ∈ t.taken :=
              mem_taken.2 ⟨mem_parts.2 ⟨rfl, found⟩, isTaken⟩
            have inPart : (⟨steps, n⟩ : Site) ∈ part.sites := (ih _ listed).2 ⟨leads, each⟩
            exact Or.inr ⟨_, listed, List.mem_map.2 ⟨_, inPart, rfl⟩⟩

theorem nodup_places_parts (t : Tree) : (t.parts.map (·.place)).Nodup := by
  have places : t.parts.map (·.place) = List.range' 0 t.children.length := by
    rw [parts, List.map_map, ← List.zipIdx_map_snd]
    rfl
  rw [places]
  exact List.nodup_range'

/-- No step is taken twice from a node. -/
theorem nodup_places_taken (t : Tree) : (t.taken.map (·.place)).Nodup := by
  have inRoles : ∀ {role role' : Role}, role ≠ role' →
      (t.firstIn role ++ t.firstIn role').Nodup := by
    intro role role' differ
    have atMostOne : ∀ role, (t.firstIn role).Nodup := by
      intro role
      unfold firstIn
      cases t.parts.find? fun s => decide (s.part.role = role) with
      | none => exact List.nodup_nil
      | some s => exact List.nodup_singleton s
    refine (atMostOne role).append (atMostOne role') ?_
    intro s first second
    exact differ ((mem_firstIn.1 first).2.inRole.symm.trans (mem_firstIn.1 second).2.inRole)
  have nodupTaken : t.taken.Nodup := by
    unfold taken
    split
    · exact inRoles (by decide)
    · split
      · exact inRoles (by decide)
      · exact List.Nodup.of_map _ t.nodup_places_parts
  -- a place has one part
  refine nodupTaken.map_on ?_
  rintro ⟨holder, place, part⟩ listed ⟨holder', place', part'⟩ listed' samePlace
  obtain ⟨isHolder, found⟩ := mem_parts.1 (mem_taken.1 listed).1
  obtain ⟨isHolder', found'⟩ := mem_parts.1 (mem_taken.1 listed').1
  dsimp only at samePlace isHolder isHolder' found found'
  subst samePlace isHolder isHolder'
  rw [Option.some.inj (found.symm.trans found')]

/-- The walk comes to every site once. -/
theorem nodup_addresses_sites (t : Tree) : (t.sites.map Site.address).Nodup := by
  induction t using induction_on_taken with
  | node t ih =>
      have addresses : t.sites.map Site.address =
          [] :: t.taken.flatMap fun s => (s.part.sites.map Site.address).map (s.place :: ·) := by
        rw [sites_eq, List.map_cons, List.map_flatMap]
        simp only [List.map_map]
        rfl
      rw [addresses, List.nodup_cons, List.nodup_flatMap]
      refine ⟨by simp, ?_, ?_⟩
      · intro s listed
        exact (ih s listed).map (List.cons_injective)
      · refine List.Pairwise.imp ?_ (List.pairwise_map.1 t.nodup_places_taken)
        intro s s' differ address first second
        obtain ⟨_, _, rfl⟩ := List.mem_map.1 first
        obtain ⟨_, _, same⟩ := List.mem_map.1 second
        exact differ (List.cons.inj same).1.symm

end Tree

/-! ### What is found at a site -/

namespace Yield

/-- What was found in several parts, in order. -/
def concat (found : List Yield) : Yield :=
  ⟨found.flatMap (·.functions), found.flatMap (·.calls), found.flatMap (·.controlFlows)⟩

theorem concat_cons (y : Yield) (more : List Yield) : concat (y :: more) = y ++ concat more := rfl

theorem concat_singleton (y : Yield) : concat [y] = y := by
  simp [concat]

theorem concat_append (first second : List Yield) :
    concat (first ++ second) = concat first ++ concat second := by
  simp only [concat, List.flatMap_append]
  rfl

theorem concat_flatMap {α : Type} (parts : List α) (found : α → List Yield) :
    concat (parts.flatMap found) = concat (parts.map fun part => concat (found part)) := by
  simp only [concat, List.flatMap_assoc, List.flatMap_map]

theorem empty_append (y : Yield) : empty ++ y = y := rfl

theorem append_assoc (a b c : Yield) : a ++ b ++ c = a ++ (b ++ c) := by
  show append (append a b) c = append a (append b c)
  simp only [append, List.append_assoc]

end Yield

/-- The step leads into the body of a function with a name. -/
def Step.InFunctionBody (s : Step) : Prop :=
  s.holder.definesFunction = true ∧ s.part.role = .body

/-- The step leads into the body of a class with a name. -/
def Step.InClassBody (s : Step) : Prop :=
  s.holder.definesClass = true ∧ s.part.role = .body

instance (s : Step) : Decidable s.InFunctionBody :=
  inferInstanceAs (Decidable (_ ∧ _))

instance (s : Step) : Decidable s.InClassBody :=
  inferInstanceAs (Decidable (_ ∧ _))

/-- The id of a definition that stands in a scope. -/
def Scope.idOf (file : SourceFile) (scope : Scope) (t : Tree) : String :=
  CallAtlas.functionId (qualify file.moduleName scope.path (t.definedName file.text))
    (file.text.lineAt t.span.start)

/-- The scope behind a step. -/
def Scope.after (file : SourceFile) (scope : Scope) (s : Step) : Scope :=
  if s.InFunctionBody then
    scope.enterFunction (s.holder.definedName file.text) (scope.idOf file s.holder)
  else if s.InClassBody then scope.enterClass (s.holder.definedName file.text)
  else
    match s.holder.kind.flow? with
    | some flow => scope.enterFlow flow
    | none => scope

namespace Scope

variable {file : SourceFile} {scope : Scope} {s : Step}

theorem after_functionBody (enters : s.InFunctionBody) :
    scope.after file s =
      scope.enterFunction (s.holder.definedName file.text) (scope.idOf file s.holder) :=
  if_pos enters

theorem after_classBody (enters : s.InClassBody) :
    scope.after file s = scope.enterClass (s.holder.definedName file.text) := by
  have noFunction : ¬ s.InFunctionBody := by
    rintro ⟨isFunction, _⟩
    rw [Tree.definesFunction, (Tree.definesClass_iff.1 enters.1).1] at isFunction
    cases isFunction
  rw [after, if_neg noFunction, if_pos enters]

/-- A step into the header of a definition stays in the scope. -/
theorem after_header (notBody : s.part.role ≠ .body) (noFlow : s.holder.kind.flow? = none) :
    scope.after file s = scope := by
  rw [after, if_neg fun body => notBody body.2, if_neg fun body => notBody body.2, noFlow]

/-- A step into no body changes at most the constructs of a scope. -/
theorem after_other (noFunction : ¬ s.InFunctionBody) (noClass : ¬ s.InClassBody) :
    scope.after file s =
      { scope with flows := s.holder.kind.flow?.toList ++ scope.flows } := by
  rw [after, if_neg noFunction, if_neg noClass]
  cases s.holder.kind.flow? with
  | none => rfl
  | some flow => rfl

end Scope

/-- The decorators that stand directly before the node behind a step. -/
def Step.decorators (file : SourceFile) (s : Step) : List String :=
  if s.holder.kind = .decoratedDefinition then s.holder.decorators file.text else []

theorem Step.decorators_eq_nil {file : SourceFile} {s : Step} {t : Tree} (holder : s.holder = t)
    (noDecorated : t.kind ≠ .decoratedDefinition) : s.decorators file = [] := by
  rw [decorators, holder, if_neg noDecorated]

/-- What a node yields itself. -/
def Tree.own (file : SourceFile) (limit : Nat) (scope : Scope) (decorators : List String)
    (t : Tree) : Yield where
  functions :=
    match t.kind with
    | .functionDefinition isAsync =>
      if t.isNamed then [functionRecord file scope decorators isAsync t] else []
    | .classDefinition => if t.isNamed then [classRecord file scope decorators t] else []
    | _ => []
  calls := if t.kind = .call then callRecord file scope t else []
  controlFlows :=
    match t.kind.flow? with
    | some flow => flowRecord file limit scope flow t
    | none => []

/-- What is found behind a step, in the scope that it makes. -/
def Step.walk (file : SourceFile) (limit : Nat) (scope : Scope) (s : Step) : Yield :=
  Python.walk file limit (scope.after file s) (s.decorators file) s.part

section Walk

variable {file : SourceFile} {limit : Nat} {scope inner : Scope} {decorators : List String}
  {t : Tree}

theorem walkAll_eq (children : List Tree) :
    walkAll file limit scope decorators children =
      Yield.concat (children.map (walk file limit scope decorators)) := by
  induction children with
  | nil =>
      rw [walkAll]
      rfl
  | cons t more ih =>
      rw [walkAll, ih, List.map_cons, Yield.concat_cons]

theorem walkRole_eq {role : Role} (children : List Tree) :
    walkRole file limit scope role children =
      Yield.concat ((children.find? fun t => decide (t.role = role)).toList.map
        (walk file limit scope [])) := by
  induction children with
  | nil =>
      rw [walkRole]
      rfl
  | cons t more ih =>
      rw [walkRole]
      by_cases wanted : t.role = role
      · rw [if_pos wanted, List.find?_cons_of_pos (by simpa using wanted), Option.toList_some,
          List.map_singleton, Yield.concat_singleton]
      · rw [if_neg wanted, List.find?_cons_of_neg (by simpa using wanted), ih]

theorem Tree.map_part_parts (t : Tree) : t.parts.map (·.part) = t.children := by
  rw [parts, List.map_map]
  exact List.zipIdx_map_fst 0 t.children

/-- Where all steps from a node make the same scope, its parts are walked in that scope. -/
theorem concat_parts
    (same : ∀ s : Step, s.holder = t →
      scope.after file s = inner ∧ s.decorators file = decorators) :
    Yield.concat (t.parts.map (Step.walk file limit scope)) =
      walkAll file limit inner decorators t.children := by
  have inScope : t.parts.map (Step.walk file limit scope) =
      t.parts.map (walk file limit inner decorators ∘ (·.part)) := by
    apply List.map_congr_left
    intro s listed
    obtain ⟨sameScope, sameDecorators⟩ := same s (Tree.mem_parts.1 listed).1
    rw [Step.walk, sameScope, sameDecorators]
    rfl
  rw [inScope, walkAll_eq, ← t.map_part_parts, List.map_map]

/-- The first part in a role is walked in the scope that the step to it makes. -/
theorem concat_firstIn {role : Role}
    (same : ∀ s : Step, s.holder = t → s.part.role = role →
      scope.after file s = inner ∧ s.decorators file = []) :
    Yield.concat ((t.firstIn role).map (Step.walk file limit scope)) =
      walkRole file limit inner role t.children := by
  have inScope : (t.firstIn role).map (Step.walk file limit scope) =
      (t.firstIn role).map (walk file limit inner [] ∘ (·.part)) := by
    apply List.map_congr_left
    intro s listed
    obtain ⟨isPart, isFirst⟩ := Tree.mem_firstIn.1 listed
    obtain ⟨sameScope, sameDecorators⟩ := same s (Tree.mem_parts.1 isPart).1 isFirst.inRole
    rw [Step.walk, sameScope, sameDecorators]
    rfl
  rw [inScope, walkRole_eq, ← t.map_part_parts, List.find?_map, ← Option.toList_map,
    Option.map_map, Option.toList_map]
  rfl

/-- The body of a function is walked in a scope of its own, its parameters are not. -/
theorem concat_taken_function (isFunction : t.definesFunction = true)
    (noFlow : t.kind.flow? = none) (noDecorated : t.kind ≠ .decoratedDefinition) :
    Yield.concat (t.taken.map (Step.walk file limit scope)) =
      walkRole file limit (scope.enterFunction (t.definedName file.text) (scope.idOf file t)) .body
          t.children ++
        walkRole file limit scope .parameters t.children := by
  rw [Tree.taken, if_pos isFunction, List.map_append, Yield.concat_append, concat_firstIn,
    concat_firstIn]
  · intro s holder inRole
    refine ⟨Scope.after_header ?_ ?_, Step.decorators_eq_nil holder noDecorated⟩
    · simp [inRole]
    · rw [holder, noFlow]
  · intro s holder inRole
    have enters : s.InFunctionBody := ⟨holder ▸ isFunction, inRole⟩
    refine ⟨?_, Step.decorators_eq_nil holder noDecorated⟩
    rw [Scope.after_functionBody enters, holder]

/-- The body of a class is walked in a scope of its own, its base classes are not. -/
theorem concat_taken_class (noFunction : t.definesFunction = false)
    (isClass : t.definesClass = true) :
    Yield.concat (t.taken.map (Step.walk file limit scope)) =
      walkRole file limit scope .superclasses t.children ++
        walkRole file limit (scope.enterClass (t.definedName file.text)) .body t.children := by
  have isKind : t.kind = .classDefinition := (Tree.definesClass_iff.1 isClass).1
  have noDecorated : t.kind ≠ .decoratedDefinition := by
    simp [isKind]
  rw [Tree.taken, noFunction, if_neg Bool.false_ne_true, if_pos isClass, List.map_append,
    Yield.concat_append, concat_firstIn, concat_firstIn]
  · intro s holder inRole
    have enters : s.InClassBody := ⟨holder ▸ isClass, inRole⟩
    refine ⟨?_, Step.decorators_eq_nil holder noDecorated⟩
    rw [Scope.after_classBody enters, holder]
  · intro s holder inRole
    refine ⟨Scope.after_header ?_ ?_, Step.decorators_eq_nil holder noDecorated⟩
    · simp [inRole]
    · rw [holder, isKind]
      rfl

/-- All parts of other nodes are walked, in the scope of the node or in that of a construct. -/
theorem concat_taken_other (t : Tree) (noFunction : t.definesFunction = false)
    (noClass : t.definesClass = false) :
    Yield.concat (t.taken.map (Step.walk file limit scope)) =
      walkAll file limit { scope with flows := t.kind.flow?.toList ++ scope.flows }
        (if t.kind = .decoratedDefinition then t.decorators file.text else []) t.children := by
  have isTaken : t.taken = t.parts := by
    rw [Tree.taken, noFunction, if_neg Bool.false_ne_true, noClass, if_neg Bool.false_ne_true]
  rw [isTaken, concat_parts]
  intro s holder
  refine ⟨?_, by rw [Step.decorators, holder]⟩
  rw [Scope.after_other, holder]
  · rintro ⟨isFunction, _⟩
    rw [holder, noFunction] at isFunction
    cases isFunction
  · rintro ⟨isClass, _⟩
    rw [holder, noClass] at isClass
    cases isClass

theorem Tree.own_function {isAsync : Bool} (isKind : t.kind = .functionDefinition isAsync) :
    t.own file limit scope decorators =
      ⟨if t.isNamed then [functionRecord file scope decorators isAsync t] else [], [], []⟩ := by
  simp [own, isKind, NodeKind.flow?]

theorem Tree.own_class (isKind : t.kind = .classDefinition) :
    t.own file limit scope decorators =
      ⟨if t.isNamed then [classRecord file scope decorators t] else [], [], []⟩ := by
  simp [own, isKind, NodeKind.flow?]

/-- A node that is no definition and no call yields at most a construct. -/
theorem Tree.own_other (t : Tree) (noFunction : ∀ isAsync, t.kind ≠ .functionDefinition isAsync)
    (noClass : t.kind ≠ .classDefinition) (noCall : t.kind ≠ .call) :
    t.own file limit scope decorators =
      ⟨[], [], match t.kind.flow? with
        | some flow => flowRecord file limit scope flow t
        | none => []⟩ := by
  unfold own
  rw [if_neg noCall]
  congr 1
  split
  · next isKind => exact absurd isKind (noFunction _)
  · next isKind => exact absurd isKind noClass
  · rfl

/-- The walk of a node is what the node yields itself and then what is found behind the steps that
are taken from it. -/
theorem walk_eq (t : Tree) :
    walk file limit scope decorators t =
      t.own file limit scope decorators ++
        Yield.concat (t.taken.map (Step.walk file limit scope)) := by
  rcases t with ⟨kind, role, span, children⟩
  unfold walk
  dsimp only
  split
  · rw [Tree.own_function rfl]
    split
    · next isNamed =>
        rw [concat_taken_function (Bool.and_eq_true_iff.2 ⟨rfl, isNamed⟩) rfl (by simp [Tree.kind]),
          Yield.append_assoc]
        rfl
    · next isNameless =>
        rw [concat_taken_other _ (Bool.and_eq_false_iff.2 (.inr (Bool.of_not_eq_true isNameless)))
          rfl]
        rfl
  · rw [Tree.own_class rfl]
    split
    · next isNamed =>
        rw [concat_taken_class rfl (Tree.definesClass_iff.2 ⟨rfl, isNamed⟩), Yield.append_assoc]
        rfl
    · next isNameless =>
        rw [concat_taken_other _ rfl
          (Bool.and_eq_false_iff.2 (.inr (Bool.of_not_eq_true isNameless)))]
        rfl
  · rw [concat_taken_other _ rfl rfl]
    rfl
  · rw [concat_taken_other _ rfl rfl]
    rfl
  · next noFunction noClass noDecorated noCall =>
      have definesNoFunction : (Tree.node kind role span children).definesFunction = false := by
        cases kind with
        | functionDefinition isAsync => exact absurd rfl (noFunction isAsync)
        | _ => rfl
      have definesNoClass : (Tree.node kind role span children).definesClass = false :=
        Bool.of_not_eq_true fun isClass => noClass (Tree.definesClass_iff.1 isClass).1
      rw [concat_taken_other _ definesNoFunction definesNoClass,
        Tree.own_other (.node kind role span children) noFunction noClass noCall, Tree.kind,
        if_neg noDecorated]
      cases kind.flow? with
      | some flow => rfl
      | none => rfl

/-- What is found at a site of a tree that stands in a scope, behind given decorators. -/
def Site.yield (file : SourceFile) (limit : Nat) (scope : Scope) (decorators : List String)
    (site : Site) : Yield :=
  site.node.own file limit (site.steps.foldl (Scope.after file) scope)
    (site.steps.foldl (fun _ s => s.decorators file) decorators)

/-- The walk of a tree finds what its sites yield, one after the other. -/
theorem walk_eq_concat (t : Tree) :
    walk file limit scope decorators t =
      Yield.concat (t.sites.map (Site.yield file limit scope decorators)) := by
  induction t using Tree.induction_on_taken generalizing scope decorators with
  | node t ih =>
      rw [walk_eq, t.sites_eq, List.map_cons, Yield.concat_cons, List.map_flatMap,
        Yield.concat_flatMap]
      congr 2
      apply List.map_congr_left
      intro s listed
      rw [Step.walk, ih s listed, List.map_map]
      rfl

end Walk

/-- The functions of a Python file, site by site. -/
theorem functions_recordsOf (file : SourceFile) (limit : Nat) (tree : Tree) :
    (recordsOf file limit tree).functions =
      tree.sites.flatMap fun site => (site.yield file limit .outermost []).functions := by
  simp only [recordsOf, walk_eq_concat, Yield.concat, List.flatMap_map]

/-- The calls of a Python file, site by site and then numbered. -/
theorem calls_recordsOf (file : SourceFile) (limit : Nat) (tree : Tree) :
    (recordsOf file limit tree).calls =
      (tree.sites.flatMap fun site => (site.yield file limit .outermost []).calls).mapIdx
        fun i c => { c with id := callId file.path i } := by
  simp only [recordsOf, walk_eq_concat, Yield.concat, List.flatMap_map]

end CallAtlas.Python
