/-
Module: CallAtlas.Proofs.ClassPaths
Purpose: What the path of a class consists of.  A path is built behind the path of the last earlier
  class that holds the start of the header, so it names a chain of classes, each one holding the
  header of the next.  The classes whose bodies hold a position are all in the chain.  There are
  others in it only where a header leaves the class in which it starts.
Main definitions: around, enclosing, dottedNames, PathsFollow, Grammar.withOneClassForm
Main results: pathsFollow_withPaths, NestedContainers.path_eq,
  NestedContainers.around_eq_enclosing_iff, class_paths_follow_headers
-/
import CallAtlas.Proofs.AbapBlocks
import CallAtlas.Proofs.ContainerNesting
import CallAtlas.Proofs.FileIds

namespace CallAtlas

open scoped List

/-- The chain of containers at an offset, the outermost first: the last one that holds the offset
and, before it, the chain at its header.  The given list has the last container first. -/
def aroundFrom : List Container → Nat → List Container
  | [], _ => []
  | c :: earlier, n =>
    if c.holds n then aroundFrom earlier c.start ++ [c] else aroundFrom earlier n

/-- The chain of containers at an offset, the outermost first. -/
def around (containers : List Container) (n : Nat) : List Container :=
  aroundFrom containers.reverse n

/-- The containers whose bodies hold an offset, the outermost first. -/
def enclosing (containers : List Container) (n : Nat) : List Container :=
  containers.filter (·.holds n)

/-- The names of containers with dots between. -/
def dottedNames (containers : List Container) : String := ".".intercalate (containers.map (·.name))

theorem dottedNames_append_singleton {containers : List Container} (c : Container)
    (notEmpty : containers ≠ []) :
    dottedNames (containers ++ [c]) = dottedNames containers ++ "." ++ c.name := by
  simp [dottedNames, notEmpty, String.intercalate_append_of_ne_nil]

/-! ### Chains -/

section Chains

variable {earlier later : List Container} {c parent : Container} {n : Nat}

theorem aroundFrom_append (passed : ∀ d ∈ later, d.holds n = false) :
    aroundFrom (later ++ earlier) n = aroundFrom earlier n := by
  induction later with
  | nil => rfl
  | cons d later ih =>
      have skipped := passed d List.mem_cons_self
      rw [List.cons_append, aroundFrom, skipped]
      exact ih fun d' listed => passed d' (List.mem_cons_of_mem d listed)

/-- The innermost container of a chain is the last one that holds the offset. -/
theorem getLast?_aroundFrom (earlier : List Container) (n : Nat) :
    (aroundFrom earlier n).getLast? = earlier.find? (·.holds n) := by
  induction earlier with
  | nil => rfl
  | cons c earlier ih =>
      rw [aroundFrom, List.find?_cons]
      cases c.holds n with
      | true => exact List.getLast?_concat
      | false => exact ih

theorem around_concat (containers : List Container) (c : Container) (n : Nat) :
    around (containers ++ [c]) n =
      if c.holds n then around containers c.start ++ [c] else around containers n := by
  simp [around, aroundFrom]

theorem around_sublist (containers : List Container) (n : Nat) :
    around containers n <+ containers := by
  induction containers using List.reverseRecOn generalizing n with
  | nil => exact .slnil
  | append_singleton earlier c ih =>
      rw [around_concat]
      split
      · exact (ih c.start).append (List.Sublist.refl [c])
      · exact (ih n).trans (List.sublist_append_left _ _)

/-! ### Paths -/

/-- Every path names the chain at the header and the container itself.  The last container comes
first. -/
def PathsFollow : List Container → Prop
  | [] => True
  | c :: earlier => c.path = dottedNames (aroundFrom earlier c.start ++ [c]) ∧ PathsFollow earlier

theorem PathsFollow.of_append (follow : PathsFollow (later ++ earlier)) : PathsFollow earlier := by
  induction later with
  | nil => exact follow
  | cons _ _ ih => exact ih follow.2

/-- The path of the last container that holds an offset names the chain there. -/
theorem PathsFollow.path_of_find? (follow : PathsFollow earlier)
    (found : earlier.find? (·.holds n) = some parent) :
    parent.path = dottedNames (aroundFrom earlier n) := by
  induction earlier with
  | nil => cases found
  | cons c earlier ih =>
      rw [List.find?_cons] at found
      rw [aroundFrom]
      cases holds : c.holds n with
      | true =>
          rw [holds] at found
          obtain rfl := Option.some.inj found
          exact follow.1
      | false =>
          rw [holds] at found
          exact ih follow.2 found

/-- One more container gets a path that names its chain. -/
theorem PathsFollow.path_of_placed (follow : PathsFollow earlier) (c : Container) :
    (match earlier.find? (·.holds c.start) with
      | some parent => parent.path ++ "." ++ c.name
      | none => c.name) = dottedNames (aroundFrom earlier c.start ++ [c]) := by
  have innermost := getLast?_aroundFrom earlier c.start
  cases found : earlier.find? (·.holds c.start) with
  | none =>
      rw [found, List.getLast?_eq_none_iff] at innermost
      simp [innermost, dottedNames]
  | some parent =>
      have notEmpty : aroundFrom earlier c.start ≠ [] := by
        intro empty
        rw [found, empty] at innermost
        cases innermost
      rw [dottedNames_append_singleton c notEmpty, ← follow.path_of_find? found]

/-- The paths of all containers of a list name their chains. -/
theorem pathsFollow_withPaths (follow : PathsFollow earlier) (containers : List Container) :
    PathsFollow ((withPaths earlier containers).reverse ++ earlier) := by
  induction containers generalizing earlier with
  | nil => exact follow
  | cons c more ih =>
      rw [withPaths, List.reverse_cons, List.append_assoc, List.singleton_append]
      apply ih
      refine ⟨?_, follow⟩
      -- the name stands at the end of the chain, whatever path it has
      have path := follow.path_of_placed c
      simp only [dottedNames, List.map_append, List.map_cons, List.map_nil] at path ⊢
      exact path

/-- A container without its path. -/
def Container.bare (c : Container) : Container := { c with path := "" }

/-- Placing changes nothing but paths. -/
theorem map_bare_withPaths (earlier containers : List Container) :
    (withPaths earlier containers).map Container.bare = containers.map Container.bare := by
  induction containers generalizing earlier with
  | nil => rfl
  | cons c more ih =>
      rw [withPaths, List.map_cons, List.map_cons, ih]
      rfl

end Chains

/-! ### Chains of nested containers -/

namespace NestedContainers

variable {containers : List Container} {c d : Container} {n : Nat}

/-- Nesting does not depend on paths. -/
theorem of_bare {containers' : List Container} (nested : NestedContainers containers)
    (same : containers'.map Container.bare = containers.map Container.bare) :
    NestedContainers containers' where
  opens c listed := by
    have listed' := List.mem_map_of_mem (f := Container.bare) listed
    rw [same] at listed'
    obtain ⟨c', listed', alike⟩ := List.mem_map.1 listed'
    have opens : c'.bare.start < c'.bare.bodyStart := nested.opens c' listed'
    rw [alike] at opens
    exact opens
  before := by
    have before : (containers.map Container.bare).Pairwise Container.Before :=
      List.pairwise_map.2 (nested.before.imp fun order => ⟨order.header, order.body⟩)
    rw [← same] at before
    exact (List.pairwise_map.1 before).imp fun order => ⟨order.header, order.body⟩

/-- A container does not hold its own header, nor does a later one. -/
theorem not_holds_start {front back : List Container}
    (nested : NestedContainers (front ++ c :: back)) :
    ∀ d ∈ c :: back, d.holds c.start = false := by
  have order := (List.pairwise_append.1 nested.before).2.1
  intro d listed
  apply Bool.eq_false_iff.2
  intro holds
  have begins := (Container.holds_iff.1 holds).1
  have opens := nested.opens c (by simp)
  rcases List.mem_cons.1 listed with rfl | later
  · omega
  · have header := ((List.pairwise_cons.1 order).1 d later).header
    have opens' := nested.opens d (by simp [later])
    omega

/-- If no header leaves an earlier container, none leaves any container. -/
theorem not_leaves (nested : NestedContainers containers)
    (stay : containers.Pairwise fun c d => ¬ d.Leaves c) (listed : c ∈ containers)
    (listed' : d ∈ containers) : ¬ c.Leaves d := by
  intro leaves
  obtain ⟨front, back, rfl⟩ := List.append_of_mem listed
  rcases List.mem_append.1 listed' with earlier | later
  · exact (List.pairwise_append.1 stay).2.2 d earlier c List.mem_cons_self leaves
  · have starts := leaves.starts
    rw [nested.not_holds_start d later] at starts
    cases starts

/-- The path of every container names the chain at its header and the container itself. -/
theorem path_eq (nested : NestedContainers containers) (follow : PathsFollow containers.reverse)
    (listed : c ∈ containers) : c.path = dottedNames (around containers c.start ++ [c]) := by
  obtain ⟨front, back, rfl⟩ := List.append_of_mem listed
  have reversed : (front ++ c :: back).reverse = back.reverse ++ (c :: front.reverse) := by simp
  have passed : ∀ d ∈ back.reverse ++ [c], d.holds c.start = false := by
    intro d inBack
    apply nested.not_holds_start d
    simpa [or_comm] using inBack
  have chain : around (front ++ c :: back) c.start = aroundFrom front.reverse c.start := by
    rw [around, reversed, List.append_cons]
    exact aroundFrom_append passed
  rw [chain]
  rw [reversed] at follow
  exact follow.of_append.1

theorem init (nested : NestedContainers (containers ++ [c])) : NestedContainers containers where
  opens d listed := nested.opens d (List.mem_append_left _ listed)
  before := (List.pairwise_append.1 nested.before).1

theorem before_last (nested : NestedContainers (containers ++ [c])) (listed : d ∈ containers) :
    d.Before c :=
  (List.pairwise_append.1 nested.before).2.2 d listed c (List.mem_singleton.2 rfl)

/-- What encloses an offset in the last container encloses the header of the last container. -/
theorem holds_start_of_holds (nested : NestedContainers (containers ++ [c]))
    (listed : d ∈ containers) (last : c.holds n = true) (holds : d.holds n = true) :
    d.holds c.start = true := by
  have header := (nested.before_last listed).header
  have opens := nested.opens c (by simp)
  obtain ⟨begins, ends⟩ := Container.holds_iff.1 holds
  obtain ⟨begins', ends'⟩ := Container.holds_iff.1 last
  exact Container.holds_iff.2 ⟨header, by omega⟩

/-- Of the chain at an offset, those hold the offset that enclose it. -/
theorem filter_holds_around (nested : NestedContainers containers) (n : Nat) :
    (around containers n).filter (·.holds n) = enclosing containers n := by
  induction containers using List.reverseRecOn generalizing n with
  | nil => rfl
  | append_singleton earlier c ih =>
      rw [around_concat, enclosing, List.filter_append]
      cases last : c.holds n with
      | false => simpa [last, enclosing] using ih nested.init n
      | true =>
          have narrowed : ∀ l, l ⊆ earlier →
              (l.filter (·.holds c.start)).filter (·.holds n) = l.filter (·.holds n) := by
            intro l within
            rw [List.filter_filter]
            apply List.filter_congr
            intro d listed
            cases holds : d.holds n with
            | false => rfl
            | true => exact nested.holds_start_of_holds (within listed) last holds
          have members := (around_sublist earlier c.start).subset
          have inner :
              (around earlier c.start).filter (·.holds n) = earlier.filter (·.holds n) := by
            rw [← narrowed _ members, ih nested.init c.start, enclosing,
              narrowed _ (List.Subset.refl earlier)]
          simp [last, inner]

/-- A chain holds the offset as a whole if no header in it leaves a container of it. -/
theorem forall_holds_iff (nested : NestedContainers containers) (n : Nat) :
    (∀ d ∈ around containers n, d.holds n = true) ↔
      ∀ c ∈ around containers n, ∀ d ∈ around containers n, ¬ c.Leaves d := by
  constructor
  · intro holds c inChain d inChain' leaves
    have begins := (Container.holds_iff.1 (holds c inChain)).1
    have ends := (Container.holds_iff.1 (holds d inChain')).2
    have left := leaves.ends
    omega
  · intro stay
    induction containers using List.reverseRecOn generalizing n with
    | nil => simp [around, aroundFrom]
    | append_singleton earlier c ih =>
        rw [around_concat] at stay ⊢
        cases last : c.holds n with
        | false =>
            simp only [last, Bool.false_eq_true, if_false] at stay ⊢
            exact ih nested.init n stay
        | true =>
            simp only [last, if_true, List.mem_append, List.mem_singleton] at stay ⊢
            rintro d (inChain | rfl)
            · -- the last header starts in this container and does not leave it
              have starts := ih nested.init c.start
                (fun c' inChain' d' inChain'' => stay c' (Or.inl inChain') d' (Or.inl inChain'')) d
                inChain
              have stays : ¬ d.bodyEnd ≤ c.bodyStart := fun ends =>
                stay c (Or.inr rfl) d (Or.inl inChain) ⟨starts, ends⟩
              have member := (around_sublist earlier c.start).subset inChain
              have body := (nested.before_last member).body
              have header := nested.opens c (by simp)
              obtain ⟨begins, _⟩ := Container.holds_iff.1 starts
              obtain ⟨begins', ends'⟩ := Container.holds_iff.1 last
              exact Container.holds_iff.2 (by omega)
            · exact last

/-- A chain is what encloses the offset if no header in it leaves a container of it. -/
theorem around_eq_enclosing_iff (nested : NestedContainers containers) (n : Nat) :
    around containers n = enclosing containers n ↔
      ∀ c ∈ around containers n, ∀ d ∈ around containers n, ¬ c.Leaves d := by
  rw [← nested.forall_holds_iff n, ← nested.filter_holds_around n, eq_comm]
  exact List.filter_eq_self

end NestedContainers

/-! ### Grammars with one form of class -/

/-- The grammars with one form of class. -/
def Grammar.withOneClassForm : List Grammar := [.java, .javascript, .csharp, .abap]

/-- A form of class has a header that ends with the brace of the body, or one that is the opening
statement of a pair. -/
theorem Grammar.classForm_cases {g : Grammar} (listed : g ∈ withOneClassForm) :
    (g.language ≠ .abap ∧ ∃ front, g.containers = [⟨front ++ Pattern.char '{', .braces⟩]) ∨
      (g.language = .abap ∧ ∃ header pair, g.containers = [⟨header, .keywords pair⟩] ∧
        header.unmarked = pair.opener.unmarked ∧ pair.Separated) := by
  simp only [withOneClassForm, List.mem_cons, List.not_mem_nil, or_false] at listed
  rcases listed with rfl | rfl | rfl | rfl
  · exact Or.inl ⟨by decide, _, rfl⟩
  · exact Or.inl ⟨by decide, _, rfl⟩
  · exact Or.inl ⟨by decide, _, rfl⟩
  · refine Or.inr ⟨rfl, _, AbapForms.classPair, rfl, rfl, Grammar.separated_of_abap ?_⟩
    rw [Grammar.keywordPairs_abap]
    exact List.mem_cons_self

section OneForm

variable {g : Grammar} {code : Text} {form : ContainerForm} {c d : Container}

/-- Nested containers are sorted already. -/
theorem findContainers_eq (single : g.containers = [form])
    (nested : NestedContainers (form.findAll code)) :
    findContainers g code = withPaths [] (form.findAll code) := by
  have sorted : (form.findAll code).Pairwise fun a b => decide (a.start ≤ b.start) = true := by
    apply nested.before.imp_of_mem
    intro a b listed _ order
    have opens := nested.opens a listed
    have header := order.header
    exact decide_eq_true (by omega)
  simp only [findContainers, single, List.flatMap_singleton]
  rw [List.mergeSort_of_pairwise sorted]

theorem pathsFollow_findContainers (g : Grammar) (code : Text) :
    PathsFollow (findContainers g code).reverse := by
  have start : PathsFollow [] := trivial
  have follow := pathsFollow_withPaths start
    ((g.containers.flatMap (·.findAll code)).mergeSort fun a b => a.start ≤ b.start)
  rw [List.append_nil] at follow
  exact follow

/-- Every container of a file was found by the form. -/
theorem exists_bare_of_mem_withPaths {found : List Container} (listed : c ∈ withPaths [] found) :
    ∃ c' ∈ found, c'.bare = c.bare := by
  have listed' := List.mem_map_of_mem (f := Container.bare) listed
  rw [map_bare_withPaths] at listed'
  exact List.mem_map.1 listed'

/-- A header that leaves a class was found so by the form. -/
theorem exists_leaves_of_withPaths {found : List Container} (listed : c ∈ withPaths [] found)
    (listed' : d ∈ withPaths [] found) (leaves : c.Leaves d) :
    ∃ c' ∈ found, ∃ d' ∈ found, c'.bare = c.bare ∧ c'.Leaves d' := by
  obtain ⟨c', inFound, same⟩ := exists_bare_of_mem_withPaths listed
  obtain ⟨d', inFound', same'⟩ := exists_bare_of_mem_withPaths listed'
  have leaves' : c'.bare.Leaves d'.bare := by
    rw [same, same']
    exact ⟨leaves.starts, leaves.ends⟩
  exact ⟨c', inFound, d', inFound', same, leaves'.starts, leaves'.ends⟩

theorem findContainers_nested (listed : g ∈ Grammar.withOneClassForm) (code : Text) :
    NestedContainers (findContainers g code) := by
  rcases Grammar.classForm_cases listed with
    ⟨_, front, single⟩ | ⟨_, header, pair, single, alike, separated⟩
  · have nested := ContainerForm.braced_nested front code
    rw [findContainers_eq single nested]
    exact nested.of_bare (map_bare_withPaths [] _)
  · have nested := ContainerForm.keywords_nested alike separated code
    rw [findContainers_eq single nested]
    exact nested.of_bare (map_bare_withPaths [] _)

/-- A header leaves a class only over a closing brace. -/
theorem not_leaves_of_mem_findContainers (listed : g ∈ Grammar.withOneClassForm)
    (clear : g.language ≠ .abap →
      ∀ c ∈ findContainers g code, '}' ∉ code.slice ⟨c.start, c.bodyStart⟩)
    (found : c ∈ findContainers g code) (found' : d ∈ findContainers g code) : ¬ c.Leaves d := by
  intro leaves
  rcases Grammar.classForm_cases listed with
    ⟨braced, front, single⟩ | ⟨_, header, pair, single, alike, separated⟩
  · have noBrace := clear braced c found
    rw [findContainers_eq single (ContainerForm.braced_nested front code)] at found found'
    obtain ⟨c', listed, d', listed', same, leaves'⟩ :=
      exists_leaves_of_withPaths found found' leaves
    have brace : '}' ∈ code.slice ⟨c'.bare.start, c'.bare.bodyStart⟩ :=
      ContainerForm.brace_of_leaves (c := c') listed listed' leaves'
    rw [same] at brace
    exact noBrace brace
  · have nested := ContainerForm.keywords_nested alike separated code
    rw [findContainers_eq single nested] at found found'
    obtain ⟨c', listed, d', listed', _, leaves'⟩ := exists_leaves_of_withPaths found found' leaves
    have stay := ContainerForm.keywords_pairwise_not_leaves alike separated code
    exact nested.not_leaves stay listed listed' leaves'

theorem braces_of_mem_findContainers (listed : g ∈ Grammar.withOneClassForm)
    (braced : g.language ≠ .abap) (found : c ∈ findContainers g code) : c.braces = true := by
  rcases Grammar.classForm_cases listed with ⟨_, front, single⟩ | ⟨keywords, _⟩
  · rw [findContainers_eq single (ContainerForm.braced_nested front code)] at found
    obtain ⟨c', listed', same⟩ := exists_bare_of_mem_withPaths found
    obtain ⟨m, _, read⟩ := List.mem_filterMap.1 listed'
    simp only [ContainerForm.read?, Option.bind_eq_bind, Option.bind_eq_some_iff] at read
    obtain ⟨_, _, _, _, made⟩ := read
    obtain rfl := Option.some.inj made
    exact (congrArg Container.braces same).symm
  · exact absurd keywords braced

end OneForm

/-! ### Declarations in classes -/

/-- The innermost container around an offset is the last one that encloses it. -/
theorem containerAt?_spec {containers : List Container} {code : Text} {n : Nat} {c : Container}
    (found : containerAt? containers code n = some c) :
    containers.reverse.find? (·.holds n) = some c ∧
      (c.braces = true → (code.slice ⟨c.bodyStart, n⟩).count '{' =
        (code.slice ⟨c.bodyStart, n⟩).count '}') := by
  simp only [containerAt?, Option.bind_eq_bind, Option.bind_eq_some_iff] at found
  obtain ⟨c', last, found⟩ := found
  split at found
  · next level =>
      obtain rfl := Option.some.inj found
      refine ⟨last, ?_⟩
      intro braces
      simpa [braces] using level
  · cases found

theorem getLast?_enclosing (containers : List Container) (n : Nat) :
    (enclosing containers n).getLast? = containers.reverse.find? (·.holds n) := by
  rw [enclosing, List.getLast?_eq_head?_reverse, ← List.filter_reverse, List.head?_filter]

/-- The class of a declaration is the one around its name, or the type of a receiver. -/
theorem DeclarationForm.read?_scope {g : Grammar} {form : DeclarationForm} {views : Views}
    {containers : List Container} {m : Match} {d : Declaration}
    (read : form.read? g views containers m = some d) :
    d.className = ((containerAt? containers views.code d.nameAt).map (·.name)).or
        (receiverType? (m.textOf views.code .receiver)) ∧
      d.scope = ((containerAt? containers views.code d.nameAt).map (·.path)).or
        (receiverType? (m.textOf views.code .receiver)) := by
  simp only [DeclarationForm.read?, Option.bind_eq_bind, Option.bind_eq_some_iff] at read
  obtain ⟨name, _, read⟩ := read
  split at read
  · cases read
  split at read
  · cases read
  split at read
  · cases read
  obtain ⟨_, _, read⟩ := Option.bind_eq_some_iff.1 read
  split at read
  · obtain ⟨_, _, made⟩ := Option.bind_eq_some_iff.1 read
    obtain rfl := Option.some.inj made
    exact ⟨rfl, rfl⟩
  · obtain ⟨_, _, made⟩ := Option.bind_eq_some_iff.1 read
    obtain rfl := Option.some.inj made
    exact ⟨rfl, rfl⟩

theorem Match.textOf_of_not_marked {p : Pattern} {t : Text} {m : Match} {group : Group}
    (found : p.FoundIn t m) (unmarked : p.marked group = []) : m.textOf t group = [] := by
  cases isMarked : m.group? group with
  | none => simp [Match.textOf, isMarked]
  | some span =>
      obtain ⟨q, listed, _⟩ := found.exists_group isMarked
      rw [unmarked] at listed
      cases listed

theorem Grammar.receiver_not_marked {g : Grammar} (listed : g ∈ withOneClassForm) :
    ∀ form ∈ g.declarations, form.header.marked .receiver = [] := by
  have check : (g.declarations.all fun form => (form.header.marked .receiver).isEmpty) = true := by
    simp only [withOneClassForm, List.mem_cons, List.not_mem_nil, or_false] at listed
    rcases listed with rfl | rfl | rfl | rfl
    · decide
    · decide
    · decide
    · decide
  intro form inTable
  exact List.isEmpty_iff.1 (List.all_eq_true.1 check form inTable)

/-- A declaration with a scope has it from a class around its name. -/
theorem Grammar.exists_containerAt? {g : Grammar} {t : Text} {d : Declaration} {path : String}
    (listed : g ∈ withOneClassForm) (declared : d ∈ g.declared t) (inScope : d.scope = some path) :
    ∃ c, containerAt? (findContainers g (codeView g.language t)) (codeView g.language t) d.nameAt =
        some c ∧ c.path = path ∧ d.className = some c.name := by
  obtain ⟨form, inTable, m, searched, read⟩ := exists_header_of_mem_declarationsOf declared
  obtain ⟨className, scope⟩ := DeclarationForm.read?_scope read
  have nothing := Match.textOf_of_not_marked (Pattern.mem_findAll searched)
    (receiver_not_marked listed form inTable)
  have noReceiver : receiverType? [] = none := rfl
  rw [nothing, noReceiver, Option.or_none] at className scope
  rw [inScope] at scope
  obtain ⟨c, found, same⟩ := Option.map_eq_some_iff.1 scope.symm
  refine ⟨c, found, same, ?_⟩
  rw [className]
  exact congrArg (Option.map (·.name)) found

/-- For every file of a language with one form of class, the path of a class names the chain of
classes at its header and the class itself.  A function that is in a class is qualified with the
chain at its name, directly in the body of the innermost class around the name.  The chain at any
offset holds the classes whose bodies hold the offset and, just where one header of the chain leaves
another class of it, further ones.  No header leaves a class between keywords, nor one in braces
unless the header has a closing brace in it. -/
theorem class_paths_follow_headers {g : Grammar} (listed : g ∈ Grammar.withOneClassForm)
    (file : SourceFile) (limit : Nat) :
    let code := codeView g.language file.text
    let classes := findContainers g code
    (∀ c ∈ classes, c.path = dottedNames (around classes c.start ++ [c])) ∧
      List.Forall₂
        (fun d f => ∀ path, d.scope = some path →
          ∃ c, (enclosing classes d.nameAt).getLast? = some c ∧ f.className = some c.name ∧
            path = dottedNames (around classes d.nameAt) ∧
            f.qualifiedName = qualify file.moduleName (some path) d.name ∧
            (g.language ≠ .abap → (code.slice ⟨c.bodyStart, d.nameAt⟩).count '{' =
              (code.slice ⟨c.bodyStart, d.nameAt⟩).count '}'))
        (g.declared file.text) (g.extract file limit).functions ∧
      (∀ n, enclosing classes n <+ around classes n ∧ around classes n <+ classes ∧
        (around classes n = enclosing classes n ↔
          ∀ c ∈ around classes n, ∀ d ∈ around classes n, ¬ c.Leaves d)) ∧
      ((g.language ≠ .abap → ∀ c ∈ classes, '}' ∉ code.slice ⟨c.start, c.bodyStart⟩) →
        ∀ n, around classes n = enclosing classes n) := by
  intro code classes
  have nested := findContainers_nested listed code
  have follow := pathsFollow_findContainers g code
  refine ⟨fun c found => nested.path_eq follow found, ?_, ?_, ?_⟩
  · have paired := (List.forall₂_and_left _ _).2 ⟨fun _ => id, g.functions_forall₂ file limit⟩
    refine paired.imp ?_
    rintro d _ ⟨declared, complexity, rfl⟩ path inScope
    obtain ⟨c, found, rfl, className⟩ := Grammar.exists_containerAt? listed declared inScope
    obtain ⟨last, level⟩ := containerAt?_spec found
    refine ⟨c, (getLast?_enclosing classes d.nameAt).trans last, className,
      follow.path_of_find? last, congrArg (qualify file.moduleName · d.name) inScope, ?_⟩
    intro braced
    have member := List.mem_reverse.1 (List.mem_of_find?_eq_some last)
    exact level (braces_of_mem_findContainers listed braced member)
  · intro n
    refine ⟨?_, around_sublist classes n, nested.around_eq_enclosing_iff n⟩
    rw [← nested.filter_holds_around n]
    exact List.filter_sublist
  · intro clear n
    apply (nested.around_eq_enclosing_iff n).2
    intro c inChain d inChain'
    have members := (around_sublist classes n).subset
    exact not_leaves_of_mem_findContainers listed clear (members inChain) (members inChain')

/-- Two classes in a class, the first with a class of its own. -/
def nestedClasses : SourceFile :=
  ⟨"m.js", "m",
    "class A \x7b class B \x7b class C \x7b\x7d \x7d class D \x7b f() \x7b\x7d \x7d \x7d".toList⟩

theorem class_paths_follow_headers_nested :
    findContainers .javascript (codeView .javascript nestedClasses.text) =
        [⟨"A", "A", 0, 9, 52, true⟩, ⟨"B", "A.B", 10, 19, 31, true⟩,
          ⟨"C", "A.B.C", 20, 29, 29, true⟩, ⟨"D", "A.D", 33, 42, 50, true⟩] ∧
      Grammar.javascript ∈ Grammar.withOneClassForm ∧
      ∀ n, around (findContainers .javascript (codeView .javascript nestedClasses.text)) n =
        enclosing (findContainers .javascript (codeView .javascript nestedClasses.text)) n := by
  have found : findContainers .javascript (codeView .javascript nestedClasses.text) =
      [⟨"A", "A", 0, 9, 52, true⟩, ⟨"B", "A.B", 10, 19, 31, true⟩,
        ⟨"C", "A.B.C", 20, 29, 29, true⟩, ⟨"D", "A.D", 33, 42, 50, true⟩] := by
    rw [findContainers_eq_insertionSort]
    decide +kernel
  have listed : Grammar.javascript ∈ Grammar.withOneClassForm := .tail _ (.head _)
  have clear : ((findContainers .javascript (codeView .javascript nestedClasses.text)).all fun c =>
      !((codeView .javascript nestedClasses.text).slice ⟨c.start, c.bodyStart⟩).contains '}') =
        true := by
    rw [found]
    decide +kernel
  refine ⟨found, listed, (class_paths_follow_headers listed nestedClasses 0).2.2.2 ?_⟩
  intro _ c inFile
  have checked := List.all_eq_true.1 clear c inFile
  rw [Bool.not_eq_true', List.contains_eq_mem, decide_eq_false_iff_not] at checked
  exact checked

/-- A property of the name `class` in a class, and behind it a function with a class in it. -/
def runningHeader : SourceFile :=
  ⟨"m.js", "m",
    "class A \x7b\n  f(x) \x7b return x.class in y \x7d\n\x7d\n".toList ++
      "function g() \x7b\n  class D \x7b\n    h() \x7b \x7d\n  \x7d\n\x7d\n".toList⟩

/-- The property is read as the header of a class `in` that runs on to the body of the function.
The class in the function is said to be in `A`, which ends before it. -/
theorem header_over_class_end_keeps_path :
    ∃ c ∈ findContainers .javascript (codeView .javascript runningHeader.text),
      c.path = "A.in.D" ∧
        dottedNames (enclosing
          (findContainers .javascript (codeView .javascript runningHeader.text)) c.start ++ [c]) =
            "in.D" := by
  have found : findContainers .javascript (codeView .javascript runningHeader.text) =
      [⟨"A", "A", 0, 9, 41, true⟩, ⟨"in", "A.in", 28, 57, 86, true⟩,
        ⟨"D", "A.in.D", 60, 69, 84, true⟩] := by
    rw [findContainers_eq_insertionSort]
    decide +kernel
  rw [found]
  refine ⟨⟨"D", "A.in.D", 60, 69, 84, true⟩, by simp, rfl, ?_⟩
  decide +kernel

end CallAtlas
