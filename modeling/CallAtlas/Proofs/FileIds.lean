/-
Module: CallAtlas.Proofs.FileIds
Purpose: When functions of one file have the same id.  An id is a qualified name and a line, so it
  tells apart what differs in one of the two.  Names stand at different offsets, and where every
  header starts a line and there is one form of header, on different lines; elsewhere one line can
  declare a name twice.
Main definitions: Pattern.StartsLine, Function.IdOfName
Main results: functionId_inj, Pattern.findAll_pairwise, Grammar.declared_nameAt_nodup,
  equal_ids_share_name_and_line
-/
import Mathlib.Data.List.Pairwise
import CallAtlas.Proofs.AtlasIds
import CallAtlas.Proofs.RecordPositions

namespace CallAtlas

/-! ### Ids of functions -/

theorem functionId_inj {name name' : String} {line line' : Nat}
    (same : functionId name line = functionId name' line') : name = name' ∧ line = line' := by
  have spelled : ":".toList = [] ++ [':'] := by decide
  exact numbered_inj spelled (by decide) same

/-- The id of a function is made of its qualified name and its line. -/
def Function.IdOfName (f : Function) : Prop := f.id = functionId f.qualifiedName f.line

theorem Function.IdOfName.eq_iff {f f' : Function} (first : f.IdOfName) (second : f'.IdOfName) :
    f.id = f'.id ↔ f.qualifiedName = f'.qualifiedName ∧ f.line = f'.line := by
  rw [first, second]
  constructor
  · exact functionId_inj
  · rintro ⟨sameName, sameLine⟩
    rw [sameName, sameLine]

namespace Python

/-- Every function that was found has the id of its name. -/
def Yield.IdsOfNames (y : Yield) : Prop := ∀ f ∈ y.functions, f.IdOfName

theorem Yield.IdsOfNames.append {a b : Yield} (first : a.IdsOfNames) (second : b.IdsOfNames) :
    (a ++ b).IdsOfNames := by
  intro f listed
  rcases List.mem_append.1 listed with before | after
  · exact first f before
  · exact second f after

theorem Yield.IdsOfNames.single {f : Function} {calls : List Call} {flows : List ControlFlow}
    (own : f.id = functionId f.qualifiedName f.line) : Yield.IdsOfNames ⟨[f], calls, flows⟩ := by
  intro f' listed
  rw [List.mem_singleton.1 listed]
  exact own

theorem Yield.IdsOfNames.none {calls : List Call} {flows : List ControlFlow} :
    Yield.IdsOfNames ⟨[], calls, flows⟩ := by
  intro f listed
  cases listed

mutual

theorem walk_idsOfNames (file : SourceFile) (limit : Nat) (scope : Scope)
    (decorators : List String) : ∀ t : Tree, (walk file limit scope decorators t).IdsOfNames
  | .node kind role span children => by
      unfold walk
      dsimp only
      split
      · split
        · exact ((Yield.IdsOfNames.single (Eq.refl _)).append
            (walkRole_idsOfNames file limit _ .body children)).append
            (walkRole_idsOfNames file limit scope .parameters children)
        · exact walkAll_idsOfNames file limit scope [] children
      · split
        · exact ((Yield.IdsOfNames.single (Eq.refl _)).append
            (walkRole_idsOfNames file limit scope .superclasses children)).append
            (walkRole_idsOfNames file limit _ .body children)
        · exact walkAll_idsOfNames file limit scope [] children
      · exact walkAll_idsOfNames file limit scope _ children
      · exact Yield.IdsOfNames.none.append (walkAll_idsOfNames file limit scope [] children)
      · split
        · exact Yield.IdsOfNames.none.append (walkAll_idsOfNames file limit _ [] children)
        · exact walkAll_idsOfNames file limit scope [] children

theorem walkAll_idsOfNames (file : SourceFile) (limit : Nat) (scope : Scope)
    (decorators : List String) :
    ∀ ts : List Tree, (walkAll file limit scope decorators ts).IdsOfNames
  | [] => .none
  | t :: more => by
      rw [walkAll]
      exact (walk_idsOfNames file limit scope decorators t).append
        (walkAll_idsOfNames file limit scope decorators more)

theorem walkRole_idsOfNames (file : SourceFile) (limit : Nat) (scope : Scope) (role : Role) :
    ∀ ts : List Tree, (walkRole file limit scope role ts).IdsOfNames
  | [] => .none
  | t :: more => by
      rw [walkRole]
      split
      · exact walk_idsOfNames file limit scope [] t
      · exact walkRole_idsOfNames file limit scope role more

end

end Python

theorem Language.idOfName_of_mem (lang : Language) (parse : Text → Python.Tree) (file : SourceFile)
    (limit : Nat) {f : Function} (listed : f ∈ (lang.extractWith parse file limit).functions) :
    f.IdOfName := by
  change f ∈ (lang.declaredWith parse file limit).functions at listed
  unfold Language.declaredWith at listed
  split at listed
  · next g _ =>
      rw [g.extract_eq_recordsByOwner] at listed
      obtain ⟨o, owner, rfl⟩ := List.mem_map.1 listed
      obtain ⟨d, found, calls, flows, _, rfl⟩ := exists_of_mem_recordsFrom owner
      rfl
  · exact Python.walk_idsOfNames file limit .outermost [] _ f listed

/-! ### Matches of one pattern -/

theorem Match.stop_le_resume (m : Match) : m.stop ≤ m.resume.offset := by
  rw [Match.resume]
  split
  · exact Nat.le_refl _
  · obtain ⟨s, reads⟩ := m.after.reads_advance
    exact reads.le

namespace Pattern

variable {p : Pattern} {t fuel : Text} {c : Cursor} {m : Match}

theorem start_of_mem_matchesFrom (inside : c.In t) (listed : m ∈ p.matchesFrom fuel c) :
    c.offset ≤ m.start := by
  induction fuel generalizing c with
  | nil =>
      rw [matchesFrom, Option.mem_toList] at listed
      exact (searchFrom?_sound inside listed).2
  | cons x fuel ih =>
      rw [matchesFrom] at listed
      split at listed
      · cases listed
      · next first found =>
          obtain ⟨here, behind⟩ := searchFrom?_sound inside found
          rcases List.mem_cons.1 listed with rfl | later
          · exact behind
          · calc
              c.offset ≤ first.start := behind
              _ ≤ first.stop := here.start_le_stop
              _ ≤ first.resume.offset := first.stop_le_resume
              _ ≤ m.start := ih here.resume_in later

theorem matchesFrom_pairwise (inside : c.In t) :
    (p.matchesFrom fuel c).Pairwise fun m m' => m.stop ≤ m'.start := by
  induction fuel generalizing c with
  | nil =>
      rw [matchesFrom]
      cases p.searchFrom? c with
      | none => exact .nil
      | some first => exact List.pairwise_singleton _ _
  | cons x fuel ih =>
      rw [matchesFrom]
      split
      · exact .nil
      · next first found =>
          have here := (searchFrom?_sound inside found).1
          refine List.pairwise_cons.2 ⟨?_, ih here.resume_in⟩
          intro m later
          exact Nat.le_trans first.stop_le_resume (start_of_mem_matchesFrom here.resume_in later)

/-- The matches of a pattern in a text are apart, in order. -/
theorem findAll_pairwise (p : Pattern) (t : Text) :
    (p.findAll t).Pairwise fun m m' => m.stop ≤ m'.start :=
  matchesFrom_pairwise (Cursor.in_ofText t)

/-! ### Headers that start a line -/

/-- Every match begins where a line does. -/
def StartsLine (p : Pattern) : Prop :=
  ∀ c c' m, p.Matches c c' m → c.before = none ∨ c.before = some '\n'

theorem startsLine_lineStart : StartsLine lineStart := by
  intro c c' m found
  cases found with
  | here held => simpa using held

theorem StartsLine.append {p : Pattern} (starts : StartsLine p) (q : Pattern) :
    StartsLine (p ++ q) := by
  intro c c' m found
  cases found with
  | seq first second => exact starts _ _ _ first

end Pattern

namespace Text

theorem newlinesBefore_append (p s : Text) : newlinesBefore p.size (p ++ s) = p.count '\n' := by
  induction p with
  | nil => simp [newlinesBefore]
  | cons c p ih =>
      obtain ⟨n, width⟩ : ∃ n, size (c :: p) = n + 1 :=
        ⟨size (c :: p) - 1, by have := c.utf8Size_pos; simp; omega⟩
      have left : n + 1 - c.utf8Size = size p := by
        rw [size_cons] at width
        omega
      rw [List.cons_append, width, newlinesBefore, left, ih, List.count_cons, Nat.add_comm]

/-- The line of a position that a line feed ends is behind the lines before it. -/
theorem lineAt_lt_of_line_start {t : Text} {c : Cursor} {n : Nat} (inside : c.In t)
    (starts : c.before = none ∨ c.before = some '\n') (before : n < c.offset) :
    t.lineAt n < t.lineAt c.offset := by
  obtain ⟨p, split, offset, last⟩ := inside.split
  rcases starts with none | lineFeed
  · rw [none] at last
    have empty : p = [] := List.getLast?_eq_none_iff.1 last.symm
    rw [offset, empty] at before
    cases before
  · rw [lineFeed] at last
    obtain ⟨front, rfl⟩ := List.getLast?_eq_some_iff.1 last.symm
    have earlier : n ≤ size front := by
      rw [offset, size_append] at before
      have one : size ['\n'] = 1 := rfl
      omega
    have counted : newlinesBefore (size front) t + 1 = newlinesBefore c.offset t := by
      rw [offset, split, newlinesBefore_append, List.append_assoc, newlinesBefore_append]
      simp
    have grows := newlinesBefore_mono t earlier
    simp only [lineAt]
    omega

end Text

/-- Blanking moves no line. -/
theorem lineAt_codeView (lang : Language) (t : Text) (n : Nat) :
    (codeView lang t).lineAt n = t.lineAt n := by
  have kept : ∀ (covered : Nat → Bool) (offset n : Nat) (bytes : List UInt8),
      ((maskBytes covered offset bytes).take n).count 0x0a = (bytes.take n).count 0x0a := by
    intro covered offset n bytes
    induction bytes generalizing offset n with
    | nil => rfl
    | cons b bytes ih =>
        cases n with
        | zero => rfl
        | succ n =>
            rw [maskBytes, List.take_succ_cons, List.take_succ_cons, List.count_cons,
              List.count_cons, ih]
            by_cases lineFeed : b = 0x0a
            · simp [lineFeed]
            · cases covered offset <;> simp [lineFeed]
  rw [Text.lineAt_eq_count, Text.lineAt_eq_count, encode_codeView, kept]

/-! ### Names of one file -/

theorem firstByName_nodup (seen : List Nat) (found : List Declaration) :
    ((firstByName seen found).map (·.nameAt)).Nodup ∧
      ∀ d ∈ firstByName seen found, d.nameAt ∉ seen := by
  induction found generalizing seen with
  | nil => exact ⟨List.nodup_nil, by simp [firstByName]⟩
  | cons d more ih =>
      rw [firstByName]
      split
      · exact ih seen
      · next unseen =>
          obtain ⟨distinct, fresh⟩ := ih (d.nameAt :: seen)
          constructor
          · rw [List.map_cons, List.nodup_cons]
            refine ⟨?_, distinct⟩
            intro listed
            obtain ⟨e, later, same⟩ := List.mem_map.1 listed
            exact fresh e later (same ▸ List.mem_cons_self)
          · intro e listed
            rcases List.mem_cons.1 listed with rfl | later
            · simpa using unseen
            · exact fun known => fresh e later (List.mem_cons_of_mem _ known)

/-- The names of the declarations of a text stand at different offsets. -/
theorem Grammar.declared_nameAt_nodup (g : Grammar) (t : Text) :
    ((g.declared t).map (·.nameAt)).Nodup :=
  ((List.mergeSort_perm _ _).map _).nodup_iff.2 (firstByName_nodup [] _).1

section Headers

variable {lang : Language} {g : Grammar} {t : Text} {d e : Declaration}

/-- The header that a declaration was read from. -/
structure Declaration.HeaderIs (g : Grammar) (t : Text) (d : Declaration) (form : DeclarationForm)
    (m : Match) : Prop where
  inTable : form ∈ g.declarations
  found : m ∈ form.header.findAll (codeView g.language t)
  read : form.read? g (Views.of g.language t) (findContainers g (codeView g.language t)) m = some d
  start : m.start ≤ d.nameAt
  stop : d.nameAt < m.stop

/-- A declaration was read from a header, and its name stands in it. -/
theorem Language.exists_header (scanned : lang.grammar? = some g) (listed : d ∈ g.declared t) :
    ∃ form m, d.HeaderIs g t form m := by
  obtain ⟨form, inTable, m, searched, read⟩ := Grammar.exists_header_of_mem_declarationsOf listed
  obtain ⟨span, _, _, isMarked, _, _, nameAt, _, _⟩ := DeclarationForm.read?_cases read
  obtain ⟨q, isPart, c₁, c₂, _, _, _, inner, rfl, behind, before⟩ :=
    (Pattern.mem_findAll searched).exists_group isMarked
  have check := Language.namesVisibly_of_grammar? scanned
  simp only [Grammar.namesVisibly, List.all_eq_true] at check
  obtain ⟨x, s, reads, _⟩ := inner.opens_visible (check form inTable q isPart)
  have width := reads.offset
  have positive := x.utf8Size_pos
  rw [Text.size_cons] at width
  refine ⟨form, m, inTable, searched, read, by rw [nameAt]; exact behind, ?_⟩
  rw [nameAt]
  dsimp only
  omega

/-- Of two names on one line, the header of the second one starts before the first, if it starts a
line. -/
theorem Declaration.HeaderIs.start_le {form : DeclarationForm} {m : Match}
    (header : e.HeaderIs g t form m) (starts : form.header.StartsLine)
    (sameLine : t.lineAt d.nameAt = t.lineAt e.nameAt) : m.start ≤ d.nameAt := by
  obtain ⟨c, inside, start, whole⟩ := (Pattern.mem_findAll header.found).exists_matches
  rcases Nat.lt_or_ge d.nameAt m.start with before | behind
  · exfalso
    rw [start] at before
    have later := Text.lineAt_lt_of_line_start inside (starts _ _ _ whole) before
    have further := Text.lineAt_mono t (start ▸ header.start)
    rw [lineAt_codeView, lineAt_codeView] at later
    omega
  · exact behind

/-- Two names on one line that were found by one form whose headers start a line are the same. -/
theorem Declaration.HeaderIs.eq_of_line_eq {form : DeclarationForm} {m m' : Match}
    (first : d.HeaderIs g t form m) (second : e.HeaderIs g t form m')
    (starts : form.header.StartsLine) (sameLine : t.lineAt d.nameAt = t.lineAt e.nameAt) : d = e := by
  have around : m'.start ≤ d.nameAt := second.start_le starts sameLine
  have around' : m.start ≤ e.nameAt := first.start_le starts sameLine.symm
  have bounds := first.stop
  have bounds' := second.stop
  by_cases same : m = m'
  · subst same
    exact Option.some.inj (first.read.symm.trans second.read)
  · exfalso
    have apart : (form.header.findAll (codeView g.language t)).Pairwise fun m m' =>
        m.stop ≤ m'.start ∨ m'.stop ≤ m.start :=
      (Pattern.findAll_pairwise _ _).imp Or.inl
    have symmetric : Std.Symm fun m m' : Match => m.stop ≤ m'.start ∨ m'.stop ≤ m.start :=
      ⟨fun _ _ => Or.symm⟩
    rcases apart.forall first.found second.found same with before | before
    · omega
    · omega

end Headers

theorem goHeader_startsLine : GoForms.functionHeader.StartsLine := by
  unfold GoForms.functionHeader
  repeat apply Pattern.StartsLine.append
  exact Pattern.startsLine_lineStart

theorem go_names_on_different_lines (t : Text) :
    (Grammar.go.declared t).Pairwise fun d e => t.lineAt d.nameAt ≠ t.lineAt e.nameAt := by
  have scanned : Language.go.grammar? = some Grammar.go := rfl
  refine (List.pairwise_map.1 (Grammar.go.declared_nameAt_nodup t)).imp_of_mem ?_
  intro d e declared declared' differ sameLine
  obtain ⟨form, m, header⟩ := Language.exists_header scanned declared
  obtain ⟨form', m', header'⟩ := Language.exists_header scanned declared'
  obtain rfl := List.mem_singleton.1 header.inTable
  obtain rfl := List.mem_singleton.1 header'.inTable
  exact differ (congrArg _ (header.eq_of_line_eq header' goHeader_startsLine sameLine))

/-- The functions of a file are the records of its declarations, in order. -/
theorem Grammar.functions_forall₂ (g : Grammar) (file : SourceFile) (limit : Nat) :
    List.Forall₂ (fun d f => ∃ complexity, f = d.record file complexity) (g.declared file.text)
      (g.extract file limit).functions := by
  have paired := List.forall₂_map_left_iff.1 (recordsFrom_forall₂ file limit 0 0 (g.owned file.text))
  rw [← List.zipIdx_map_fst 0 (g.declared file.text), List.forall₂_map_left_iff,
    g.extract_eq_recordsByOwner, List.forall₂_map_right_iff]
  refine paired.imp ?_
  rintro ⟨d, index⟩ _ ⟨calls, flows, rfl⟩
  exact ⟨_, rfl⟩

theorem go_ids_nodup (file : SourceFile) (limit : Nat) :
    ((Grammar.go.extract file limit).functions.map (·.id)).Nodup := by
  have lines : (Grammar.go.declared file.text).map (fun d => file.text.lineAt d.nameAt) =
      (Grammar.go.extract file limit).functions.map (·.line) := by
    rw [← List.forall₂_eq_eq_eq, List.forall₂_map_left_iff, List.forall₂_map_right_iff]
    refine (Grammar.go.functions_forall₂ file limit).imp ?_
    rintro d _ ⟨complexity, rfl⟩
    rfl
  have apart := List.pairwise_map.2 (go_names_on_different_lines file.text)
  rw [lines, List.pairwise_map] at apart
  refine List.pairwise_map.2 (apart.imp_of_mem ?_)
  intro f f' listed listed' differ sameId
  have own : ∀ f ∈ (Grammar.go.extract file limit).functions, f.IdOfName := fun f listed =>
    Language.idOfName_of_mem .go Python.outline file limit listed
  exact differ (((own f listed).eq_iff (own f' listed')).1 sameId).2

/-- Two functions of a file have the same id exactly if they have the same qualified name and the
same line.  Where a file is read by patterns, the names of its functions stand at different offsets,
so one line names the function twice.  In Go that does not happen: every function is named on a line
of its own. -/
theorem equal_ids_share_name_and_line (lang : Language) (parse : Text → Python.Tree)
    (file : SourceFile) (limit : Nat) :
    (lang.extractWith parse file limit).functions.Pairwise (fun f f' =>
      f.id = f'.id ↔ f.qualifiedName = f'.qualifiedName ∧ f.line = f'.line) ∧
    (∀ g, lang.grammar? = some g →
      List.Forall₂ (fun d f => f.name = d.name ∧ f.line = file.text.lineAt d.nameAt)
        (g.declared file.text) (lang.extractWith parse file limit).functions ∧
      ((g.declared file.text).map (·.nameAt)).Nodup) ∧
    (lang = .go → ((lang.extractWith parse file limit).functions.map (·.id)).Nodup) := by
  refine ⟨?_, ?_, ?_⟩
  · apply List.pairwise_of_forall_mem_list
    intro f listed f' listed'
    have own := lang.idOfName_of_mem parse file limit listed
    exact own.eq_iff (lang.idOfName_of_mem parse file limit listed')
  · intro g scanned
    refine ⟨?_, g.declared_nameAt_nodup file.text⟩
    have extracted : lang.declaredWith parse file limit = g.extract file limit := by
      rw [Language.declaredWith, scanned]
    change List.Forall₂ _ _ (lang.declaredWith parse file limit).functions
    rw [extracted]
    refine (g.functions_forall₂ file limit).imp ?_
    rintro d _ ⟨complexity, rfl⟩
    exact ⟨rfl, rfl⟩
  · rintro rfl
    exact go_ids_nodup file limit

/-- Methods of one name on two types. -/
def methodsOfTwoTypes : SourceFile :=
  ⟨"m.go", "m", "func (a A) f() \x7b\x7d\nfunc (b B) f() \x7b\x7d\nfunc f() \x7b\x7d\n".toList⟩

theorem equal_ids_share_name_and_line_methods :
    (Language.go.extract methodsOfTwoTypes 80).functions.map (·.id) =
      ["m.A.f:1", "m.B.f:2", "m.f:3"] ∧
    ((Language.go.extract methodsOfTwoTypes 80).functions.map (·.id)).Nodup := by
  constructor
  · simp only [Language.extract, Language.extractWith, Language.declaredWith, Grammar.extract,
      Grammar.declarationsOf_eq_insertionSort]
    decide +kernel
  · exact (equal_ids_share_name_and_line .go Python.outline methodsOfTwoTypes 80).2.2 rfl

/-- Two branches that each declare a function of one name, on one line. -/
def branchesOnOneLine : SourceFile :=
  ⟨"m.js", "m",
    "if (x) \x7b const f = () => a(); \x7d else \x7b const f = () => b(); \x7d\n".toList⟩

/-- One line declares a name twice, and both functions have the same id. -/
theorem branches_on_one_line_share_an_id :
    (Language.javascript.extract branchesOnOneLine 80).functions.map (·.id) =
      ["m.f:1", "m.f:1"] ∧
    ¬ ((Language.javascript.extract branchesOnOneLine 80).functions.map (·.id)).Nodup := by
  have ids : (Language.javascript.extract branchesOnOneLine 80).functions.map (·.id) =
      ["m.f:1", "m.f:1"] := by
    simp only [Language.extract, Language.extractWith, Language.declaredWith, Grammar.extract,
      Grammar.declarationsOf_eq_insertionSort]
    decide +kernel
  refine ⟨ids, ?_⟩
  rw [ids]
  decide

end CallAtlas
