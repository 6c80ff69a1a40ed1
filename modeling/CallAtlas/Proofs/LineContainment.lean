/-
Module: CallAtlas.Proofs.LineContainment
Purpose: The lines of a record lie in the lines of the function that it was found in.  Lines grow
  with offsets, and what a declaration owns lies between its name and its end.
Main definitions: OwnedRecords, Grammar.recordsByOwner
Main results: Text.lineAt_mono, Text.lineAt_le_lineCount, Grammar.extract_eq_recordsByOwner,
  records_lie_in_lines_of_owner
-/
import CallAtlas.Proofs.Ownership

namespace CallAtlas

/-! ### Lines -/

namespace Text

theorem newlinesBefore_mono (t : Text) {n k : Nat} (ordered : n ≤ k) :
    newlinesBefore n t ≤ newlinesBefore k t := by
  induction t generalizing n k with
  | nil => cases n <;> simp [newlinesBefore]
  | cons c t ih =>
      cases n with
      | zero => simp [newlinesBefore]
      | succ n =>
          cases k with
          | zero => omega
          | succ k =>
              have further := ih (n := n + 1 - c.utf8Size) (k := k + 1 - c.utf8Size) (by omega)
              simp only [newlinesBefore]
              omega

theorem newlinesBefore_le_count (t : Text) (n : Nat) : newlinesBefore n t ≤ t.count '\n' := by
  induction t generalizing n with
  | nil => cases n <;> simp [newlinesBefore]
  | cons c t ih =>
      cases n with
      | zero => simp [newlinesBefore]
      | succ n =>
          have further := ih (n + 1 - c.utf8Size)
          simp only [newlinesBefore, List.count_cons]
          omega

theorem one_le_lineAt (t : Text) (n : Nat) : 1 ≤ t.lineAt n := Nat.le_add_left 1 _

theorem lineAt_mono (t : Text) {n k : Nat} (ordered : n ≤ k) : t.lineAt n ≤ t.lineAt k :=
  Nat.succ_le_succ (newlinesBefore_mono t ordered)

theorem lineAt_le_lineCount (t : Text) (n : Nat) : t.lineAt n ≤ t.lineCount :=
  Nat.succ_le_succ (newlinesBefore_le_count t n)

end Text

/-! ### Records by owner -/

/-- A function with the records that were found in its body. -/
structure OwnedRecords where
  function : Function
  calls : List Call
  controlFlows : List ControlFlow
deriving Repr, DecidableEq, Inhabited

/-- The records of one declaration, its calls and its constructs numbered from the given counts. -/
def OwnedRecords.of (file : SourceFile) (limit calls flows : Nat) (d : Declaration)
    (found : Findings) : OwnedRecords :=
  let f := d.record file found.complexity
  { function := f
    calls := found.calls.mapIdx fun i site => site.record file f.id found.base (calls + i)
    controlFlows := found.constructs.mapIdx fun i site =>
      site.record file limit f.id found.base (flows + i) }

/-- The records of declarations, one after the other, numbered on from the given counts. -/
def recordsFrom (file : SourceFile) (limit : Nat) :
    Nat → Nat → List (Declaration × Findings) → List OwnedRecords
  | _, _, [] => []
  | calls, flows, (d, found) :: more =>
    .of file limit calls flows d found ::
      recordsFrom file limit (calls + found.calls.length) (flows + found.constructs.length) more

/-- The records of a source file by the declaration they were found in. -/
def Grammar.recordsByOwner (g : Grammar) (file : SourceFile) (limit : Nat) : List OwnedRecords :=
  recordsFrom file limit 0 0 (g.owned file.text)

theorem foldl_addDeclaration (file : SourceFile) (limit : Nat)
    (owned : List (Declaration × Findings)) (records : FileRecords) :
    owned.foldl (fun records o => records.addDeclaration file limit o.1 o.2) records =
      let groups := recordsFrom file limit records.calls.length records.controlFlows.length owned
      { records with
        functions := records.functions ++ groups.map (·.function)
        calls := records.calls ++ groups.flatMap (·.calls)
        controlFlows := records.controlFlows ++ groups.flatMap (·.controlFlows) } := by
  induction owned generalizing records with
  | nil => simp [recordsFrom]
  | cons o more ih =>
      rw [List.foldl_cons, ih]
      simp [recordsFrom, FileRecords.addDeclaration, OwnedRecords.of]

/-- The records of a source file are those of its declarations, in order. -/
theorem Grammar.extract_eq_recordsByOwner (g : Grammar) (file : SourceFile) (limit : Nat) :
    g.extract file limit =
      { path := file.path
        moduleName := file.moduleName
        functions := (g.recordsByOwner file limit).map (·.function)
        calls := (g.recordsByOwner file limit).flatMap (·.calls)
        controlFlows := (g.recordsByOwner file limit).flatMap (·.controlFlows)
        entryPoints := [] } := by
  rw [g.extract_eq_foldl_owned, foldl_addDeclaration]
  rfl

theorem exists_of_mem_recordsFrom {file : SourceFile} {limit calls flows : Nat}
    {owned : List (Declaration × Findings)} {o : OwnedRecords}
    (listed : o ∈ recordsFrom file limit calls flows owned) :
    ∃ d found calls flows, (d, found) ∈ owned ∧ o = .of file limit calls flows d found := by
  induction owned generalizing calls flows with
  | nil => cases listed
  | cons first more ih =>
      obtain ⟨d, found⟩ := first
      rcases List.mem_cons.1 listed with rfl | later
      · exact ⟨d, found, calls, flows, List.mem_cons_self, rfl⟩
      · obtain ⟨d', found', calls', flows', before, same⟩ := ih later
        exact ⟨d', found', calls', flows', List.mem_cons_of_mem _ before, same⟩

/-! ### Lines of owned records -/

/-- An offset in the body of a declaration lies between its name and its last byte. -/
theorem Declaration.Placed.between_of_inBody {here : Nat → Prop} {d : Declaration} {offset : Nat}
    (placed : d.Placed here) (inBody : ∃ body, d.body = some body ∧ body.contains offset = true) :
    d.nameAt ≤ offset ∧ offset ≤ max (d.span.stop - 1) d.nameAt := by
  obtain ⟨body, isBody, inside⟩ := inBody
  have ordered := placed.body.ordered body isBody
  simp only [Span.contains, Bool.and_eq_true, decide_eq_true_eq] at inside
  omega

section Lines

variable {lang : Language} {g : Grammar} {file : SourceFile} {d : Declaration} {index : Nat}

theorem Language.call_between (scanned : lang.grammar? = some g)
    (declared : d ∈ g.declared file.text) {site : CallSite}
    (called : site ∈ (g.found file.text index d).calls) :
    d.nameAt ≤ (g.found file.text index d).base + site.offset ∧
      (g.found file.text index d).base + site.offset ≤ max (d.span.stop - 1) d.nameAt := by
  have offset : (g.found file.text index d).base + site.offset ∈
      (g.found file.text index d).callOffsets := List.mem_map_of_mem called
  have owns := Language.owns_of_mem_callOffsets scanned declared offset
  exact (Language.placed_in_views scanned declared).1.between_of_inBody owns.inBody

theorem Language.construct_between (scanned : lang.grammar? = some g)
    (declared : d ∈ g.declared file.text) {site : Construct}
    (standing : site ∈ (g.found file.text index d).constructs) :
    d.nameAt ≤ (g.found file.text index d).base + site.start ∧
      (g.found file.text index d).base + max (site.stop - 1) site.start ≤
        max (d.span.stop - 1) d.nameAt := by
  obtain ⟨owns, body, isBody, inside⟩ := Language.owns_of_mem_constructs scanned declared standing
  have placed := (Language.placed_in_views scanned declared).1
  have ordered := placed.body.ordered body isBody
  obtain ⟨behind, before⟩ := placed.between_of_inBody owns.inBody
  -- the last byte of the construct is its first one or another byte of the body
  omega

end Lines

/-- Every function of a source file lies on lines of the file, and every call and every construct
found in its body lies on lines of the function. -/
theorem records_lie_in_lines_of_owner {lang : Language} {g : Grammar}
    (scanned : lang.grammar? = some g) (file : SourceFile) (limit : Nat) :
    (lang.extract file limit).functions = (g.recordsByOwner file limit).map (·.function) ∧
    (lang.extract file limit).calls = (g.recordsByOwner file limit).flatMap (·.calls) ∧
    (lang.extract file limit).controlFlows =
      (g.recordsByOwner file limit).flatMap (·.controlFlows) ∧
    ∀ o ∈ g.recordsByOwner file limit,
      1 ≤ o.function.line ∧ o.function.line ≤ o.function.endLine ∧
      o.function.endLine ≤ file.text.lineCount ∧
      (∀ c ∈ o.calls, c.callerId = o.function.id ∧
        o.function.line ≤ c.line ∧ c.line ≤ o.function.endLine) ∧
      (∀ c ∈ o.controlFlows, c.parentId = o.function.id ∧
        o.function.line ≤ c.line ∧ c.line ≤ c.endLine ∧ c.endLine ≤ o.function.endLine) := by
  have extracted : lang.declaredWith Python.outline file limit = g.extract file limit := by
    rw [Language.declaredWith, scanned]
  have records := extracted.trans (g.extract_eq_recordsByOwner file limit)
  refine ⟨congrArg FileRecords.functions records, congrArg FileRecords.calls records,
    congrArg FileRecords.controlFlows records, ?_⟩
  intro o listed
  obtain ⟨d, found, calls, flows, owned, rfl⟩ := exists_of_mem_recordsFrom listed
  obtain ⟨⟨e, index⟩, indexed, same⟩ := List.mem_map.1 owned
  obtain ⟨rfl, rfl⟩ := Prod.mk.inj same
  have declared : e ∈ g.declared file.text := List.fst_mem_of_mem_zipIdx indexed
  refine ⟨file.text.one_le_lineAt _, file.text.lineAt_mono (Nat.le_max_right _ _),
    file.text.lineAt_le_lineCount _, ?_, ?_⟩
  · intro c recorded
    obtain ⟨i, bound, rfl⟩ := List.mem_mapIdx.1 recorded
    obtain ⟨behind, before⟩ := Language.call_between scanned declared (List.getElem_mem bound)
    exact ⟨rfl, file.text.lineAt_mono behind, file.text.lineAt_mono before⟩
  · intro c recorded
    obtain ⟨i, bound, rfl⟩ := List.mem_mapIdx.1 recorded
    obtain ⟨behind, before⟩ := Language.construct_between scanned declared (List.getElem_mem bound)
    refine ⟨rfl, file.text.lineAt_mono behind, file.text.lineAt_mono ?_,
      file.text.lineAt_mono before⟩
    exact Nat.add_le_add_left (Nat.le_max_right _ _) _

/-- A call inside a construct of several lines. -/
def callInConstruct : SourceFile :=
  ⟨"m.js", "m", "function f(x) \x7b\n  if (x) \x7b\n    g();\n  \x7d\n\x7d\n".toList⟩

theorem records_lie_in_lines_of_owner_construct :
    (Grammar.javascript.recordsByOwner callInConstruct 80).map
        (fun o => ((o.function.line, o.function.endLine), o.calls.map (·.line),
          o.controlFlows.map fun c => (c.line, c.endLine))) = [((1, 5), [3], [(2, 4)])] ∧
    ∀ o ∈ Grammar.javascript.recordsByOwner callInConstruct 80,
      1 ≤ o.function.line ∧ o.function.line ≤ o.function.endLine ∧
      o.function.endLine ≤ callInConstruct.text.lineCount ∧
      (∀ c ∈ o.calls, c.callerId = o.function.id ∧
        o.function.line ≤ c.line ∧ c.line ≤ o.function.endLine) ∧
      (∀ c ∈ o.controlFlows, c.parentId = o.function.id ∧
        o.function.line ≤ c.line ∧ c.line ≤ c.endLine ∧ c.endLine ≤ o.function.endLine) := by
  have scanned : Language.javascript.grammar? = some Grammar.javascript := rfl
  exact ⟨by decide +kernel, (records_lie_in_lines_of_owner scanned callInConstruct 80).2.2.2⟩

end CallAtlas
