/-
Module: CallAtlas.Proofs.AtlasReferences
Purpose: No reference of a resolved atlas is left open.  A file that is added may have to give up
  ids that earlier files have taken; its records follow the new ids, so what referred to a function
  of the file before still does.  Calls are resolved against the ids as they are after that.
Main definitions: Atlas.Closed
Main results: FileRecords.renameTaken_closed, Atlas.ofFiles_closed, Resolver.resolve_direct,
  analyzeWith_closed, resolved_atlas_has_no_open_references
-/
import CallAtlas.Project.Analysis
import CallAtlas.Proofs.FileReferences

namespace CallAtlas

/-! ### Records that follow a change of ids -/

/-- Records that follow their functions to new ids still belong to them. -/
theorem AllOwned.map {α : Type} {functions functions' : List Function} {owner filePath : α → String}
    {records : List α} {rename : String → String} {follow : α → α}
    (owned : AllOwned functions owner filePath records)
    (carried : ∀ f ∈ functions, ∃ f' ∈ functions', f'.id = rename f.id ∧ f'.filePath = f.filePath)
    (sameOwner : ∀ r, owner (follow r) = rename (owner r))
    (sameFile : ∀ r, filePath (follow r) = filePath r) :
    AllOwned functions' owner filePath (records.map follow) := by
  intro _ listed
  obtain ⟨r, before, rfl⟩ := List.mem_map.1 listed
  obtain ⟨f, declared, sameId, inFile⟩ := owned r before
  obtain ⟨f', declared', newId, inFile'⟩ := carried f declared
  exact ⟨f', declared', by rw [newId, sameId, sameOwner], by rw [inFile', inFile, sameFile]⟩

theorem FileRecords.functionId_renameEntry (r : FileRecords) (taken : List String)
    (e : EntryPoint) : (r.renameEntry taken e).functionId = r.rename taken e.functionId := by
  dsimp only [FileRecords.renameEntry]
  split
  · -- an entry point is left as it is if its function keeps its id
    next same => exact same.symm
  · rfl

theorem FileRecords.filePath_renameEntry (r : FileRecords) (taken : List String)
    (e : EntryPoint) : (r.renameEntry taken e).filePath = e.filePath := by
  dsimp only [FileRecords.renameEntry]
  split <;> rfl

/-- All records of a file follow the new ids of its functions. -/
theorem FileRecords.renameTaken_closed {r : FileRecords} (closed : r.Closed)
    (taken : List String) : (r.renameTaken taken).Closed := by
  have carried : ∀ f ∈ r.functions, ∃ f' ∈ (r.renameTaken taken).functions,
      f'.id = r.rename taken f.id ∧ f'.filePath = f.filePath := fun f declared =>
    ⟨{ f with id := r.rename taken f.id }, List.mem_map_of_mem declared, rfl, rfl⟩
  refine ⟨?_, ?_, ?_⟩
  · exact closed.calls.map carried (fun _ => rfl) (fun _ => rfl)
  · exact closed.controlFlows.map carried (fun _ => rfl) (fun _ => rfl)
  · exact closed.entryPoints.map carried (r.functionId_renameEntry taken)
      (r.filePath_renameEntry taken)

/-! ### Files added one after the other -/

namespace Atlas

/-- The records of an atlas refer to its functions. -/
def Closed (a : Atlas) : Prop :=
  ReferencesClosed a.functions a.calls a.controlFlows a.entryPoints

theorem add_closed {a : Atlas} {r : FileRecords} (before : a.Closed) (own : r.Closed) :
    (a.add r).Closed :=
  ReferencesClosed.append before (FileRecords.renameTaken_closed own a.functionIds)

/-- The atlas of files whose records refer to their functions has the same property, whatever ids
the files share. -/
theorem ofFiles_closed {files : List FileRecords} (each : ∀ r ∈ files, r.Closed) :
    (ofFiles files).Closed :=
  List.foldlRecOn (motive := Closed) files add .nil
    fun _ closed r listed => add_closed closed (each r listed)

end Atlas

/-! ### Resolved calls -/

namespace Resolver

/-- The names of a list of functions are registered with the last function first. -/
theorem ofFunctions_eq (functions : List Function) :
    ofFunctions functions =
      ⟨functions.reverse.map fun f => (f.qualifiedName, f.id),
        functions.reverse.map fun f => (f.name, f.id)⟩ := by
  have general : ∀ r : Resolver, functions.foldl add r =
      ⟨(functions.reverse.map fun f => (f.qualifiedName, f.id)) ++ r.qualified,
        (functions.reverse.map fun f => (f.name, f.id)) ++ r.short⟩ := by
    induction functions with
    | nil =>
        intro r
        rfl
    | cons f more ih =>
        intro r
        rw [List.foldl_cons, ih]
        simp [add, NameTable.register]
  rw [ofFunctions, general]
  simp

theorem exists_of_get? {functions : List Function} {nameOf : Function → String}
    {name id : String}
    (found : NameTable.get? (functions.reverse.map fun f => (nameOf f, f.id)) name = some id) :
    ∃ f ∈ functions, f.id = id := by
  obtain ⟨_, _, split, _⟩ := List.lookup_eq_some_iff.1 found
  have listed : (name, id) ∈ functions.reverse.map fun f => (nameOf f, f.id) := by
    rw [split]
    simp
  obtain ⟨f, declared, same⟩ := List.mem_map.1 listed
  exact ⟨f, List.mem_reverse.1 declared, congrArg Prod.snd same⟩

/-- A direct resolution is the id of a registered function. -/
theorem resolve_direct {functions : List Function} {callee id : String}
    (direct : (ofFunctions functions).resolve callee = .direct id) :
    ∃ f ∈ functions, f.id = id := by
  rw [ofFunctions_eq, resolve] at direct
  split at direct
  · next id' qualified =>
      injection direct with same
      exact exists_of_get? (same ▸ qualified)
  · split at direct
    · next id' short =>
        injection direct with same
        exact exists_of_get? (same ▸ short)
    · cases direct

end Resolver

/-- Resolving the calls of an atlas changes no reference to a caller. -/
theorem Atlas.resolve_closed {a : Atlas} (closed : a.Closed) : a.resolve.Closed := by
  refine ⟨?_, closed.controlFlows, closed.entryPoints⟩
  -- the functions keep their ids
  have carried : ∀ f ∈ a.functions, ∃ f' ∈ a.functions,
      f'.id = id f.id ∧ f'.filePath = f.filePath := fun f declared => ⟨f, declared, rfl, rfl⟩
  exact closed.calls.map carried (fun _ => rfl) (fun _ => rfl)

/-- A resolved call has a type and a callee, and the callee of a direct call is a function. -/
theorem Atlas.resolve_calls {a : Atlas} {c : Call} (listed : c ∈ a.resolve.calls) :
    c.callType.isSome ∧ c.calleeId.isSome ∧
      (c.callType = some .direct → ∃ f ∈ a.functions, c.calleeId = some f.id) := by
  obtain ⟨call, _, rfl⟩ := List.mem_map.1 listed
  refine ⟨rfl, rfl, ?_⟩
  intro direct
  dsimp only [Resolver.applyTo] at direct ⊢
  cases resolution : (Resolver.ofFunctions a.functions).resolve call.calleeName with
  | direct id =>
      obtain ⟨f, declared, same⟩ := Resolver.resolve_direct resolution
      exact ⟨f, declared, by rw [Resolution.calleeId, same]⟩
  | external name =>
      rw [resolution] at direct
      cases direct

/-! ### Whole runs -/

/-- The atlas of discovered files has no open reference; files without text have no records. -/
theorem assembleWith_closed (parse : Text → Python.Tree) (files : List DiscoveredFile)
    (limit : Nat) : (assembleWith parse files limit).Closed := by
  apply Atlas.ofFiles_closed
  intro r listed
  obtain ⟨f, _, read⟩ := List.mem_filterMap.1 listed
  unfold DiscoveredFile.extractWith at read
  split at read
  · injection read with same
    rw [← same]
    exact Language.extractWith_closed _ _ _ limit
  · cases read

/-- The result of a run is that of the files that were discovered. -/
theorem exists_discovered_of_analyzeWith {parse : Text → Python.Tree} {disk : Disk}
    {config : Config} {isCancelled : Bool} {root : String} {result : AtlasResult}
    (done : analyzeWith parse disk config isCancelled root = .ok result) :
    ∃ files, discoverFiles disk config root = .ok files ∧
      result = (assembleWith parse files config.conditionLimit).toResult root config.maxCycles
        config.maxOrphans := by
  simp only [analyzeWith, bind, Except.bind, pure, Except.pure] at done
  split at done
  · cases done
  · split at done
    · cases done
    · split at done
      · cases done
      · next files discovered =>
          split at done
          · cases done
          · injection done with same
            exact ⟨files, discovered, same.symm⟩

/-- A run on a project that has a result has one without open references. -/
theorem analyzeWith_closed {parse : Text → Python.Tree} {disk : Disk} {config : Config}
    {isCancelled : Bool} {root : String} {result : AtlasResult}
    (done : analyzeWith parse disk config isCancelled root = .ok result) :
    result.atlas.Closed := by
  obtain ⟨files, _, rfl⟩ := exists_discovered_of_analyzeWith done
  exact Atlas.resolve_closed (assembleWith_closed parse files config.conditionLimit)

/-- The resolved atlas of source files that are read and added in order.  `parse` gives the tree of
a Python text. -/
def Atlas.ofSources (parse : Text → Python.Tree) (limit : Nat)
    (files : List (Language × SourceFile)) : Atlas :=
  (ofFiles (files.map fun (lang, file) => lang.extractWith parse file limit)).resolve

/-- However many files of whatever languages, paths, modules and texts are read, and in whatever
order they are added, the resolved atlas has no open reference: the caller of a call, the parent of
a construct and the function of an entry point are functions of the atlas in the file of the record,
every call has a type and a callee, and the callee of a direct call is a function of the atlas.  The
tree of a Python text may be any tree. -/
theorem resolved_atlas_has_no_open_references (parse : Text → Python.Tree) (limit : Nat)
    (files : List (Language × SourceFile)) :
    (∀ c ∈ (Atlas.ofSources parse limit files).calls,
      ∃ f ∈ (Atlas.ofSources parse limit files).functions,
        f.id = c.callerId ∧ f.filePath = c.filePath) ∧
    (∀ c ∈ (Atlas.ofSources parse limit files).controlFlows,
      ∃ f ∈ (Atlas.ofSources parse limit files).functions,
        f.id = c.parentId ∧ f.filePath = c.filePath) ∧
    (∀ e ∈ (Atlas.ofSources parse limit files).entryPoints,
      ∃ f ∈ (Atlas.ofSources parse limit files).functions,
        f.id = e.functionId ∧ f.filePath = e.filePath) ∧
    (∀ c ∈ (Atlas.ofSources parse limit files).calls,
      c.callType.isSome ∧ c.calleeId.isSome ∧
        (c.callType = some .direct →
          ∃ f ∈ (Atlas.ofSources parse limit files).functions, c.calleeId = some f.id)) := by
  have each : ∀ r ∈ files.map fun (lang, file) => lang.extractWith parse file limit, r.Closed := by
    intro r listed
    obtain ⟨⟨lang, file⟩, _, rfl⟩ := List.mem_map.1 listed
    exact lang.extractWith_closed parse file limit
  have closed : (Atlas.ofSources parse limit files).Closed :=
    Atlas.resolve_closed (Atlas.ofFiles_closed each)
  exact ⟨closed.calls, closed.controlFlows, closed.entryPoints, fun _ => Atlas.resolve_calls⟩

end CallAtlas
