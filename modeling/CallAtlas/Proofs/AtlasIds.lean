/-
Module: CallAtlas.Proofs.AtlasIds
Purpose: Ids of an atlas are distinct.  A file whose function id is already taken puts its own path
  behind a mark that no declared id holds, so the declared id and the path can both be read back
  from the new id.  Calls and constructs carry the path of their file and a number, and the number
  can be read back because the word before it ends in a letter.
Main definitions: IdFrom, Atlas.IdsFrom, Numbered, FileRecords.Numbered
Main results: Atlas.ofFiles_idsFrom, callId_inj, flowId_inj, Language.extractWith_numbered,
  atlas_ids_are_distinct
-/
import Mathlib.Data.List.Induction
import Mathlib.Data.List.Nodup
import CallAtlas.Extraction
import CallAtlas.Atlas.Basic

namespace CallAtlas

/-! ### Reading an id back -/

/-- Two texts that agree agree before and after the first character outside a class. -/
theorem append_cons_inj_of_all {p : Char → Prop} {front front' back back' : List Char}
    {mark mark' : Char} (inside : ∀ c ∈ front, p c) (inside' : ∀ c ∈ front', p c)
    (outside : ¬ p mark) (outside' : ¬ p mark')
    (same : front ++ mark :: back = front' ++ mark' :: back') :
    front = front' ∧ mark :: back = mark' :: back' := by
  induction front generalizing front' with
  | nil =>
      cases front' with
      | nil => exact ⟨rfl, same⟩
      | cons c more =>
          injection same with same _
          exact absurd (inside' mark (same ▸ List.mem_cons_self)) outside
  | cons c more ih =>
      cases front' with
      | nil =>
          injection same with same _
          exact absurd (inside mark' (same ▸ List.mem_cons_self)) outside'
      | cons c' more' =>
          injection same with sameHead sameTail
          obtain ⟨sameFront, sameBack⟩ :=
            ih (fun x listed => inside x (List.mem_cons_of_mem c listed))
              (fun x listed => inside' x (List.mem_cons_of_mem c' listed)) sameTail
          exact ⟨by rw [sameHead, sameFront], sameBack⟩

/-- A declared id without the mark and the path behind it can both be read back. -/
theorem marked_inj {id id' path path' : String} (plain : '@' ∉ id.toList)
    (plain' : '@' ∉ id'.toList) (same : id ++ "@" ++ path = id' ++ "@" ++ path') :
    id = id' ∧ path = path' := by
  have sameText : id.toList ++ '@' :: path.toList = id'.toList ++ '@' :: path'.toList := by
    simpa using congrArg String.toList same
  obtain ⟨sameId, samePath⟩ := append_cons_inj_of_all (p := (· ≠ '@'))
    (fun c listed equal => plain (equal ▸ listed)) (fun c listed equal => plain' (equal ▸ listed))
    (not_not_intro rfl) (not_not_intro rfl) sameText
  exact ⟨String.toList_inj.1 sameId, String.toList_inj.1 (List.tail_eq_of_cons_eq samePath)⟩

/-- A path and a number can both be read back if the word between them ends in no digit. -/
theorem numbered_inj {path path' word : String} {number number' : Nat} {stem : List Char}
    {last : Char} (spelled : word.toList = stem ++ [last]) (letter : last.isDigit = false)
    (same : path ++ word ++ toString number = path' ++ word ++ toString number') :
    path = path' ∧ number = number' := by
  -- read from the end, an id is its digits and then the last letter of the word
  have backwards : ∀ (path : String) (number : Nat),
      (path ++ word ++ toString number).toList.reverse =
        (Nat.toDigits 10 number).reverse ++ last :: (stem.reverse ++ path.toList.reverse) := by
    intro path number
    simp [spelled, Nat.toString_eq_repr]
  have digits : ∀ number, ∀ c ∈ (Nat.toDigits 10 number).reverse, c.isDigit = true := by
    intro number c listed
    exact Nat.isDigit_of_mem_toDigits (by decide) (by decide) (List.mem_reverse.1 listed)
  have sameText := congrArg (·.toList.reverse) same
  rw [backwards, backwards] at sameText
  obtain ⟨sameDigits, sameFront⟩ := append_cons_inj_of_all (digits number) (digits number')
    (by simp [letter]) (by simp [letter]) sameText
  constructor
  · have samePath := List.append_cancel_left (List.tail_eq_of_cons_eq sameFront)
    exact String.toList_inj.1 (List.reverse_inj.1 samePath)
  · calc
      number = Nat.ofDigitChars 10 (Nat.toDigits 10 number) 0 := Nat.ofDigitChars_ten_toDigits.symm
      _ = Nat.ofDigitChars 10 (Nat.toDigits 10 number') 0 := by rw [List.reverse_inj.1 sameDigits]
      _ = number' := Nat.ofDigitChars_ten_toDigits

theorem callId_inj {path path' : String} {number number' : Nat}
    (same : callId path number = callId path' number') : path = path' ∧ number = number' := by
  have spelled : "#call".toList = "#cal".toList ++ ['l'] := by decide
  exact numbered_inj spelled (by decide) same

theorem flowId_inj {path path' : String} {number number' : Nat}
    (same : flowId path number = flowId path' number') : path = path' ∧ number = number' := by
  have spelled : "#flow".toList = "#flo".toList ++ ['w'] := by decide
  exact numbered_inj spelled (by decide) same

/-! ### Ids of functions -/

/-- An id as a file declares it, or as one of the given files has renamed it. -/
def IdFrom (paths : List String) (id : String) : Prop :=
  '@' ∉ id.toList ∨
    ∃ declared path, '@' ∉ declared.toList ∧ path ∈ paths ∧ id = declared ++ "@" ++ path

theorem mark_mem (declared path : String) : '@' ∈ (declared ++ "@" ++ path).toList := by
  simp

/-- A file that was not added before brings ids that no earlier file has. -/
theorem not_mem_of_idFrom {paths taken : List String} {declared path : String}
    (known : ∀ id ∈ taken, IdFrom paths id) (plain : '@' ∉ declared.toList)
    (unused : path ∉ paths) : declared ++ "@" ++ path ∉ taken := by
  intro listed
  rcases known _ listed with noMark | ⟨declared', path', plain', earlier, same⟩
  · exact noMark (mark_mem declared path)
  · obtain ⟨_, samePath⟩ := marked_inj plain plain' same
    exact unused (samePath ▸ earlier)

namespace FileRecords

/-- The functions of a file have distinct ids, and no id holds the mark for renaming. -/
structure DeclaresPlainIds (r : FileRecords) : Prop where
  distinct : (r.functions.map (·.id)).Nodup
  plain : ∀ f ∈ r.functions, '@' ∉ f.id.toList

variable {r : FileRecords} {taken : List String}

theorem rename_of_declared {f : Function} (declared : f ∈ r.functions) :
    r.rename taken f.id = if f.id ∈ taken then f.id ++ "@" ++ r.path else f.id := by
  have own : (r.functions.map (·.id)).contains f.id = true :=
    List.contains_iff_mem.2 (List.mem_map_of_mem declared)
  simp only [rename, own, Bool.and_true, List.contains_iff_mem]

/-- Distinct ids of one file stay distinct. -/
theorem rename_inj (plain : ∀ f ∈ r.functions, '@' ∉ f.id.toList) {f f' : Function}
    (declared : f ∈ r.functions) (declared' : f' ∈ r.functions)
    (same : r.rename taken f.id = r.rename taken f'.id) : f.id = f'.id := by
  rw [rename_of_declared declared, rename_of_declared declared'] at same
  split at same <;> split at same
  · exact (marked_inj (plain f declared) (plain f' declared') same).1
  · exact absurd (same ▸ mark_mem f.id r.path) (plain f' declared')
  · exact absurd (same ▸ mark_mem f'.id r.path) (plain f declared)
  · exact same

/-- The new ids of a file are not taken. -/
theorem rename_not_mem {paths : List String} (known : ∀ id ∈ taken, IdFrom paths id)
    (plain : ∀ f ∈ r.functions, '@' ∉ f.id.toList) (unused : r.path ∉ paths) {f : Function}
    (declared : f ∈ r.functions) : r.rename taken f.id ∉ taken := by
  rw [rename_of_declared declared]
  split
  · exact not_mem_of_idFrom known (plain f declared) unused
  · assumption

theorem rename_idFrom {paths : List String} (plain : ∀ f ∈ r.functions, '@' ∉ f.id.toList)
    (listed : r.path ∈ paths) {f : Function} (declared : f ∈ r.functions) :
    IdFrom paths (r.rename taken f.id) := by
  rw [rename_of_declared declared]
  split
  · exact Or.inr ⟨f.id, r.path, plain f declared, listed, rfl⟩
  · exact Or.inl (plain f declared)

theorem map_id_renameTaken :
    (r.renameTaken taken).functions.map (·.id) = r.functions.map fun f => r.rename taken f.id := by
  simp [renameTaken]

end FileRecords

namespace Atlas

/-- The function ids of an atlas are distinct, and each comes from one of the given files. -/
structure IdsFrom (paths : List String) (a : Atlas) : Prop where
  distinct : a.functionIds.Nodup
  known : ∀ id ∈ a.functionIds, IdFrom paths id

theorem functionIds_add (a : Atlas) (r : FileRecords) :
    (a.add r).functionIds =
      a.functionIds ++ r.functions.map fun f => r.rename a.functionIds f.id := by
  rw [← FileRecords.map_id_renameTaken]
  exact List.map_append

/-- One more file with a new path keeps the ids distinct, whatever ids it declares. -/
theorem IdsFrom.add {paths : List String} {a : Atlas} {r : FileRecords}
    (before : a.IdsFrom paths) (own : r.DeclaresPlainIds) (unused : r.path ∉ paths) :
    (a.add r).IdsFrom (paths ++ [r.path]) := by
  refine ⟨?_, ?_⟩
  · rw [functionIds_add, List.nodup_append']
    refine ⟨before.distinct, ?_, ?_⟩
    · have pairwise := List.pairwise_map.1 own.distinct
      refine List.pairwise_map.2 (pairwise.imp_of_mem ?_)
      intro f f' declared declared' differ same
      exact differ (FileRecords.rename_inj own.plain declared declared' same)
    · intro id earlier new
      obtain ⟨f, declared, rfl⟩ := List.mem_map.1 new
      exact FileRecords.rename_not_mem before.known own.plain unused declared earlier
  · intro id listed
    rw [functionIds_add] at listed
    rcases List.mem_append.1 listed with earlier | new
    · rcases before.known id earlier with noMark | ⟨declared, path, plain, known, same⟩
      · exact Or.inl noMark
      · exact Or.inr ⟨declared, path, plain, List.mem_append_left _ known, same⟩
    · obtain ⟨f, declared, rfl⟩ := List.mem_map.1 new
      exact FileRecords.rename_idFrom own.plain (by simp) declared

/-- Files added in order, each with a path of its own, have distinct function ids. -/
theorem ofFiles_idsFrom {files : List FileRecords} (paths : (files.map (·.path)).Nodup)
    (each : ∀ r ∈ files, r.DeclaresPlainIds) :
    (ofFiles files).IdsFrom (files.map (·.path)) := by
  -- the induction is on the file added last: it meets the ids of all files before it
  induction files using List.reverseRecOn with
  | nil => exact ⟨List.nodup_nil, by intro id listed; cases listed⟩
  | append_singleton files r ih =>
      rw [List.map_append, List.map_singleton, List.nodup_append'] at paths
      have earlier := ih paths.1 fun r' listed => each r' (List.mem_append_left _ listed)
      have unused : r.path ∉ files.map (·.path) := fun listed =>
        paths.2.2 listed (List.mem_singleton_self _)
      rw [ofFiles, List.foldl_append, List.map_append]
      exact earlier.add (each r (by simp)) unused

end Atlas

/-! ### Ids of calls and constructs -/

/-- Records in the order of their numbers: each has the id of its place. -/
def Numbered {α : Type} (idAt : Nat → String) (id : α → String) (records : List α) : Prop :=
  ∀ number r, records[number]? = some r → id r = idAt number

namespace Numbered

variable {α β : Type} {idAt : Nat → String} {id : α → String}

theorem nil : Numbered idAt id [] := by
  intro number r found
  cases found

theorem mapIdx (records : List β) {make : Nat → β → α}
    (made : ∀ number r, id (make number r) = idAt number) :
    Numbered idAt id (records.mapIdx make) := by
  intro number r found
  rw [List.getElem?_mapIdx] at found
  obtain ⟨source, _, rfl⟩ := Option.map_eq_some_iff.1 found
  exact made number source

/-- Records that go on counting where others stop. -/
theorem append {records more : List α} (before : Numbered idAt id records)
    (after : Numbered (fun i => idAt (records.length + i)) id more) :
    Numbered idAt id (records ++ more) := by
  intro number r found
  rcases Nat.lt_or_ge number records.length with early | late
  · rw [List.getElem?_append_left early] at found
    exact before number r found
  · rw [List.getElem?_append_right late] at found
    have place : records.length + (number - records.length) = number :=
      Nat.add_sub_cancel' late
    exact place ▸ after (number - records.length) r found

theorem exists_number {records : List α} (numbered : Numbered idAt id records) {r : α}
    (listed : r ∈ records) : ∃ number, id r = idAt number := by
  obtain ⟨number, found⟩ := List.mem_iff_getElem?.1 listed
  exact ⟨number, numbered number r found⟩

theorem nodup {records : List α} (numbered : Numbered idAt id records)
    (injective : ∀ {n n'}, idAt n = idAt n' → n = n') : (records.map id).Nodup := by
  rw [List.nodup_iff_injective_getElem]
  intro i j same
  dsimp only at same
  rw [List.getElem_map, List.getElem_map] at same
  have first := numbered i _ (List.getElem?_eq_getElem (by simpa using i.isLt))
  have second := numbered j _ (List.getElem?_eq_getElem (by simpa using j.isLt))
  exact Fin.ext (injective (first.symm.trans (same.trans second)))

end Numbered

/-- The calls and the constructs of a file are numbered in order. -/
structure FileRecords.Numbered (path : String) (r : FileRecords) : Prop where
  ofFile : r.path = path
  calls : CallAtlas.Numbered (callId path) (·.id) r.calls
  controlFlows : CallAtlas.Numbered (flowId path) (·.id) r.controlFlows

theorem FileRecords.Numbered.addDeclaration {file : SourceFile} {limit : Nat}
    {records : FileRecords} (before : records.Numbered file.path) (d : Declaration)
    (found : Findings) : (records.addDeclaration file limit d found).Numbered file.path := by
  refine ⟨before.ofFile, ?_, ?_⟩
  · exact before.calls.append (.mapIdx found.calls fun _ _ => rfl)
  · exact before.controlFlows.append (.mapIdx found.constructs fun _ _ => rfl)

theorem Grammar.extract_numbered (g : Grammar) (file : SourceFile) (limit : Nat) :
    (g.extract file limit).Numbered file.path := by
  unfold Grammar.extract
  refine List.foldlRecOn (motive := FileRecords.Numbered file.path) _ _ ⟨rfl, .nil, .nil⟩ ?_
  intro records numbered entry _
  exact numbered.addDeclaration _ _

theorem Python.recordsOf_numbered (file : SourceFile) (limit : Nat) (tree : Python.Tree) :
    (Python.recordsOf file limit tree).Numbered file.path :=
  ⟨rfl, .mapIdx _ fun _ _ => rfl, .mapIdx _ fun _ _ => rfl⟩

/-- The calls and constructs of every source file are numbered, however the file is read. -/
theorem Language.extractWith_numbered (lang : Language) (parse : Text → Python.Tree)
    (file : SourceFile) (limit : Nat) :
    (lang.extractWith parse file limit).Numbered (lang.extractWith parse file limit).path := by
  have declared : (lang.declaredWith parse file limit).Numbered file.path := by
    unfold declaredWith
    split
    · exact Grammar.extract_numbered _ file limit
    · exact Python.recordsOf_numbered file limit _
  have path : (lang.extractWith parse file limit).path = file.path := declared.ofFile
  rw [path]
  exact ⟨path, declared.calls, declared.controlFlows⟩

/-- Numbered records of files with distinct paths have distinct ids together. -/
theorem nodup_flatMap_of_numbered {α : Type} {files : List FileRecords} {id : α → String}
    {idAt : String → Nat → String} {recordsOf : FileRecords → List α}
    (injective : ∀ {path path' n n'}, idAt path n = idAt path' n' → path = path' ∧ n = n')
    (paths : (files.map (·.path)).Nodup)
    (numbered : ∀ r ∈ files, Numbered (idAt r.path) id (recordsOf r)) :
    (files.flatMap fun r => (recordsOf r).map id).Nodup := by
  rw [List.nodup_flatMap]
  refine ⟨?_, ?_⟩
  · intro r listed
    exact (numbered r listed).nodup fun same => (injective same).2
  · refine (List.pairwise_map.1 paths).imp_of_mem ?_
    intro r r' listed listed' differ x first second
    obtain ⟨c, declared, rfl⟩ := List.mem_map.1 first
    obtain ⟨c', declared', sameId⟩ := List.mem_map.1 second
    obtain ⟨n, atN⟩ := (numbered r listed).exists_number declared
    obtain ⟨n', atN'⟩ := (numbered r' listed').exists_number declared'
    exact differ (injective (atN.symm.trans (sameId.symm.trans atN'))).1

namespace Atlas

/-- The ids of one kind of record that files keep when they are added. -/
theorem ofFiles_ids {α : Type} (ids : Atlas → List α) {own : FileRecords → List α}
    (start : ids empty = []) (step : ∀ a r, ids (a.add r) = ids a ++ own r)
    (files : List FileRecords) : ids (ofFiles files) = files.flatMap own := by
  induction files using List.reverseRecOn with
  | nil => exact start
  | append_singleton files r ih =>
      rw [ofFiles] at ih ⊢
      rw [List.foldl_append, List.foldl_cons, List.foldl_nil, step, ih, List.flatMap_append]
      simp

theorem ofFiles_callIds (files : List FileRecords) :
    (ofFiles files).calls.map (·.id) = files.flatMap fun r => r.calls.map (·.id) := by
  refine ofFiles_ids (fun a => a.calls.map (·.id)) rfl ?_ files
  intro a r
  simp [add, FileRecords.renameTaken]

theorem ofFiles_flowIds (files : List FileRecords) :
    (ofFiles files).controlFlows.map (·.id) = files.flatMap fun r => r.controlFlows.map (·.id) := by
  refine ofFiles_ids (fun a => a.controlFlows.map (·.id)) rfl ?_ files
  intro a r
  simp [add, FileRecords.renameTaken]

end Atlas

/-- Files with distinct paths, added in any order, have distinct ids together: the ids of functions
if each file declares distinct ids without the mark for renaming, however many files declare the
same id, and the ids of calls and of constructs if the records were read from source files. -/
theorem atlas_ids_are_distinct (files : List FileRecords) (paths : (files.map (·.path)).Nodup) :
    ((∀ r ∈ files, (r.functions.map (·.id)).Nodup ∧ ∀ f ∈ r.functions, '@' ∉ f.id.toList) →
      ((Atlas.ofFiles files).functions.map (·.id)).Nodup) ∧
    ((∀ r ∈ files, ∃ lang parse file limit, r = Language.extractWith parse lang file limit) →
      ((Atlas.ofFiles files).calls.map (·.id)).Nodup ∧
      ((Atlas.ofFiles files).controlFlows.map (·.id)).Nodup) := by
  refine ⟨?_, ?_⟩
  · intro plain
    have each : ∀ r ∈ files, r.DeclaresPlainIds := fun r listed =>
      ⟨(plain r listed).1, (plain r listed).2⟩
    exact (Atlas.ofFiles_idsFrom paths each).distinct
  · intro read
    have numbered : ∀ r ∈ files, r.Numbered r.path := by
      intro r listed
      obtain ⟨lang, parse, file, limit, rfl⟩ := read r listed
      exact lang.extractWith_numbered parse file limit
    rw [Atlas.ofFiles_callIds, Atlas.ofFiles_flowIds]
    refine ⟨?_, ?_⟩
    · exact nodup_flatMap_of_numbered callId_inj paths fun r listed => (numbered r listed).calls
    · exact nodup_flatMap_of_numbered flowId_inj paths fun r listed =>
        (numbered r listed).controlFlows

/-- The records of a file with one function, whose id does not depend on the file. -/
def twinRecords (path : String) : FileRecords :=
  Language.go.extract ⟨path, "m", "func f() \x7b if x \x7b g() \x7d \x7d".toList⟩ 80

theorem atlas_ids_are_distinct_twins :
    ((Atlas.ofFiles (["a.go", "b.go", "c.go"].map twinRecords)).functions.map (·.id)).Nodup ∧
    ((Atlas.ofFiles (["a.go", "b.go", "c.go"].map twinRecords)).calls.map (·.id)).Nodup ∧
    ((Atlas.ofFiles (["a.go", "b.go", "c.go"].map twinRecords)).controlFlows.map (·.id)).Nodup ∧
    (Atlas.ofFiles (["a.go", "b.go", "c.go"].map twinRecords)).functions.map (·.id) =
      ["m.f:1", "m.f:1@b.go", "m.f:1@c.go"] := by
  have distinct := atlas_ids_are_distinct (["a.go", "b.go", "c.go"].map twinRecords)
    (by decide +kernel)
  have plain : ∀ r ∈ ["a.go", "b.go", "c.go"].map twinRecords,
      (r.functions.map (·.id)).Nodup ∧ ∀ f ∈ r.functions, '@' ∉ f.id.toList := by
    decide +kernel
  have read : ∀ r ∈ ["a.go", "b.go", "c.go"].map twinRecords,
      ∃ lang parse file limit, r = Language.extractWith parse lang file limit := by
    intro r listed
    obtain ⟨path, _, rfl⟩ := List.mem_map.1 listed
    exact ⟨.go, Python.outline, _, _, rfl⟩
  exact ⟨distinct.1 plain, (distinct.2 read).1, (distinct.2 read).2, by decide +kernel⟩

end CallAtlas
