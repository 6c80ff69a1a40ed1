/-
Module: CallAtlas.Proofs.AddedRecords
Purpose: What becomes of the records of a file that is added to an atlas.  The records before them
  stay, and they keep their order and everything but the ids of functions: what referred to a
  function refers to it under its new id.  The id of an entry point has the id of its function in
  it, and the first occurrence of that id is replaced.  An occurrence before the right one would
  consist of characters of the kind and the words around it, so it does not exist where the kind has
  no digit.
Main definitions: FollowsIds, FileRecords.Follows, FileRecords.NumberedEntries
Main results: replaceFirst_append, FileRecords.renameTaken_follows, FileRecords.id_renameEntry,
  added_records_follow_their_functions, kind_with_digit_takes_the_new_id
-/
import CallAtlas.Proofs.AtlasReferences
import CallAtlas.Proofs.FileIds

namespace CallAtlas

/-! ### Replacing the first occurrence -/

/-- Where a piece overlaps its own later occurrence, it repeats what stands before that. -/
theorem mem_front_of_overlap {front piece rest : Text} (someFront : front ≠ [])
    (early : piece <+: front ++ (piece ++ rest)) : ∀ c ∈ piece, c ∈ front := by
  -- the induction is on fronts of the piece: what of one reaches behind the text is a shorter one
  have general : ∀ n, ∀ part : Text, part.length ≤ n → part <+: piece → ∀ c ∈ part, c ∈ front := by
    intro n
    induction n with
    | zero =>
        intro part size _ c listed
        rw [List.length_eq_zero_iff.1 (Nat.le_zero.1 size)] at listed
        cases listed
    | succ n ih =>
        intro part size starts c listed
        have within : part <+: front ++ (piece ++ rest) := starts.trans early
        rcases Nat.le_total part.length front.length with short | long
        · have inFront := List.prefix_of_prefix_length_le within (List.prefix_append _ _) short
          exact inFront.subset listed
        · obtain ⟨beyond, rfl⟩ :=
            List.prefix_of_prefix_length_le (List.prefix_append _ _) within long
          have positive : 0 < front.length := List.length_pos_iff.2 someFront
          have sizes := starts.length_le
          rw [List.length_append] at size sizes
          have again : beyond <+: piece :=
            List.prefix_of_prefix_length_le ((List.prefix_append_right_inj front).1 within)
              (List.prefix_append _ _) (by omega)
          rcases List.mem_append.1 listed with inFront | behind
          · exact inFront
          · exact ih beyond (by omega) again c behind
  exact general piece.length piece (Nat.le_refl _) (List.prefix_refl piece)

/-- The first occurrence of a piece is the one behind a text that lacks a character of the piece. -/
theorem replaceFirst_append {front piece replacement rest : Text} {c : Char} (inPiece : c ∈ piece)
    (notInFront : c ∉ front) :
    replaceFirst piece replacement (front ++ (piece ++ rest)) = front ++ (replacement ++ rest) := by
  induction front with
  | nil =>
      obtain ⟨x, more, rfl⟩ := List.exists_cons_of_ne_nil (List.ne_nil_of_mem inPiece)
      rw [List.nil_append, List.cons_append, replaceFirst]
      simp
  | cons x front ih =>
      have late : ¬ piece.isPrefixOf (x :: front ++ (piece ++ rest)) := by
        intro early
        exact notInFront (mem_front_of_overlap (List.cons_ne_nil x front)
          (List.isPrefixOf_iff_prefix.1 early) c inPiece)
      rw [List.cons_append] at late ⊢
      rw [replaceFirst, if_neg late, ih fun listed => notInFront (List.mem_cons_of_mem x listed)]
      rfl

/-! ### Records that follow their functions -/

/-- What referred to a function refers to the function at the same place of another list, and other
references are left as they are. -/
structure FollowsIds (functions functions' : List Function) (id id' : String) : Prop where
  moved : ∀ (i : Nat) (f f' : Function), functions[i]? = some f → functions'[i]? = some f' →
    f.id = id → f'.id = id'
  kept : (∀ f ∈ functions, f.id ≠ id) → id' = id

namespace FileRecords

/-- The records of a file in the same order with new ids of functions: an id that is taken has the
path of the file behind it, and what referred to a function refers to its new id.  Everything else
is as it was, the ids of entry points apart. -/
structure Follows (taken : List String) (r added : FileRecords) : Prop where
  path : added.path = r.path
  moduleName : added.moduleName = r.moduleName
  functions : List.Forall₂ (fun f f' =>
      f' = { f with id := if f.id ∈ taken then f.id ++ "@" ++ r.path else f.id })
    r.functions added.functions
  calls : List.Forall₂ (fun c c' => c' = { c with callerId := c'.callerId } ∧
      FollowsIds r.functions added.functions c.callerId c'.callerId)
    r.calls added.calls
  controlFlows : List.Forall₂ (fun c c' => c' = { c with parentId := c'.parentId } ∧
      FollowsIds r.functions added.functions c.parentId c'.parentId)
    r.controlFlows added.controlFlows
  entryPoints : List.Forall₂ (fun e e' => e' = { e with id := e'.id, functionId := e'.functionId } ∧
      FollowsIds r.functions added.functions e.functionId e'.functionId)
    r.entryPoints added.entryPoints

variable {r : FileRecords} {taken : List String}

theorem rename_followsIds (r : FileRecords) (taken : List String) (id : String) :
    FollowsIds r.functions (r.renameTaken taken).functions id (r.rename taken id) := by
  refine ⟨?_, ?_⟩
  · intro i f f' atF atF' same
    rw [renameTaken, List.getElem?_map, atF, Option.map_some, Option.some.injEq] at atF'
    rw [← atF', ← same]
  · intro others
    have foreign : (r.functions.map (·.id)).contains id = false := by
      simpa using others
    rw [rename, foreign, Bool.and_false, if_neg Bool.false_ne_true]

/-- An entry point is left as it is or has its function's id replaced, also in its own id. -/
theorem renameEntry_cases (r : FileRecords) (taken : List String) (e : EntryPoint) :
    r.renameEntry taken e = e ∨
      r.renameEntry taken e =
        { e with
          id := String.ofList (replaceFirst e.functionId.toList
            (r.rename taken e.functionId).toList e.id.toList)
          functionId := r.rename taken e.functionId } := by
  dsimp only [renameEntry]
  split
  · exact Or.inl rfl
  · exact Or.inr rfl

/-- Renaming what is taken moves functions to new ids and lets all records follow. -/
theorem renameTaken_follows (r : FileRecords) (taken : List String) :
    r.Follows taken (r.renameTaken taken) where
  path := rfl
  moduleName := rfl
  functions := by
    rw [renameTaken, List.forall₂_map_right_iff, List.forall₂_same]
    intro f declared
    rw [rename_of_declared declared]
  calls := by
    rw [renameTaken, List.forall₂_map_right_iff, List.forall₂_same]
    intro c _
    exact ⟨rfl, r.rename_followsIds taken _⟩
  controlFlows := by
    rw [renameTaken, List.forall₂_map_right_iff, List.forall₂_same]
    intro c _
    exact ⟨rfl, r.rename_followsIds taken _⟩
  entryPoints := by
    rw [renameTaken, List.forall₂_map_right_iff, List.forall₂_same]
    intro e _
    refine ⟨?_, ?_⟩
    · rcases r.renameEntry_cases taken e with same | changed
      · rw [same]
      · rw [changed]
    · rw [functionId_renameEntry]
      exact r.rename_followsIds taken _

/-! ### Ids of entry points -/

/-- An entry point follows its function in its id too, if some character of the id of the function
does not occur before it. -/
theorem id_renameEntry {e : EntryPoint} {suffix : String} {c : Char}
    (shown : e.id = entryId e.kind e.functionId suffix) (inId : c ∈ e.functionId.toList)
    (notBefore : c ∉ ("entry:" ++ e.kind ++ ":").toList) :
    (r.renameEntry taken e).id =
      entryId (r.renameEntry taken e).kind (r.renameEntry taken e).functionId suffix := by
  have spelled : ∀ id : String, (entryId e.kind id suffix).toList =
      ("entry:" ++ e.kind ++ ":").toList ++ (id.toList ++ suffix.toList) := by
    intro id
    simp [entryId]
  rcases r.renameEntry_cases taken e with same | changed
  · rw [same]
    exact shown
  · rw [changed]
    apply String.toList_inj.1
    rw [shown, String.toList_ofList, spelled, replaceFirst_append inId notBefore, spelled]

end FileRecords

theorem exists_digit_of_functionId (name : String) (line : Nat) :
    ∃ c ∈ (functionId name line).toList, c.isDigit = true := by
  obtain ⟨c, listed⟩ := List.exists_mem_of_ne_nil (Nat.toDigits 10 line) Nat.toDigits_ne_nil
  have digit := Nat.isDigit_of_mem_toDigits (by decide) (by decide) listed
  have inId : c ∈ (functionId name line).toList := by
    simp [functionId, Nat.toString_eq_repr, listed]
  exact ⟨c, inId, digit⟩

/-- A digit occurs before the id of the function only if the kind has it. -/
theorem not_mem_before_of_digit {kind : String} {c : Char} (digit : c.isDigit = true)
    (free : ∀ x ∈ kind.toList, x.isDigit = false) : c ∉ ("entry:" ++ kind ++ ":").toList := by
  have word : ∀ x ∈ "entry:".toList, x.isDigit = false := by
    simp
  have colon : ∀ x ∈ ":".toList, x.isDigit = false := by
    simp
  intro listed
  have noDigit : c.isDigit = false := by
    rw [String.toList_append, String.toList_append, List.mem_append, List.mem_append] at listed
    rcases listed with (inWord | inKind) | inColon
    · exact word c inWord
    · exact free c inKind
    · exact colon c inColon
  rw [noDigit] at digit
  cases digit

theorem digit_free_of_mem_entryKinds :
    ∀ kind ∈ entryKinds, ∀ x ∈ kind.toList, x.isDigit = false := by
  simp [entryKinds]

/-- The entry point stands at one of the functions, and its id shows which. -/
def EntryPoint.Shows (functions : List Function) (e : EntryPoint) : Prop :=
  ∃ f ∈ functions, e.functionId = f.id ∧ ∃ suffix, e.id = entryId e.kind e.functionId suffix

namespace FileRecords

variable {r : FileRecords} {taken : List String}

/-- The entry points are made at functions of the file, of any kinds and with any notes, and then
numbered where ids repeat. -/
def NumberedEntries (r : FileRecords) : Prop :=
  ∃ made, r.entryPoints = numberDuplicates made ∧
    ∀ e ∈ made, ∃ f ∈ r.functions, ∃ kind notes,
      e = { EntryPoint.ofFunction f kind with metadata := notes }

theorem NumberedEntries.shows (numbered : r.NumberedEntries) :
    ∀ e ∈ r.entryPoints, e.Shows r.functions := by
  obtain ⟨made, same, each⟩ := numbered
  rw [same]
  apply forall_mem_numberFrom
  · rintro e more ⟨f, declared, sameId, suffix, shown⟩
    refine ⟨f, declared, sameId, suffix ++ more, ?_⟩
    rw [shown, entryId, entryId, String.append_assoc]
  · intro e listed
    obtain ⟨f, declared, kind, notes, rfl⟩ := each e listed
    exact ⟨f, declared, rfl, "", by rw [entryId, String.append_empty]; rfl⟩

/-- An id that shows a function shows it under its new id, if the kind of the entry point has no
digit: the line in the id of the function has one. -/
theorem id_renameEntry_of_shows {e : EntryPoint}
    (made : ∀ f ∈ r.functions, ∃ name line, f.id = functionId name line)
    (shows : e.Shows r.functions) :
    ∃ suffix, e.id = entryId e.kind e.functionId suffix ∧
      ((∀ c ∈ e.kind.toList, c.isDigit = false) →
        (r.renameEntry taken e).id =
          entryId (r.renameEntry taken e).kind (r.renameEntry taken e).functionId suffix) := by
  obtain ⟨f, declared, sameId, suffix, shown⟩ := shows
  refine ⟨suffix, shown, ?_⟩
  intro free
  obtain ⟨name, line, idOfName⟩ := made f declared
  obtain ⟨c, inId, digit⟩ := exists_digit_of_functionId name line
  rw [← idOfName, ← sameId] at inId
  exact id_renameEntry shown inId (not_mem_before_of_digit digit free)

end FileRecords

/-- A file that is added to an atlas of any files leaves the records before it as they are, and its
own records come behind them in order: a function keeps its id or has the path of the file behind
it, what referred to the function at some place refers to the function that was added for it, and
nothing else changes but ids of entry points.  Where ids of functions end in lines and entry points
are made at functions and numbered, the id of an entry point shows the new id of its function where
it showed the old one, if its kind has no digit.  That is so for all entry points of all source
files. -/
theorem added_records_follow_their_functions (files : List FileRecords) (r : FileRecords) :
    ∃ added, r.Follows (Atlas.ofFiles files).functionIds added ∧
      (Atlas.ofFiles files).add r =
        { modules := (Atlas.ofFiles files).modules ++ [added.moduleOf]
          functions := (Atlas.ofFiles files).functions ++ added.functions
          calls := (Atlas.ofFiles files).calls ++ added.calls
          controlFlows := (Atlas.ofFiles files).controlFlows ++ added.controlFlows
          entryPoints := (Atlas.ofFiles files).entryPoints ++ added.entryPoints } ∧
      ((∀ f ∈ r.functions, ∃ name line, f.id = functionId name line) → r.NumberedEntries →
        List.Forall₂ (fun e e' => ∃ suffix, e.id = entryId e.kind e.functionId suffix ∧
            ((∀ c ∈ e.kind.toList, c.isDigit = false) →
              e'.id = entryId e'.kind e'.functionId suffix))
          r.entryPoints added.entryPoints) ∧
      ((∃ lang parse file limit, r = Language.extractWith parse lang file limit) →
        List.Forall₂ (fun e e' => ∃ suffix, e.id = entryId e.kind e.functionId suffix ∧
            e'.id = entryId e'.kind e'.functionId suffix)
          r.entryPoints added.entryPoints) := by
  refine ⟨r.renameTaken (Atlas.ofFiles files).functionIds, r.renameTaken_follows _, rfl, ?_, ?_⟩
  · intro made numbered
    rw [FileRecords.renameTaken, List.forall₂_map_right_iff, List.forall₂_same]
    intro e listed
    exact FileRecords.id_renameEntry_of_shows made (numbered.shows e listed)
  · rintro ⟨lang, parse, file, limit, rfl⟩
    rw [FileRecords.renameTaken, List.forall₂_map_right_iff, List.forall₂_same]
    intro e listed
    obtain ⟨f, declared, placed⟩ := entryPoints_isAt listed
    have shows : e.Shows (lang.extractWith parse file limit).functions := by
      refine ⟨f, declared, placed.functionId, ?_⟩
      rw [placed.functionId]
      exact placed.id
    have made : ∀ f ∈ (lang.extractWith parse file limit).functions,
        ∃ name line, f.id = functionId name line := fun f listed =>
      ⟨_, _, lang.idOfName_of_mem parse file limit listed⟩
    obtain ⟨suffix, shown, followed⟩ := FileRecords.id_renameEntry_of_shows made shows
    exact ⟨suffix, shown, followed (digit_free_of_mem_entryKinds e.kind placed.kind)⟩

/-- The records of a file with one function `entry` in line 1 and entry points of given kinds. -/
def entryRecords (path : String) (kinds : List String) : FileRecords :=
  let f : Function :=
    { (default : Function) with
      id := functionId "entry" 1, name := "entry", qualifiedName := "entry", filePath := path,
      line := 1 }
  { path, moduleName := "", functions := [f], calls := [], controlFlows := [],
    entryPoints := numberDuplicates (kinds.map (EntryPoint.ofFunction f)) }

/-- All entry points of such a file are made at its function. -/
theorem numberedEntries_entryRecords (path : String) (kinds : List String) :
    (entryRecords path kinds).NumberedEntries := by
  refine ⟨_, rfl, ?_⟩
  intro e listed
  obtain ⟨kind, _, rfl⟩ := List.mem_map.1 listed
  exact ⟨_, List.mem_singleton_self _, kind, [], rfl⟩

theorem idsOfLines_entryRecords (path : String) (kinds : List String) :
    ∀ f ∈ (entryRecords path kinds).functions, ∃ name line, f.id = functionId name line := by
  intro f listed
  rw [entryRecords, List.mem_singleton] at listed
  exact ⟨"entry", 1, by rw [listed]⟩

/-- The records of a Go file with a function `main`. -/
def mainRecords (path : String) : FileRecords :=
  Language.go.extract ⟨path, "m", "func main() \x7b\x7d".toList⟩ 80

theorem added_records_follow_their_functions_twice :
    (∀ f ∈ (entryRecords "m.x" ["route", "route"]).functions,
      ∃ name line, f.id = functionId name line) ∧
    (entryRecords "m.x" ["route", "route"]).NumberedEntries ∧
    (∃ added, (entryRecords "m.x" ["route", "route"]).Follows ["entry:1"] added ∧
      List.Forall₂ (fun e e' => ∃ suffix, e.id = entryId e.kind e.functionId suffix ∧
          ((∀ c ∈ e.kind.toList, c.isDigit = false) →
            e'.id = entryId e'.kind e'.functionId suffix))
        (entryRecords "m.x" ["route", "route"]).entryPoints added.entryPoints) ∧
    (∃ added, (mainRecords "b.go").Follows ["m.main:1"] added ∧
      List.Forall₂ (fun e e' => ∃ suffix, e.id = entryId e.kind e.functionId suffix ∧
          e'.id = entryId e'.kind e'.functionId suffix)
        (mainRecords "b.go").entryPoints added.entryPoints) ∧
    (Atlas.ofFiles [entryRecords "a.x" ["route"], entryRecords "m.x" ["route", "route"],
        mainRecords "a.go", mainRecords "b.go"]).entryPoints.map (·.id) =
      ["entry:route:entry:1", "entry:route:entry:1@m.x", "entry:route:entry:1@m.x#2",
        "entry:main_function:m.main:1", "entry:main_function:m.main:1@b.go"] := by
  have made := idsOfLines_entryRecords "m.x" ["route", "route"]
  have numbered := numberedEntries_entryRecords "m.x" ["route", "route"]
  obtain ⟨added, follows, _, entries, _⟩ :=
    added_records_follow_their_functions [entryRecords "a.x" ["route"]]
      (entryRecords "m.x" ["route", "route"])
  obtain ⟨added', follows', _, _, entries'⟩ :=
    added_records_follow_their_functions [mainRecords "a.go"] (mainRecords "b.go")
  have taken : (Atlas.ofFiles [entryRecords "a.x" ["route"]]).functionIds = ["entry:1"] := by
    decide +kernel
  have taken' : (Atlas.ofFiles [mainRecords "a.go"]).functionIds = ["m.main:1"] := by
    decide +kernel
  rw [taken] at follows
  rw [taken'] at follows'
  refine ⟨made, numbered, ⟨added, follows, entries made numbered⟩, ⟨added', follows', ?_⟩,
    by decide +kernel⟩
  exact entries' ⟨.go, Python.outline, _, _, rfl⟩

/-- An entry point of a kind with a digit may take the new id of its function too early: in
`entry:1st_run:entry:1` the id `entry:1` occurs first at the beginning. -/
theorem kind_with_digit_takes_the_new_id :
    (∀ f ∈ (entryRecords "m.x" ["1st_run"]).functions, ∃ name line, f.id = functionId name line) ∧
    (entryRecords "m.x" ["1st_run"]).NumberedEntries ∧
    (entryRecords "m.x" ["1st_run"]).entryPoints.map (·.id) = [entryId "1st_run" "entry:1" ""] ∧
    ((Atlas.ofFiles [entryRecords "a.x" []]).add (entryRecords "m.x" ["1st_run"])).entryPoints.map
      (fun e => (e.id, e.functionId)) = [("entry:1@m.xst_run:entry:1", "entry:1@m.x")] ∧
    "entry:1@m.xst_run:entry:1" ≠ entryId "1st_run" "entry:1@m.x" "" := by
  exact ⟨idsOfLines_entryRecords _ _, numberedEntries_entryRecords _ _, by decide +kernel,
    by decide +kernel, by decide⟩

end CallAtlas
