/-
Module: CallAtlas.Proofs.DroppedFiles
Purpose: What a file that holds no text does to a run.  Its records are left out, but it has been
  given a module name before that.  A run on the tree without the file reads the same other files.
  They have the same names if none of them would have the name that the file took, and the result is
  the same exactly if those with text do.
Main definitions: LeavesOut, DiscoveredFile.SameSource
Main results: filesIn_without, filesAmong_expand_without, texts_eq_of_untaken,
  texts_eq_of_analyzeWith_eq, binary_file_takes_only_names
-/
import CallAtlas.Proofs.AtlasIds
import CallAtlas.Proofs.DiscoveredFiles
import CallAtlas.Proofs.LineContainment
import CallAtlas.Proofs.ModuleNames
import CallAtlas.Proofs.PrunedTrees

namespace CallAtlas

/-! ### Lists from which something is left out -/

/-- A list without some of its elements, all of them of a kind, and with what the others became. -/
inductive LeavesOut {α β : Type} (gone : α → Prop) (same : α → β → Prop) :
    List α → List β → Prop where
  | nil : LeavesOut gone same [] []
  | keep {a : α} {b : β} {l : List α} {l' : List β} (alike : same a b)
      (rest : LeavesOut gone same l l') : LeavesOut gone same (a :: l) (b :: l')
  | drop {a : α} {l : List α} {l' : List β} (isGone : gone a) (rest : LeavesOut gone same l l') :
      LeavesOut gone same (a :: l) l'

namespace LeavesOut

variable {α β γ : Type} {gone : α → Prop} {same : α → β → Prop}

theorem refl (l : List α) : LeavesOut gone Eq l l := by
  induction l with
  | nil => exact .nil
  | cons a l ih => exact .keep rfl ih

/-- The first element is left out, or it is what became the first element of the other list. -/
theorem cons_cases {a : α} {l : List α} {l' : List β} (leaves : LeavesOut gone same (a :: l) l') :
    gone a ∧ LeavesOut gone same l l' ∨
      ∃ b more, l' = b :: more ∧ same a b ∧ LeavesOut gone same l more := by
  cases leaves with
  | keep alike rest => exact Or.inr ⟨_, _, rfl, alike, rest⟩
  | drop isGone rest => exact Or.inl ⟨isGone, rest⟩

theorem append {l₁ l₂ : List α} {l₁' l₂' : List β} (first : LeavesOut gone same l₁ l₁')
    (second : LeavesOut gone same l₂ l₂') : LeavesOut gone same (l₁ ++ l₂) (l₁' ++ l₂') := by
  induction first with
  | nil => exact second
  | keep alike _ ih => exact .keep alike ih
  | drop isGone _ ih => exact .drop isGone ih

theorem flatMap {l : List γ} {f : γ → List α} {f' : γ → List β}
    (each : ∀ x ∈ l, LeavesOut gone same (f x) (f' x)) :
    LeavesOut gone same (l.flatMap f) (l.flatMap f') := by
  induction l with
  | nil => exact .nil
  | cons x l ih =>
      rw [List.flatMap_cons, List.flatMap_cons]
      apply (each x List.mem_cons_self).append
      exact ih fun y later => each y (List.mem_cons_of_mem x later)

/-- What is chosen from the two lists differs in the same way. -/
theorem filterMap {l l' : List α} {goneAfter : β → Prop} {f : α → Option β}
    (leaves : LeavesOut gone Eq l l') (stays : ∀ a b, gone a → f a = some b → goneAfter b) :
    LeavesOut goneAfter Eq (l.filterMap f) (l'.filterMap f) := by
  induction leaves with
  | nil => exact .nil
  | @keep a b l l' alike _ ih =>
      subst alike
      cases chosen : f a with
      | none => simpa [chosen] using ih
      | some b =>
          rw [List.filterMap_cons_some chosen, List.filterMap_cons_some chosen]
          exact .keep rfl ih
  | @drop a l l' isGone _ ih =>
      cases chosen : f a with
      | none => simpa [chosen] using ih
      | some b =>
          rw [List.filterMap_cons_some chosen]
          exact .drop (stays a b isGone chosen) ih

/-- The elements of another kind stay, each with what it became. -/
theorem forall₂_filter {l : List α} {l' : List β} {p : α → Bool} {p' : β → Bool}
    (leaves : LeavesOut gone same l l') (refused : ∀ a, gone a → p a = false)
    (alike : ∀ a b, same a b → p a = p' b) : List.Forall₂ same (l.filter p) (l'.filter p') := by
  induction leaves with
  | nil => exact .nil
  | @keep a b l l' sameHere _ ih =>
      rw [List.filter_cons, List.filter_cons, alike a b sameHere]
      split
      · exact .cons sameHere ih
      · exact ih
  | @drop a l l' isGone _ ih =>
      rw [List.filter_cons_of_neg (by simp [refused a isGone])]
      exact ih

end LeavesOut

/-! ### Walks -/

section Walk

variable {skipped : List String} {path : List String} {tree : Entry} {place location : Location}
  {content : List UInt8}

/-- The files that a walk finds in a named entry of a directory. -/
def filesOf (skipped : List String) (path : List String) (named : String × Entry) :
    List FoundFile :=
  if named.2.isDirectory && skipped.contains named.1 then []
  else filesIn skipped (path ++ [named.1]) named.1 named.2

/-- Walks through two directories made of the same entries, entry by entry. -/
theorem filesAmong_filterMap_leavesOut {gone : FoundFile → Prop} {entries : List (String × Entry)}
    {f f' : String × Entry → Option (String × Entry)}
    (each : ∀ named ∈ entries, LeavesOut gone Eq ((f named).toList.flatMap (filesOf skipped path))
      ((f' named).toList.flatMap (filesOf skipped path))) :
    LeavesOut gone Eq (filesAmong skipped path (entries.filterMap f))
      (filesAmong skipped path (entries.filterMap f')) := by
  rw [filesAmong_eq_flatMap, filesAmong_eq_flatMap, List.filterMap_eq_flatMap_toList,
    List.filterMap_eq_flatMap_toList, List.flatMap_assoc, List.flatMap_assoc]
  exact .flatMap each

theorem filesOf_leavesOut {gone : FoundFile → Prop} {name : String} {e e' : Entry}
    (alike : e'.isDirectory = e.isDirectory)
    (inner : LeavesOut gone Eq (filesIn skipped (path ++ [name]) name e)
      (filesIn skipped (path ++ [name]) name e')) :
    LeavesOut gone Eq (filesOf skipped path (name, e)) (filesOf skipped path (name, e')) := by
  rw [filesOf, filesOf]
  dsimp only
  rw [alike]
  split
  · exact .nil
  · exact inner

theorem filesOf_directory_leavesOut {gone : FoundFile → Prop} {name : String}
    {entries entries' : List (String × Entry)}
    (inner : LeavesOut gone Eq (filesAmong skipped (path ++ [name]) entries)
      (filesAmong skipped (path ++ [name]) entries')) :
    LeavesOut gone Eq (filesOf skipped path (name, .directory entries))
      (filesOf skipped path (name, .directory entries')) := by
  apply filesOf_leavesOut
  · rfl
  · rw [filesIn, filesIn]
    exact inner

theorem filesOf_file_leavesOut {name : String} :
    LeavesOut (·.content = content) Eq (filesOf skipped path (name, .file content)) [] := by
  rw [filesOf, filesIn]
  exact .drop rfl .nil

/-- A walk through a tree without a file finds the other files. -/
theorem filesIn_without {e : Entry} {name : String} (ordered : e.Ordered)
    (leaf : ∀ q, location ++ q = place → e.at? q = some (.file content))
    (elsewhere : location ≠ place) :
    LeavesOut (·.content = content) Eq (filesIn skipped path name e)
      (filesIn skipped path name (e.without place location)) := by
  induction ordered generalizing path name location with
  | file _ =>
      rw [Entry.without]
      exact .refl _
  | link _ =>
      rw [Entry.without]
      exact .refl _
  | @directory entries sorted inner ih =>
      rw [Entry.without, Entry.withoutAmong_eq_filterMap, filesIn, filesIn]
      have whole : filesAmong skipped path entries =
          filesAmong skipped path (entries.filterMap some) := by
        rw [List.filterMap_some]
      rw [whole]
      apply filesAmong_filterMap_leavesOut
      rintro ⟨n, child⟩ listed
      have below : ∀ q, location ++ [n] ++ q = place → child.at? q = some (.file content) := by
        intro q there
        rw [← List.append_cons] at there
        have isLeaf := leaf _ there
        rwa [Entry.at?, Entry.child?_directory, Entry.lookup_of_mem sorted listed] at isLeaf
      rw [Option.toList_some, List.flatMap_singleton]
      by_cases here : location ++ [n] = place
      · obtain rfl : child = .file content := by
          rw [← List.append_nil (location ++ [n])] at here
          exact Option.some.inj (below [] here)
        rw [if_pos here]
        exact filesOf_file_leavesOut
      · rw [if_neg here, Option.toList_some, List.flatMap_singleton]
        exact filesOf_leavesOut Entry.isDirectory_without (ih _ listed below here)

/-- What a link leads to: the file is left out, and a directory is walked through if it is not on
the way. -/
theorem expandFound_leavesOut {found : Option Located} {fuel fuel' : Nat} {way : List Location}
    {name : String} (isFile : tree.at? place = some (.file content))
    (atEnd : ∀ f, found = some f → tree.at? f.location = some f.entry)
    (deeper : ∀ location inner, tree.at? location = some (.directory inner) → location ∉ way →
      LeavesOut (·.content = content) Eq
        (filesAmong skipped (path ++ [name]) (tree.expand fuel way location inner))
        (filesAmong skipped (path ++ [name]) ((tree.without place []).expand fuel' way location
          (Entry.withoutAmong place location inner)))) :
    LeavesOut (·.content = content) Eq
      ((tree.expandFound fuel way name found).toList.flatMap (filesOf skipped path))
      (((tree.without place []).expandFound fuel' way name
        (found.bind (Located.without? place))).toList.flatMap (filesOf skipped path)) := by
  cases found with
  | none => exact .nil
  | some found =>
      obtain ⟨location, e⟩ := found
      have there := atEnd _ rfl
      rw [Option.bind_some, Located.without?]
      dsimp only at there ⊢
      by_cases here : location = place
      · obtain rfl : e = .file content := by
          rw [here, isFile] at there
          exact (Option.some.inj there).symm
        rw [if_pos here, Entry.expandFound, Entry.expandFound]
        · simpa using filesOf_file_leavesOut
        all_goals simp
      · rw [if_neg here]
        cases e with
        | file _ =>
            rw [Entry.without]
            exact .refl _
        | link _ =>
            rw [Entry.without]
            exact .nil
        | directory inner =>
            rw [Entry.without, Entry.expandFound, Entry.expandFound]
            split
            · exact .nil
            · next unlisted =>
                simp only [Option.toList_some, List.flatMap_singleton]
                apply filesOf_directory_leavesOut
                apply deeper location inner there
                simpa using unlisted

/-- The same for a walk that follows links. -/
theorem filesAmong_expand_without {entries : List (String × Entry)} {fuel fuel' : Nat}
    {above : List Location} (ordered : tree.Ordered)
    (isFile : tree.at? place = some (.file content)) (below : place ≠ [])
    (there : tree.at? location = some (.directory entries))
    (enough : tree.need (location :: above) entries < fuel)
    (enough' : (tree.without place []).need (location :: above)
      (Entry.withoutAmong place location entries) < fuel') :
    LeavesOut (·.content = content) Eq
      (filesAmong skipped path (tree.expand fuel above location entries))
      (filesAmong skipped path ((tree.without place []).expand fuel' above location
        (Entry.withoutAmong place location entries))) := by
  induction fuel generalizing fuel' above location entries path with
  | zero => exact absurd enough (Nat.not_lt_zero _)
  | succ fuel ih =>
      cases fuel' with
      | zero => exact absurd enough' (Nat.not_lt_zero _)
      | succ fuel' =>
          rw [Entry.expand_succ, Entry.expand_succ, Entry.withoutAmong_eq_filterMap,
            List.filterMap_filterMap]
          apply filesAmong_filterMap_leavesOut
          rintro ⟨n, e⟩ listed
          have atName : tree.at? (location ++ [n]) = some e := by
            rw [Entry.at?_concat, there]
            cases ordered.at? there with
            | directory sorted _ => exact Entry.lookup_of_mem sorted listed
          dsimp only
          by_cases here : location ++ [n] = place
          · obtain rfl : e = .file content := by
              rw [here, isFile] at atName
              exact (Option.some.inj atName).symm
            rw [if_pos here, Entry.expandNamed]
            simpa using filesOf_file_leavesOut
          rw [if_neg here, Option.bind_some]
          cases e with
          | file _ =>
              rw [Entry.without]
              exact .refl _
          | directory inner =>
              have listed' := Entry.mem_withoutAmong listed here
              rw [Entry.without] at listed' ⊢
              simp only [Entry.expandNamed, Option.toList_some, List.flatMap_singleton]
              apply filesOf_directory_leavesOut
              apply ih atName
              · exact Nat.lt_of_lt_of_le (Entry.need_of_inner listed) (Nat.le_of_lt_succ enough)
              · exact Nat.lt_of_lt_of_le (Entry.need_of_inner listed') (Nat.le_of_lt_succ enough')
          | link target =>
              rw [Entry.without, Entry.expandNamed, Entry.expandNamed]
              dsimp only
              rw [Entry.follow_without isFile below]
              apply expandFound_leavesOut isFile
              · intro found led
                exact Entry.at?_of_follow (ok_of_toOption led)
              · intro location' inner there' unlisted
                have there'' := (Entry.at?_without_directory isFile there').2
                apply ih there'
                · exact Nat.lt_of_lt_of_le (Entry.need_of_link there' unlisted)
                    (Nat.le_of_lt_succ enough)
                · exact Nat.lt_of_lt_of_le (Entry.need_of_link there'' unlisted)
                    (Nat.le_of_lt_succ enough')

end Walk

/-! ### Names -/

/-- The same source file, apart from its module name. -/
def DiscoveredFile.SameSource (d d' : DiscoveredFile) : Prop :=
  d.path = d'.path ∧ d.language = d'.language ∧ d.content = d'.content

/-- Whether a file holds text. -/
def DiscoveredFile.holdsText (d : DiscoveredFile) : Bool := !d.content.contains 0

theorem DiscoveredFile.holdsText_of_binary {content : List UInt8} {d : DiscoveredFile}
    (binary : 0 ∈ content) (same : d.content = content) : d.holdsText = false := by
  rw [holdsText, same, List.contains_iff_mem.2 binary]
  rfl

theorem DiscoveredFile.SameSource.holdsText_eq {d d' : DiscoveredFile} (same : d.SameSource d') :
    d.holdsText = d'.holdsText := by
  rw [holdsText, holdsText, same.2.2]

/-- Source files are the same if their names are. -/
theorem eq_of_sameSource {files files' : List DiscoveredFile}
    (same : List.Forall₂ DiscoveredFile.SameSource files files')
    (names : files.map (·.moduleName) = files'.map (·.moduleName)) : files = files' := by
  induction same with
  | nil => rfl
  | @cons d d' more more' alike _ ih =>
      obtain ⟨name, rest⟩ := List.cons.inj names
      obtain ⟨path, moduleName, language, content⟩ := d
      obtain ⟨rfl, rfl, rfl⟩ := alike
      obtain rfl : moduleName = d'.moduleName := name
      rw [ih rest]

section Names

variable {content : List UInt8} {taken taken' : List String}
  {selected selected' : List SelectedFile}

/-- Naming keeps what the files are. -/
theorem nameModules_leavesOut (leaves : LeavesOut (·.content = content) Eq selected selected') :
    LeavesOut (·.content = content) DiscoveredFile.SameSource (nameModules taken selected)
      (nameModules taken' selected') := by
  induction leaves generalizing taken taken' with
  | nil => exact .nil
  | keep alike _ ih =>
      subst alike
      exact .keep ⟨rfl, rfl, rfl⟩ ih
  | drop isGone _ ih => exact .drop isGone ih

/-- Files keep their names if those left out take none of them. -/
theorem LeavesOut.eq_of_untaken {names : List String} (fewer : taken'.Sublist taken)
    (extra : ∀ name ∈ taken, name ∈ names → name ∈ taken')
    (leaves : LeavesOut (fun d => d.content = content ∧ d.moduleName ∉ names)
      DiscoveredFile.SameSource (nameModules taken selected) (nameModules taken' selected'))
    (given : ∀ d ∈ nameModules taken' selected', d.moduleName ∈ names) :
    LeavesOut (·.content = content) Eq (nameModules taken selected)
      (nameModules taken' selected') := by
  induction selected generalizing taken taken' selected' with
  | nil =>
      cases selected' with
      | nil => exact .nil
      | cons f' more' => cases leaves
  | cons f more ih =>
      rw [nameModules] at leaves ⊢
      rcases leaves.cons_cases with ⟨isGone, rest⟩ | ⟨d', named, shape, alike, rest⟩
      · refine .drop isGone.1 (ih (fewer.cons _) ?_ rest given)
        intro name listed inNames
        rcases List.mem_cons.1 listed with rfl | old
        · exact absurd inNames isGone.2
        · exact extra name old inNames
      · cases selected' with
        | nil => cases shape
        | cons f' more' =>
            rw [nameModules] at shape given ⊢
            obtain ⟨rfl, rfl⟩ := List.cons.inj shape
            obtain ⟨path, language, sameContent⟩ := alike
            dsimp only at path language sameContent
            -- the name chosen with fewer names taken is still free
            have name : distinctName taken (moduleName f.path f.language) f.path =
                distinctName taken' (moduleName f'.path f'.language) f'.path := by
              rw [path, language]
              apply distinctName_of_sublist fewer
              intro isTaken
              exact distinctName_not_mem (extra _ isTaken (given _ List.mem_cons_self))
            rw [name] at rest ⊢
            rw [path, language, sameContent]
            refine .keep rfl (ih (fewer.cons_cons _) ?_ rest ?_)
            · intro name listed inNames
              rcases List.mem_cons.1 listed with rfl | old
              · exact List.mem_cons_self
              · exact List.mem_cons_of_mem _ (extra name old inNames)
            · intro d later
              exact given d (List.mem_cons_of_mem _ later)

/-- Files with text have the same names if those left out take none of them. -/
theorem texts_eq_of_untaken (binary : 0 ∈ content)
    (untaken : LeavesOut (fun d => d.content = content ∧
        d.moduleName ∉ (nameModules [] selected').map (·.moduleName))
      DiscoveredFile.SameSource (nameModules [] selected) (nameModules [] selected')) :
    (nameModules [] selected).filter DiscoveredFile.holdsText =
      (nameModules [] selected').filter DiscoveredFile.holdsText := by
  have kept : LeavesOut (·.content = content) Eq (nameModules [] selected)
      (nameModules [] selected') := by
    apply untaken.eq_of_untaken (.refl [])
    · intro name listed
      cases listed
    · intro d listed
      exact List.mem_map.2 ⟨d, listed, rfl⟩
  rw [← List.forall₂_eq_eq_eq]
  apply kept.forall₂_filter
  · intro d same
    exact d.holdsText_of_binary binary same
  · intro d d' same
    rw [same]

end Names

/-! ### Runs -/

section Run

variable {parse : Text → Python.Tree} {disk : Disk} {config : Config} {root : String}
  {place location : Location} {content : List UInt8} {entries : List (String × Entry)}

/-- The files below a root, whether links are followed or not. -/
theorem filesIn_rootEntry_without (skipped : List String) (name : String) (followLinks : Bool)
    (ordered : disk.tree.Ordered) (isFile : disk.tree.at? place = some (.file content))
    (located : disk.locate root true = .ok ⟨location, .directory entries⟩) :
    ∃ top top', rootEntry disk followLinks root = .ok top ∧
      rootEntry (disk.without place) followLinks root = .ok top' ∧
      LeavesOut (·.content = content) Eq (filesIn skipped [] name top)
        (filesIn skipped [] name top') := by
  obtain ⟨below, located'⟩ := Disk.locate_without_of_directory isFile located
  have there := Disk.at?_of_locate located
  obtain ⟨elsewhere, there'⟩ := Entry.at?_without_directory isFile there
  refine ⟨_, _, rootEntry_of_located located, rootEntry_of_located located', ?_⟩
  cases followLinks with
  | false =>
      have leaf : ∀ q, location ++ q = place →
          (Entry.directory entries).at? q = some (.file content) := by
        rintro q rfl
        rwa [Entry.at?_append, there, Option.bind_some] at isFile
      have pruned : Entry.directory (Entry.withoutAmong place location entries) =
          (Entry.directory entries).without place location := by
        rw [Entry.without]
      rw [if_neg Bool.false_ne_true, if_neg Bool.false_ne_true, pruned]
      exact filesIn_without (ordered.at? there) leaf elsewhere
  | true =>
      simp only [if_true, Entry.followLinks, filesIn]
      exact filesAmong_expand_without ordered isFile below there (Entry.need_lt there)
        (Entry.need_lt there')

theorem discover_without (config : Config) (globs : List Glob) (ordered : disk.tree.Ordered)
    (isFile : disk.tree.at? place = some (.file content))
    (located : disk.locate root true = .ok ⟨location, .directory entries⟩) :
    ∃ selected selected', discover disk config globs root = .ok (nameModules [] selected) ∧
      discover (disk.without place) config globs root = .ok (nameModules [] selected') ∧
      LeavesOut (·.content = content) Eq selected selected' := by
  obtain ⟨top, top', started, started', leaves⟩ := filesIn_rootEntry_without config.skippedNames
    (lastName root) config.followLinks ordered isFile located
  have kept : ∀ f g, f.content = content →
      Selection.select? ⟨config.enabledLanguages, globs⟩ f = some g → g.content = content := by
    intro f g sameContent selected
    rw [(Selection.select?_eq_some_iff.1 selected).2.2.2.2]
    exact sameContent
  refine ⟨_, _, ?_, ?_, leaves.filterMap kept⟩
  · rw [discover, started]
    rfl
  · rw [discover, started']
    rfl

theorem checkRoot_of_located
    (located : disk.locate root true = .ok ⟨location, .directory entries⟩) :
    checkRoot disk root = .ok () := by
  rw [checkRoot, located]
  rfl

theorem moduleName_of_extractWith {lang : Language} {file : SourceFile} {limit : Nat} :
    (lang.extractWith parse file limit).moduleName = file.moduleName := by
  rw [Language.extractWith, Language.declaredWith]
  dsimp only
  split
  · next g _ => rw [g.extract_eq_recordsByOwner]
  · rfl

/-- Exactly the files with text have records, under their module names. -/
theorem DiscoveredFile.extractWith_cases (parse : Text → Python.Tree) (d : DiscoveredFile)
    (limit : Nat) :
    d.holdsText = false ∧ (d.extractWith parse limit).toOption = none ∨
      d.holdsText = true ∧
        ∃ r, (d.extractWith parse limit).toOption = some r ∧ r.moduleName = d.moduleName := by
  rw [holdsText, extractWith, Utf8.decodeSource?]
  cases d.content.contains 0 with
  | true => exact Or.inl ⟨rfl, rfl⟩
  | false => exact Or.inr ⟨rfl, _, rfl, moduleName_of_extractWith⟩

/-- A project is assembled from its files with text. -/
theorem assembleWith_eq_filter (parse : Text → Python.Tree) (files : List DiscoveredFile)
    (limit : Nat) : assembleWith parse files limit =
      assembleWith parse (files.filter DiscoveredFile.holdsText) limit := by
  rw [assembleWith, assembleWith, List.filterMap_filter]
  congr 1
  apply List.filterMap_congr
  intro d _
  rcases d.extractWith_cases parse limit with ⟨binary, unread⟩ | ⟨text, _⟩
  · rw [unread, binary]
    rfl
  · rw [text]
    rfl

/-- The modules of a project have the names of its files with text, in order. -/
theorem moduleNames_assembleWith (parse : Text → Python.Tree) (files : List DiscoveredFile)
    (limit : Nat) : (assembleWith parse files limit).modules.map (·.name) =
      (files.filter DiscoveredFile.holdsText).map (·.moduleName) := by
  have step : ∀ (a : Atlas) (r : FileRecords),
      (a.add r).modules.map (·.name) = a.modules.map (·.name) ++ [r.moduleName] := by
    intro a r
    simp [Atlas.add, FileRecords.moduleOf, FileRecords.renameTaken]
  rw [assembleWith, Atlas.ofFiles_ids (fun a => a.modules.map (·.name)) rfl step]
  induction files with
  | nil => rfl
  | cons d more ih =>
      rcases d.extractWith_cases parse limit with ⟨binary, unread⟩ | ⟨text, r, read, name⟩
      · rw [List.filterMap_cons, unread, List.filter_cons_of_neg (by simp [binary])]
        exact ih
      · rw [List.filterMap_cons, read, List.filter_cons_of_pos text, List.map_cons, ← name, ← ih]
        rfl

/-- A run on a directory sees the files only through what is assembled from them. -/
theorem analyzeWith_of_located {isCancelled : Bool}
    (located : disk.locate root true = .ok ⟨location, .directory entries⟩) :
    analyzeWith parse disk config isCancelled root =
      match config.validate with
      | .error fault => .error (.badConfig fault)
      | .ok () =>
        ((discoverFiles disk config root).map (assembleWith parse · config.conditionLimit)).bind
          fun atlas =>
            if isCancelled then .error .cancelled
            else .ok (atlas.toResult root config.maxCycles config.maxOrphans) := by
  rw [analyzeWith, checkRoot_of_located located]
  cases config.validate with
  | error _ => rfl
  | ok _ =>
      cases discoverFiles disk config root with
      | error _ => rfl
      | ok _ => rfl

section SameRoot

variable {disk' : Disk} {entries' : List (String × Entry)} {files files' : List DiscoveredFile}

theorem analyzeWith_eq_of_texts_eq {isCancelled : Bool}
    (located : disk.locate root true = .ok ⟨location, .directory entries⟩)
    (located' : disk'.locate root true = .ok ⟨location, .directory entries'⟩)
    (discovered : discoverFiles disk config root = .ok files)
    (discovered' : discoverFiles disk' config root = .ok files')
    (texts : files.filter DiscoveredFile.holdsText = files'.filter DiscoveredFile.holdsText) :
    analyzeWith parse disk' config isCancelled root =
      analyzeWith parse disk config isCancelled root := by
  have assembled : assembleWith parse files' config.conditionLimit =
      assembleWith parse files config.conditionLimit := by
    rw [assembleWith_eq_filter parse files', ← texts, ← assembleWith_eq_filter]
  rw [analyzeWith_of_located located, analyzeWith_of_located located', discovered, discovered',
    Except.map, Except.map, assembled]

/-- A result tells the names of the files with text. -/
theorem texts_eq_of_analyzeWith_eq
    (located : disk.locate root true = .ok ⟨location, .directory entries⟩)
    (located' : disk'.locate root true = .ok ⟨location, .directory entries'⟩)
    (discovered : discoverFiles disk config root = .ok files)
    (discovered' : discoverFiles disk' config root = .ok files')
    (same : List.Forall₂ DiscoveredFile.SameSource (files.filter DiscoveredFile.holdsText)
      (files'.filter DiscoveredFile.holdsText))
    (valid : config.validate = .ok ())
    (alike : analyzeWith parse disk' config false root =
      analyzeWith parse disk config false root) :
    files.filter DiscoveredFile.holdsText = files'.filter DiscoveredFile.holdsText := by
  apply eq_of_sameSource same
  rw [analyzeWith_of_located located, analyzeWith_of_located located', discovered, discovered',
    valid] at alike
  have modules := congrArg (fun r => r.atlas.modules.map (·.name)) (Except.ok.inj alike)
  rw [← moduleNames_assembleWith parse files config.conditionLimit,
    ← moduleNames_assembleWith parse files' config.conditionLimit]
  exact modules.symm

end SameRoot

/-- A file with a zero byte influences a run only by the module name that it takes.  Without it the
other files are the same, in the same order, and those with text have the same names if none of them
has, in the tree without it, the name that the file has.  The result is the same exactly if they
do.  The trees of Python texts may be any trees. -/
theorem binary_file_takes_only_names (parse : Text → Python.Tree) (ordered : disk.tree.Ordered)
    (located : disk.locate root true = .ok ⟨location, .directory entries⟩)
    (isFile : disk.tree.at? place = some (.file content)) (binary : 0 ∈ content) :
    (∀ fault, discoverFiles disk config root = .error fault → ∀ isCancelled,
      analyzeWith parse (disk.without place) config isCancelled root =
        analyzeWith parse disk config isCancelled root) ∧
    ∀ files, discoverFiles disk config root = .ok files →
      ∃ files', discoverFiles (disk.without place) config root = .ok files' ∧
        LeavesOut (·.content = content) DiscoveredFile.SameSource files files' ∧
        (LeavesOut (fun d => d.content = content ∧ d.moduleName ∉ files'.map (·.moduleName))
            DiscoveredFile.SameSource files files' →
          files.filter DiscoveredFile.holdsText = files'.filter DiscoveredFile.holdsText) ∧
        (files.filter DiscoveredFile.holdsText = files'.filter DiscoveredFile.holdsText →
          ∀ isCancelled, analyzeWith parse (disk.without place) config isCancelled root =
            analyzeWith parse disk config isCancelled root) ∧
        (config.validate = .ok () →
          analyzeWith parse (disk.without place) config false root =
            analyzeWith parse disk config false root →
          files.filter DiscoveredFile.holdsText = files'.filter DiscoveredFile.holdsText) := by
  have located' := (Disk.locate_without_of_directory isFile located).2
  cases compiled : config.excluded with
  | error fault =>
      have failed : ∀ disk, discoverFiles disk config root = .error (.badConfig fault) := by
        intro disk
        rw [discoverFiles, compiled]
      constructor
      · intro _ _ isCancelled
        rw [analyzeWith_of_located located, analyzeWith_of_located located', failed, failed]
      · intro files found
        rw [failed] at found
        cases found
  | ok globs =>
      obtain ⟨selected, selected', found, found', leaves⟩ :=
        discover_without config globs ordered isFile located
      have discovered : discoverFiles disk config root = .ok (nameModules [] selected) := by
        simp only [discoverFiles, compiled, found]
      have discovered' : discoverFiles (disk.without place) config root =
          .ok (nameModules [] selected') := by
        simp only [discoverFiles, compiled, found']
      constructor
      · intro fault failed
        rw [discovered] at failed
        cases failed
      · intro files found
        rw [discovered] at found
        cases found
        have same : LeavesOut (·.content = content) DiscoveredFile.SameSource
            (nameModules [] selected) (nameModules [] selected') := nameModules_leavesOut leaves
        have texts : List.Forall₂ DiscoveredFile.SameSource
            ((nameModules [] selected).filter DiscoveredFile.holdsText)
            ((nameModules [] selected').filter DiscoveredFile.holdsText) := by
          apply same.forall₂_filter
          · intro d sameContent
            exact d.holdsText_of_binary binary sameContent
          · intro d d' sameSource
            exact sameSource.holdsText_eq
        refine ⟨_, discovered', same, texts_eq_of_untaken binary, ?_, ?_⟩
        · intro textsEq isCancelled
          exact analyzeWith_eq_of_texts_eq located located' discovered discovered' textsEq
        · intro valid alike
          exact texts_eq_of_analyzeWith_eq located located' discovered discovered' texts valid alike

end Run

/-! ### Two projects -/

/-- A project with a file that holds no text and an empty source file. -/
def projectOf (binary source : String) : Disk :=
  ((Disk.empty []).create ("/proj/" ++ binary) (.file [0])).create ("/proj/" ++ source) (.file [])

theorem projectOf_ordered (binary source : String) : (projectOf binary source).tree.Ordered := by
  apply Disk.create_ordered
  · apply Disk.create_ordered
    · exact Disk.empty_ordered []
    · exact .file [0]
  · exact .file []

/-- The entries of a directory that holds files only. -/
def filesOnly (files : List (String × List UInt8)) : List (String × Entry) :=
  files.map fun named => (named.1, .file named.2)

theorem filesAmong_filesOnly {skipped path : List String} {files : List (String × List UInt8)} :
    filesAmong skipped path (filesOnly files) =
      files.map fun named => ⟨path ++ [named.1], named.1, named.2⟩ := by
  rw [filesAmong_eq_flatMap]
  induction files with
  | nil => rfl
  | cons first more ih =>
      rw [filesOnly] at ih ⊢
      rw [List.map_cons, List.flatMap_cons, ih, List.map_cons]
      simp [Entry.isDirectory, filesIn]

/-- Two names of files in the order in which a directory lists them. -/
structure SideBySide (binary source : String) : Prop where
  binaryPath : pathNames ("/proj/" ++ binary) = ["proj", binary]
  sourcePath : pathNames ("/proj/" ++ source) = ["proj", source]
  down : ".." ≠ binary ∧ ".." ≠ source
  ordered : ¬ source < binary
  apart : source ≠ binary

section SideBySide

variable {binary source : String}

theorem projectOf_eq (plain : SideBySide binary source) :
    projectOf binary source =
      ⟨.directory [("proj", .directory (filesOnly [(binary, [0]), (source, [])]))], []⟩ := by
  have free : ((Disk.empty []).create ("/proj/" ++ binary) (.file [0])).tree.LinkFree :=
    (Disk.empty_linkFree []).put (.file [0]) _
  rw [projectOf, Disk.create_of_linkFree free (by simp [plain.sourcePath, plain.down]),
    Disk.create_of_linkFree (Disk.empty_linkFree []) (by simp [plain.binaryPath, plain.down]),
    plain.binaryPath, plain.sourcePath]
  simp [Disk.startOf, Disk.empty, Disk.put, isAbsolute, filesOnly, Entry.put, Entry.insertNamed,
    plain.ordered, plain.apart]

theorem locate_projectOf (plain : SideBySide binary source) :
    (projectOf binary source).locate "/proj" true =
      .ok ⟨["proj"], .directory (filesOnly [(binary, [0]), (source, [])])⟩ := by
  rw [projectOf_eq plain]
  exact Disk.locate_of_directory (by decide +kernel) (by decide +kernel) rfl

theorem locate_projectOf_without (plain : SideBySide binary source) :
    ((projectOf binary source).without ["proj", binary]).locate "/proj" true =
      .ok ⟨["proj"], .directory (filesOnly [(source, [])])⟩ := by
  have pruned : (projectOf binary source).without ["proj", binary] =
      ⟨.directory [("proj", .directory (filesOnly [(source, [])]))], []⟩ := by
    simp [projectOf_eq plain, Disk.without, Entry.without, Entry.withoutAmong, filesOnly,
      plain.apart]
  rw [pruned]
  exact Disk.locate_of_directory (by decide +kernel) (by decide +kernel) rfl

end SideBySide

/-- With the usual settings every file of a known extension is a source file. -/
theorem discoverFiles_filesOnly {disk : Disk} {root : String} {location : Location}
    {files : List (String × List UInt8)}
    (located : disk.locate root true = .ok ⟨location, .directory (filesOnly files)⟩) :
    discoverFiles disk .standard root =
      .ok (nameModules [] ((files.map fun named => ⟨[named.1], named.1, named.2⟩).filterMap
        (Selection.select? ⟨Language.all, []⟩))) := by
  have compiled : Config.standard.excluded = .ok [] := by rfl
  have found : filesIn Config.standard.skippedNames [] (lastName root)
      (.directory (filesOnly files)) =
        files.map fun named => ⟨[named.1], named.1, named.2⟩ := by
    rw [filesIn, filesAmong_filesOnly]
    rfl
  rw [← found]
  simp only [discoverFiles, compiled, discover, rootEntry_of_located located]
  rfl

/-- The file takes a name that no other file has. -/
theorem binary_file_takes_only_names_apart :
    (projectOf "lib.js" "util.ts").tree.at? ["proj", "lib.js"] = some (.file [0]) ∧
      ∀ parse, analyzeWith parse ((projectOf "lib.js" "util.ts").without ["proj", "lib.js"])
          .standard false "/proj" =
        analyzeWith parse (projectOf "lib.js" "util.ts") .standard false "/proj" := by
  have plain : SideBySide "lib.js" "util.ts" :=
    ⟨by decide +kernel, by decide +kernel, by decide, by decide, by decide⟩
  have isFile : (projectOf "lib.js" "util.ts").tree.at? ["proj", "lib.js"] = some (.file [0]) := by
    rw [projectOf_eq plain]
    rfl
  have located := locate_projectOf plain
  have located' := locate_projectOf_without plain
  have discovered : discoverFiles (projectOf "lib.js" "util.ts") .standard "/proj" =
      .ok [⟨"lib.js", "lib", .javascript, [0]⟩, ⟨"util.ts", "util", .typescript, []⟩] := by
    rw [discoverFiles_filesOnly located]
    decide +kernel
  have discovered' : discoverFiles ((projectOf "lib.js" "util.ts").without ["proj", "lib.js"])
      .standard "/proj" = .ok [⟨"util.ts", "util", .typescript, []⟩] := by
    rw [discoverFiles_filesOnly located']
    decide +kernel
  refine ⟨isFile, fun parse => ?_⟩
  obtain ⟨_, run⟩ := binary_file_takes_only_names parse
    (projectOf_ordered "lib.js" "util.ts") located isFile (by decide)
  obtain ⟨files', found, _, untaken, same, _⟩ := run _ discovered
  rw [discovered'] at found
  cases found
  refine same (untaken (.drop ?_ (.keep ⟨rfl, rfl, rfl⟩ .nil))) false
  decide

/-- The file takes the name that the other file would have. -/
theorem binary_file_renames_a_module :
    discoverFiles (projectOf "util.js" "util.ts") .standard "/proj" =
        .ok [⟨"util.js", "util", .javascript, [0]⟩, ⟨"util.ts", "util_ts", .typescript, []⟩] ∧
      discoverFiles ((projectOf "util.js" "util.ts").without ["proj", "util.js"]) .standard "/proj" =
        .ok [⟨"util.ts", "util", .typescript, []⟩] ∧
      ∀ parse, analyzeWith parse ((projectOf "util.js" "util.ts").without ["proj", "util.js"])
          .standard false "/proj" ≠
        analyzeWith parse (projectOf "util.js" "util.ts") .standard false "/proj" := by
  have plain : SideBySide "util.js" "util.ts" :=
    ⟨by decide +kernel, by decide +kernel, by decide, by decide, by decide⟩
  have located := locate_projectOf plain
  have located' := locate_projectOf_without plain
  have discovered : discoverFiles (projectOf "util.js" "util.ts") .standard "/proj" =
      .ok [⟨"util.js", "util", .javascript, [0]⟩, ⟨"util.ts", "util_ts", .typescript, []⟩] := by
    rw [discoverFiles_filesOnly located]
    decide +kernel
  have discovered' : discoverFiles ((projectOf "util.js" "util.ts").without ["proj", "util.js"])
      .standard "/proj" = .ok [⟨"util.ts", "util", .typescript, []⟩] := by
    rw [discoverFiles_filesOnly located']
    decide +kernel
  refine ⟨discovered, discovered', ?_⟩
  intro parse alike
  have valid : Config.standard.validate = .ok () := by decide +kernel
  have texts := texts_eq_of_analyzeWith_eq located located' discovered discovered'
    (.cons ⟨rfl, rfl, rfl⟩ .nil) valid alike
  revert texts
  decide

end CallAtlas
