/-
Module: CallAtlas.Proofs.DiscoveredFiles
Purpose: The files that discovery returns are the source files of the project: each of them once,
  and in the order of a depth-first walk.
Main definitions: Location.Before, SourceAt
Main results: mem_filesIn, filesIn_pairwise, discovered_files_are_the_sources
-/
import Mathlib.Data.List.Forall2
import Mathlib.Data.List.Lex
import Mathlib.Data.List.TakeWhile
import CallAtlas.Project.Analysis
import CallAtlas.Proofs.FileTree

namespace CallAtlas

/-- One place before another in a depth-first walk: where the two ways part, its name comes first. -/
def Location.Before : Location → Location → Prop := List.Lex NameBefore

theorem Location.Before.irrefl (place : Location) : ¬ Location.Before place place := by
  induction place with
  | nil => exact List.not_lex_nil
  | cons name more ih =>
      intro before
      cases before with
      | rel before => exact NameBefore.irrefl name before
      | cons before => exact ih before

/-! ### The walk -/

section Walk

variable {skipped : List String} {path : List String} {name : String} {e : Entry}

theorem filesAmong_eq_flatMap {entries : List (String × Entry)} :
    filesAmong skipped path entries = entries.flatMap fun named =>
      if named.2.isDirectory && skipped.contains named.1 then []
      else filesIn skipped (path ++ [named.1]) named.1 named.2 := by
  induction entries with
  | nil => rfl
  | cons first more ih =>
      obtain ⟨n, child⟩ := first
      rw [filesAmong, ih, List.flatMap_cons]

/-- What makes the walk enter an entry of a directory, seen from a file below it. -/
theorem skips_none_cons {child : Entry} {place : Location} {content : List UInt8}
    (there : child.at? place = some (.file content)) :
    (∀ n ∈ (name :: place).dropLast, n ∉ skipped) ↔
      ¬ (child.isDirectory && skipped.contains name) ∧ ∀ n ∈ place.dropLast, n ∉ skipped := by
  cases place with
  | nil =>
      obtain rfl := Option.some.inj there
      simp [Entry.isDirectory]
  | cons next more => simp [Entry.isDirectory_of_at? there]

/-- The walk finds the files at the places that it reaches without entering a skipped directory. -/
theorem mem_filesIn (ordered : e.Ordered) {f : FoundFile} :
    f ∈ filesIn skipped path name e ↔
      ∃ place, e.at? place = some (.file f.content) ∧ (∀ n ∈ place.dropLast, n ∉ skipped) ∧
        f.path = path ++ place ∧ f.name = place.getLastD name := by
  induction ordered generalizing path name with
  | file content =>
      obtain ⟨fPath, fName, fContent⟩ := f
      constructor
      · intro found
        obtain ⟨rfl, rfl, rfl⟩ : fPath = path ∧ fName = name ∧ fContent = content := by
          simpa [filesIn] using found
        exact ⟨[], rfl, by simp, by simp, rfl⟩
      · rintro ⟨place, there, _, rfl, rfl⟩
        cases place with
        | nil =>
            cases there
            simp [filesIn]
        | cons next more => cases there
  | link target =>
      constructor
      · intro found
        simp [filesIn] at found
      · rintro ⟨place, there, _⟩
        cases place with
        | nil => cases there
        | cons next more => cases there
  | directory sorted inner ih =>
      rw [filesIn, filesAmong_eq_flatMap, List.mem_flatMap]
      constructor
      · rintro ⟨⟨n, child⟩, listed, found⟩
        split at found
        · cases found
        next entered =>
          obtain ⟨place, there, unskipped, onWay, named⟩ := (ih _ listed).1 found
          refine ⟨n :: place, ?_, ?_, ?_, ?_⟩
          · rw [Entry.at?, Entry.child?_directory, Entry.lookup_of_mem sorted listed]
            exact there
          · exact (skips_none_cons there).2 ⟨entered, unskipped⟩
          · rw [onWay, List.append_assoc]
            rfl
          · rw [named, List.getLastD_cons]
      · rintro ⟨place, there, unskipped, onWay, named⟩
        cases place with
        | nil => cases there
        | cons n more =>
            obtain ⟨child, isChild, below⟩ := Entry.at?_cons_iff.1 there
            have listed := Entry.mem_of_lookup isChild
            obtain ⟨entered, unskipped⟩ := (skips_none_cons below).1 unskipped
            refine ⟨(n, child), listed, ?_⟩
            rw [if_neg entered]
            refine (ih _ listed).2 ⟨more, below, unskipped, ?_, ?_⟩
            · rw [onWay, List.append_assoc]
              rfl
            · rw [named, List.getLastD_cons]

theorem filesIn_pairwise (ordered : e.Ordered) :
    (filesIn skipped path name e).Pairwise fun f g => Location.Before f.path g.path := by
  induction ordered generalizing path name with
  | file content => exact List.pairwise_singleton _ _
  | link target => exact List.Pairwise.nil
  | directory sorted inner ih =>
      rw [filesIn, filesAmong_eq_flatMap, List.pairwise_flatMap]
      constructor
      · intro named listed
        split
        · exact List.Pairwise.nil
        · exact ih named listed
      · -- files below two entries part at the names of these
        refine sorted.imp_of_mem ?_
        intro first second firstListed secondListed before f inFirst g inSecond
        split at inFirst
        · cases inFirst
        split at inSecond
        · cases inSecond
        obtain ⟨fPlace, _, _, fPath, _⟩ := (mem_filesIn (inner _ firstListed)).1 inFirst
        obtain ⟨gPlace, _, _, gPath, _⟩ := (mem_filesIn (inner _ secondListed)).1 inSecond
        rw [fPath, gPath, List.append_assoc, List.append_assoc]
        exact List.Lex.append_left _ (.rel before) path

end Walk

/-! ### Source files -/

/-- An extension is what follows the last dot of a name, if the name does not start with it. -/
theorem extensionOf?_eq_some_iff {name extension : String} :
    extensionOf? name = some extension ↔
      ∃ stem, stem ≠ "" ∧ name = stem ++ "." ++ extension ∧ '.' ∉ extension.toList := by
  constructor
  · intro extended
    simp only [extensionOf?] at extended
    split at extended
    next short =>
      have parts := List.takeWhile_append_dropWhile (p := (· != '.')) (l := name.toList.reverse)
      have stopped := List.head?_dropWhile_not (· != '.') name.toList.reverse
      have plain : '.' ∉ name.toList.reverse.takeWhile (· != '.') := by
        intro listed
        simpa using List.mem_takeWhile_imp listed
      generalize name.toList.reverse.takeWhile (· != '.') = ending at parts short extended plain
      obtain rfl := Option.some.inj extended
      match rest : name.toList.reverse.dropWhile (· != '.') with
      | [] =>
          exfalso
          have whole := congrArg List.length parts
          simp [rest] at whole
          omega
      | c :: stem =>
          have dot : c = '.' := by simpa [rest] using stopped
          subst dot
          refine ⟨String.ofList stem.reverse, ?_, ?_, ?_⟩
          · intro empty
            have whole := congrArg List.length parts
            have none : stem = [] := by simpa using empty
            simp [rest, none] at whole
            omega
          · rw [rest, ← List.reverse_eq_iff] at parts
            apply String.toList_inj.1
            simp [← parts]
          · simpa using plain
    · cases extended
  · rintro ⟨stem, named, rfl, plain⟩
    have ending : (stem ++ "." ++ extension).toList.reverse.takeWhile (· != '.') =
        extension.toList.reverse := by
      have noDot : ∀ c ∈ extension.toList.reverse, (c != '.') = true := by
        intro c listed
        rw [bne_iff_ne]
        rintro rfl
        exact plain (List.mem_reverse.1 listed)
      simp only [String.toList_append, List.reverse_append, List.takeWhile_append_of_pos noDot]
      simp
    have short : extension.toList.reverse.length + 1 < (stem ++ "." ++ extension).toList.length := by
      have some : stem.toList.length ≠ 0 := by simpa using named
      simp
      omega
    simp only [extensionOf?, ending]
    rw [if_pos short, List.reverse_reverse, String.ofList_toList]

/-- A source file of a project: a file in no directory of a skipped name, with an extension of an
enabled language and a path that no glob excludes. -/
structure SourceAt (config : Config) (globs : List Glob) (top : Entry) (place : Location)
    (lang : Language) (content : List UInt8) : Prop where
  isFile : top.at? place = some (.file content)
  unskipped : ∀ name ∈ place.dropLast,
    name ∉ config.skipDirs.getD Config.usualSkipDirs ++ config.extraSkipDirs
  extended : ∃ stem extension, place.getLast? = some (stem ++ "." ++ extension) ∧ stem ≠ "" ∧
    '.' ∉ extension.toList ∧ Language.ofExtension? extension = some lang
  enabled : lang ∈ config.enabledLanguages
  admitted : ∀ glob ∈ globs, glob.isMatch ("/".intercalate place) = false

theorem Config.mem_skippedNames {config : Config} {name : String} :
    name ∈ config.skippedNames ↔
      name ∈ config.skipDirs.getD Config.usualSkipDirs ++ config.extraSkipDirs := by
  rw [Config.skippedNames, List.mem_mergeSort, List.mem_eraseDups]

theorem Selection.select?_eq_some_iff {s : Selection} {f : FoundFile} {g : SelectedFile} :
    s.select? f = some g ↔
      (∃ extension, extensionOf? f.name = some extension ∧
        Language.ofExtension? extension = some g.language) ∧
      g.language ∈ s.languages ∧ (∀ glob ∈ s.excluded, glob.isMatch g.path = false) ∧
      g.path = "/".intercalate f.path ∧ g.content = f.content := by
  obtain ⟨path, lang, content⟩ := g
  have admits : ∀ lang path, (s.languages.contains lang && !anyMatch s.excluded path) = true ↔
      lang ∈ s.languages ∧ ∀ glob ∈ s.excluded, glob.isMatch path = false := by
    simp [anyMatch]
  simp only [select?, Option.bind_eq_bind, Option.bind_eq_some_iff]
  constructor
  · rintro ⟨lang, ⟨extension, isExtension, isLanguage⟩, chosen⟩
    split at chosen
    next admitted =>
      cases chosen
      obtain ⟨enabled, free⟩ := (admits _ _).1 admitted
      exact ⟨⟨extension, isExtension, isLanguage⟩, enabled, free, rfl, rfl⟩
    · cases chosen
  · rintro ⟨⟨extension, isExtension, isLanguage⟩, enabled, free, rfl, rfl⟩
    refine ⟨lang, ⟨extension, isExtension, isLanguage⟩, ?_⟩
    rw [if_pos ((admits _ _).2 ⟨enabled, free⟩)]

/-- Naming modules keeps the selected files: one source file for each of them, in order. -/
theorem nameModules_filterMap (s : Selection) (taken : List String) (found : List FoundFile) :
    List.Forall₂ (fun f d => s.select? f = some ⟨d.path, d.language, d.content⟩)
      (found.filter fun f => (s.select? f).isSome)
      (nameModules taken (found.filterMap s.select?)) := by
  induction found generalizing taken with
  | nil => exact .nil
  | cons f more ih =>
      cases selected : s.select? f with
      | none => simpa [selected] using ih taken
      | some g =>
          simp only [selected, List.filter_cons_of_pos, Option.isSome_some,
            List.filterMap_cons_some selected, nameModules]
          exact .cons selected (ih _)

section Project

variable {config : Config} {globs : List Glob} {entries : List (String × Entry)} {name : String}

/-- A file that the walk of a directory finds has a name of its own, the last one of its place. -/
theorem mem_filesIn_directory {skipped : List String} (ordered : (Entry.directory entries).Ordered)
    {f : FoundFile} :
    f ∈ filesIn skipped [] name (.directory entries) ↔
      (Entry.directory entries).at? f.path = some (.file f.content) ∧
        (∀ n ∈ f.path.dropLast, n ∉ skipped) ∧ f.path.getLast? = some f.name := by
  have last : ∀ {place : Location} {content : List UInt8},
      (Entry.directory entries).at? place = some (.file content) →
      ∀ own, place.getLast? = some own ↔ own = place.getLastD name := by
    intro place content there own
    cases place with
    | nil => cases there
    | cons next more =>
        rw [List.getLast?_cons, List.getLastD_cons, List.getLastD_eq_getLast?]
        exact ⟨fun same => (Option.some.inj same).symm, fun same => same ▸ rfl⟩
  rw [mem_filesIn ordered]
  constructor
  · rintro ⟨place, there, unskipped, onWay, named⟩
    rw [List.nil_append] at onWay
    subst onWay
    exact ⟨there, unskipped, (last there _).2 named⟩
  · rintro ⟨there, unskipped, named⟩
    exact ⟨f.path, there, unskipped, rfl, (last there _).1 named⟩

/-- Among the files that the walk finds, those selected are the source files. -/
theorem select?_iff_sourceAt (ordered : (Entry.directory entries).Ordered) {f : FoundFile}
    (found : f ∈ filesIn config.skippedNames [] name (.directory entries)) {lang : Language}
    {path : String} {content : List UInt8} :
    Selection.select? ⟨config.enabledLanguages, globs⟩ f = some ⟨path, lang, content⟩ ↔
      path = "/".intercalate f.path ∧
        SourceAt config globs (.directory entries) f.path lang content := by
  obtain ⟨there, unskipped, named⟩ := (mem_filesIn_directory ordered).1 found
  simp only [Selection.select?_eq_some_iff, extensionOf?_eq_some_iff]
  constructor
  · rintro ⟨⟨extension, ⟨stem, begun, nameEq, dotFree⟩, isLanguage⟩, enabled, admitted, rfl, rfl⟩
    refine ⟨rfl, there, ?_, ⟨stem, extension, ?_, begun, dotFree, isLanguage⟩, enabled, admitted⟩
    · intro n onWay
      rw [← Config.mem_skippedNames]
      exact unskipped n onWay
    · rw [named, nameEq]
  · rintro ⟨rfl, source⟩
    obtain ⟨stem, extension, nameEq, begun, dotFree, isLanguage⟩ := source.extended
    have sameName : f.name = stem ++ "." ++ extension := Option.some.inj (named.symm.trans nameEq)
    have sameContent : content = f.content := by
      have both := source.isFile.symm.trans there
      cases both
      rfl
    exact ⟨⟨extension, ⟨stem, begun, sameName, dotFree⟩, isLanguage⟩, source.enabled,
      source.admitted, rfl, sameContent⟩

theorem SourceAt.exists_found {place : Location} {lang : Language} {content : List UInt8}
    (source : SourceAt config globs (.directory entries) place lang content)
    (ordered : (Entry.directory entries).Ordered) (name : String) :
    ∃ f ∈ filesIn config.skippedNames [] name (.directory entries), f.path = place := by
  obtain ⟨stem, extension, named, _⟩ := source.extended
  refine ⟨⟨place, stem ++ "." ++ extension, content⟩, ?_, rfl⟩
  refine (mem_filesIn_directory ordered).2 ⟨source.isFile, ?_, named⟩
  intro n onWay
  rw [Config.mem_skippedNames]
  exact source.unskipped n onWay

end Project

/-- Discovery in a directory without followed links returns the source files below it and nothing
else, each of them once, in depth-first order with the entries of each directory by name. -/
theorem discovered_files_are_the_sources {disk : Disk} {config : Config} {globs : List Glob}
    {root : String} {location : Location} {entries : List (String × Entry)}
    (ordered : disk.tree.Ordered) (compiled : config.excluded = .ok globs)
    (located : disk.locate root true = .ok ⟨location, .directory entries⟩)
    (plain : config.followLinks = false ∨ (Entry.directory entries).LinkFree) :
    ∃ files places, discoverFiles disk config root = .ok files ∧
      places.Nodup ∧ places.Pairwise Location.Before ∧
      (∀ place, place ∈ places ↔
        ∃ lang content, SourceAt config globs (.directory entries) place lang content) ∧
      List.Forall₂ (fun place file => file.path = "/".intercalate place ∧
        SourceAt config globs (.directory entries) place file.language file.content)
        places files := by
  have started := rootEntry_of_locate located plain
  have ordered : (Entry.directory entries).Ordered := ordered.at? (Disk.at?_of_locate located)
  let selection : Selection := ⟨config.enabledLanguages, globs⟩
  let found := filesIn config.skippedNames [] (lastName root) (.directory entries)
  let kept := found.filter fun f => (selection.select? f).isSome
  have walked : found.Pairwise fun f g => Location.Before f.path g.path := filesIn_pairwise ordered
  have inOrder : (kept.map (·.path)).Pairwise Location.Before :=
    List.pairwise_map.2 (walked.filter _)
  refine ⟨nameModules [] (found.filterMap selection.select?), kept.map (·.path), ?_, ?_, inOrder,
    ?_, ?_⟩
  · simp only [discoverFiles, compiled, discover, started]
    rfl
  · apply inOrder.imp
    rintro place _ before rfl
    exact Location.Before.irrefl place before
  · intro place
    rw [List.mem_map]
    constructor
    · rintro ⟨f, isKept, rfl⟩
      obtain ⟨isFound, selected⟩ := List.mem_filter.1 isKept
      obtain ⟨g, selected⟩ := Option.isSome_iff_exists.1 selected
      exact ⟨g.language, g.content, ((select?_iff_sourceAt ordered isFound).1 selected).2⟩
    · rintro ⟨lang, content, source⟩
      obtain ⟨f, isFound, rfl⟩ := source.exists_found ordered (lastName root)
      have selected := (select?_iff_sourceAt ordered isFound).2 ⟨rfl, source⟩
      exact ⟨f, List.mem_filter.2 ⟨isFound, Option.isSome_iff_exists.2 ⟨_, selected⟩⟩, rfl⟩
  · rw [List.forall₂_map_left_iff]
    have paired := (List.forall₂_and_left kept _).2
      ⟨fun f isKept => (List.mem_filter.1 isKept).1, nameModules_filterMap selection [] found⟩
    refine paired.imp ?_
    rintro f d ⟨isFound, selected⟩
    exact (select?_iff_sourceAt ordered isFound).1 selected

/-- A project with two source files, one file in a skipped directory, one that a glob excludes and
one of no language. -/
def sampleProject : Disk :=
  ["/proj/b/z.py", "/proj/a.go", "/proj/README", "/proj/lib/x.js", "/proj/b/t.go"].foldl
    (fun disk path => disk.create path (.file [])) (Disk.empty [])

/-- Settings that skip `lib` and exclude one path. -/
def sampleConfig : Config :=
  { Config.standard with skipDirs := some ["lib"], excludedPaths := ["b/t.go"] }

theorem discovered_files_are_the_sources_sample :
    ∃ files places, discoverFiles sampleProject sampleConfig "/proj" = .ok files ∧
      ["b", "z.py"] ∈ places ∧ ["lib", "x.js"] ∉ places ∧ ["b", "t.go"] ∉ places ∧
      places.Nodup ∧ places.Pairwise Location.Before ∧
      List.Forall₂ (fun place file => file.path = "/".intercalate place) places files := by
  have ordered : sampleProject.tree.Ordered := by
    unfold sampleProject
    simp only [List.foldl_cons, List.foldl_nil]
    repeat refine Disk.create_ordered ?_ (.file []) _
    exact Disk.empty_ordered []
  have located : sampleProject.locate "/proj" true = .ok ⟨["proj"],
      .directory [("README", .file []), ("a.go", .file []),
        ("b", .directory [("t.go", .file []), ("z.py", .file [])]),
        ("lib", .directory [("x.js", .file [])])]⟩ := by
    refine Disk.locate_of_directory (by decide +kernel) (by decide +kernel) ?_
    rw [sampleProject, Disk.foldl_create_of_linkFree (Disk.empty_linkFree []) (.file [])
      (by decide +kernel)]
    rfl
  have compiled : sampleConfig.excluded = .ok [⟨"b/t.go".toList.map .literal⟩] := by rfl
  obtain ⟨files, places, found, once, inOrder, sources, paired⟩ :=
    discovered_files_are_the_sources ordered compiled located (Or.inl rfl)
  refine ⟨files, places, found, ?_, ?_, ?_, once, inOrder, paired.imp fun _ _ both => both.1⟩
  · refine (sources _).2 ⟨.python, [], rfl, by decide, ⟨"z", "py", rfl, ?_, ?_, ?_⟩, ?_, ?_⟩
    · decide
    · decide
    · decide +kernel
    · decide
    · intro glob listed
      rw [List.mem_singleton.1 listed]
      decide +kernel
  · intro listed
    obtain ⟨lang, content, source⟩ := (sources _).1 listed
    exact source.unskipped "lib" (by decide) (by decide)
  · intro listed
    obtain ⟨lang, content, source⟩ := (sources _).1 listed
    have free := source.admitted _ (List.mem_singleton.2 rfl)
    have matched : Glob.isMatch ⟨"b/t.go".toList.map .literal⟩ ("/".intercalate ["b", "t.go"]) =
        true := by
      decide +kernel
    rw [matched] at free
    cases free

end CallAtlas
