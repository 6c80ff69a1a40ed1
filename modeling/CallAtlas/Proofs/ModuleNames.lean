/-
Module: CallAtlas.Proofs.ModuleNames
Purpose: How module names are chosen.  A name is the first of a sequence of candidates that is not
  taken, and there are more candidates than names taken.  So a new name is never a taken one, and it
  is the same when more names are taken, unless it is among these.
Main definitions: nameCandidate, SearchEnds
Main results: distinctName_not_mem, distinctName_of_sublist, nameModules_nodup,
  searchEnds_distinctName, module_names_are_free_candidates
-/
import Mathlib.Data.List.Nodup
import Mathlib.Data.List.Perm.Subperm
import CallAtlas.Project.Discovery

namespace CallAtlas

variable {taken more : List String} {base name path : String} {fuel fuel' number : Nat}

/-! ### Numbered names -/

theorem numberedName_inj {number' : Nat}
    (same : base ++ toString number = base ++ toString number') :
    number = number' := by
  have digits : Nat.toDigits 10 number = Nat.toDigits 10 number' := by
    simpa [Nat.toString_eq_repr] using congrArg String.toList same
  calc
    number = Nat.ofDigitChars 10 (Nat.toDigits 10 number) 0 := Nat.ofDigitChars_ten_toDigits.symm
    _ = Nat.ofDigitChars 10 (Nat.toDigits 10 number') 0 := by rw [digits]
    _ = number' := Nat.ofDigitChars_ten_toDigits

/-- If the search ends with a taken name, all candidates are taken. -/
theorem mem_of_freeName_mem (stuck : freeName taken base fuel number ∈ taken) :
    ∀ k ≤ fuel, base ++ toString (number + k) ∈ taken := by
  induction fuel generalizing number with
  | zero =>
      intro k bound
      obtain rfl := Nat.le_zero.1 bound
      exact stuck
  | succ fuel ih =>
      rw [freeName] at stuck
      split at stuck
      · next isTaken =>
          intro k bound
          cases k with
          | zero => exact List.contains_iff_mem.1 isTaken
          | succ k =>
              rw [Nat.add_succ, ← Nat.succ_add]
              exact ih stuck k (Nat.le_of_succ_le_succ bound)
      · next free => exact absurd (List.contains_iff_mem.2 stuck) free

/-- There are no more distinct candidates that are all taken than names that are taken. -/
theorem le_length_of_candidates_taken (candidate : Nat → String) {count : Nat}
    (distinct : ∀ {k k'}, candidate k = candidate k' → k = k')
    (all : ∀ k < count, candidate k ∈ taken) : count ≤ taken.length := by
  have nodup : ((List.range count).map candidate).Nodup :=
    List.Nodup.map (fun _ _ same => distinct same) List.nodup_range
  have contained : (List.range count).map candidate ⊆ taken := by
    intro name listed
    obtain ⟨k, inRange, rfl⟩ := List.mem_map.1 listed
    exact all k (List.mem_range.1 inRange)
  have length := (nodup.subperm contained).length_le
  rwa [List.length_map, List.length_range] at length

theorem freeName_not_mem : freeName taken base taken.length number ∉ taken := by
  intro stuck
  have all := mem_of_freeName_mem stuck
  -- one candidate more than there are names
  have length : taken.length + 1 ≤ taken.length := by
    apply le_length_of_candidates_taken fun k => base ++ toString (number + k)
    · intro k k' same
      exact Nat.add_left_cancel (numberedName_inj same)
    · intro k bound
      exact all k (Nat.le_of_lt_succ bound)
  exact Nat.not_succ_le_self _ length

/-- More names taken and more fuel do not matter, as long as the name found stays free. -/
theorem freeName_of_subset (contained : taken ⊆ more) (enough : fuel ≤ fuel')
    (free : freeName taken base fuel number ∉ more) :
    freeName more base fuel' number = freeName taken base fuel number := by
  induction fuel generalizing fuel' number with
  | zero =>
      rw [freeName] at free ⊢
      cases fuel' with
      | zero => rfl
      | succ fuel' => rw [freeName, if_neg (by simpa using free)]
  | succ fuel ih =>
      cases fuel' with
      | zero => cases enough
      | succ fuel' =>
          rw [freeName] at free ⊢
          rw [freeName]
          by_cases isTaken : taken.contains (base ++ toString number)
          · have isTaken' : more.contains (base ++ toString number) := by
              rw [List.contains_iff_mem] at isTaken ⊢
              exact contained isTaken
            rw [if_pos isTaken] at free ⊢
            rw [if_pos isTaken']
            exact ih (Nat.le_of_succ_le_succ enough) free
          · rw [if_neg isTaken] at free ⊢
            rw [if_neg (by simpa using free)]

/-! ### Names of modules -/

/-- The candidates in order: the name itself, with the ending of the file, with a number. -/
theorem distinctName_cases (taken : List String) (name path : String) :
    name ∉ taken ∧ distinctName taken name path = name ∨
      name ∈ taken ∧ name ++ "_" ++ pathEnding path ∉ taken ∧
        distinctName taken name path = name ++ "_" ++ pathEnding path ∨
      name ∈ taken ∧ name ++ "_" ++ pathEnding path ∈ taken ∧ distinctName taken name path =
        freeName taken (name ++ "_" ++ pathEnding path) taken.length 2 := by
  by_cases plain : name ∈ taken
  · by_cases longer : name ++ "_" ++ pathEnding path ∈ taken
    · exact Or.inr (Or.inr ⟨plain, longer, by simp [distinctName, plain, longer]⟩)
    · exact Or.inr (Or.inl ⟨plain, longer, by simp [distinctName, plain, longer]⟩)
  · exact Or.inl ⟨plain, by simp [distinctName, plain]⟩

theorem distinctName_not_mem : distinctName taken name path ∉ taken := by
  rcases distinctName_cases taken name path with ⟨free, same⟩ | ⟨_, free, same⟩ | ⟨_, _, same⟩
  · rw [same]
    exact free
  · rw [same]
    exact free
  · rw [same]
    exact freeName_not_mem

/-- A name that is not among the further names taken is chosen in spite of them. -/
theorem distinctName_of_sublist (fewer : taken.Sublist more)
    (free : distinctName taken name path ∉ more) :
    distinctName more name path = distinctName taken name path := by
  rcases distinctName_cases taken name path with
    ⟨_, same⟩ | ⟨plain, _, same⟩ | ⟨plain, longer, same⟩
  · rw [same] at free ⊢
    simp [distinctName, free]
  · rw [same] at free ⊢
    simp [distinctName, fewer.subset plain, free]
  · rw [same] at free ⊢
    rw [← freeName_of_subset fewer.subset fewer.length_le free]
    simp [distinctName, fewer.subset plain, fewer.subset longer]

/-- Names are given once: neither to two files nor one that was taken before. -/
theorem nameModules_nodup (taken : List String) (files : List SelectedFile) :
    ((nameModules taken files).map (·.moduleName)).Nodup ∧
      ∀ d ∈ nameModules taken files, d.moduleName ∉ taken := by
  induction files generalizing taken with
  | nil => exact ⟨.nil, by simp [nameModules]⟩
  | cons f more ih =>
      rw [nameModules]
      obtain ⟨distinct, fresh⟩ :=
        ih (distinctName taken (moduleName f.path f.language) f.path :: taken)
      constructor
      · rw [List.map_cons, List.nodup_cons]
        refine ⟨?_, distinct⟩
        intro again
        obtain ⟨d, listed, same⟩ := List.mem_map.1 again
        exact fresh d listed (same ▸ List.mem_cons_self)
      · intro d listed isTaken
        rcases List.mem_cons.1 listed with rfl | later
        · exact distinctName_not_mem isTaken
        · exact fresh d later (List.mem_cons_of_mem _ isTaken)

/-! ### The search without a bound -/

/-- The candidates for the name of a module, in the order in which they are tried: the plain name,
the name with the ending of the file, and that with a number from 2 on. -/
def nameCandidate (name path : String) : Nat → String
  | 0 => name
  | 1 => name ++ "_" ++ pathEnding path
  | k + 2 => name ++ "_" ++ pathEnding path ++ toString (k + 2)

/-- The first two candidates are shorter than all candidates behind them. -/
theorem nameCandidate_ne {k k' : Nat} (few : k < 2) (before : k < k') :
    nameCandidate name path k ≠ nameCandidate name path k' := by
  have bar : "_".length = 1 := rfl
  have digits : ∀ n : Nat, 0 < (toString n).length := by
    intro n
    rw [Nat.toString_eq_repr, ← String.length_toList, Nat.toList_repr]
    exact List.length_pos_iff.2 Nat.toDigits_ne_nil
  have shorter : (nameCandidate name path k).length < (nameCandidate name path k').length := by
    match k, k' with
    | 0, 1 =>
        simp only [nameCandidate, String.length_append]
        omega
    | 0, k' + 2 | 1, k' + 2 =>
        have positive := digits (k' + 2)
        simp only [nameCandidate, String.length_append]
        omega
  intro same
  rw [same] at shorter
  exact Nat.lt_irrefl _ shorter

theorem nameCandidate_inj {k k' : Nat}
    (same : nameCandidate name path k = nameCandidate name path k') : k = k' := by
  match k, k' with
  | 0, 0 | 1, 1 => rfl
  | 0, k' + 1 => exact absurd same (nameCandidate_ne (by decide) (Nat.succ_pos k'))
  | 1, k' + 2 => exact absurd same (nameCandidate_ne (by decide) (by omega))
  | k + 1, 0 => exact absurd same.symm (nameCandidate_ne (by decide) (Nat.succ_pos k))
  | k + 2, 1 => exact absurd same.symm (nameCandidate_ne (by decide) (by omega))
  | k + 2, k' + 2 => exact numberedName_inj same

/-- A search that tries candidates in order, as long as they are taken and without any bound: from
candidate `k` on it ends at candidate `last`. -/
inductive SearchEnds (isTaken : String → Prop) (candidate : Nat → String) : Nat → Nat → Prop where
  | free {k : Nat} (free : ¬ isTaken (candidate k)) : SearchEnds isTaken candidate k k
  | next {k last : Nat} (taken : isTaken (candidate k))
      (goesOn : SearchEnds isTaken candidate (k + 1) last) : SearchEnds isTaken candidate k last

namespace SearchEnds

variable {isTaken : String → Prop} {candidate : Nat → String} {k last : Nat}

theorem taken_before (ends : SearchEnds isTaken candidate k last) :
    ∀ j, k ≤ j → j < last → isTaken (candidate j) := by
  induction ends with
  | free _ =>
      intro j behind before
      exact absurd before (Nat.not_lt.2 behind)
  | next taken _ ih =>
      intro j behind before
      rcases Nat.eq_or_lt_of_le behind with rfl | later
      · exact taken
      · exact ih j later before

/-- A search among distinct candidates passes no more of them than names are taken. -/
theorem le_length (ends : SearchEnds (· ∈ taken) candidate 0 last)
    (distinct : ∀ {k k'}, candidate k = candidate k' → k = k') : last ≤ taken.length :=
  le_length_of_candidates_taken candidate distinct fun k before =>
    ends.taken_before k (Nat.zero_le k) before

end SearchEnds

/-- A name that is found among the numbered ones is where the search ends. -/
theorem searchEnds_freeName (number : Nat)
    (free : freeName taken (name ++ "_" ++ pathEnding path) fuel (number + 2) ∉ taken) :
    ∃ last, SearchEnds (· ∈ taken) (nameCandidate name path) (number + 2) last ∧
      freeName taken (name ++ "_" ++ pathEnding path) fuel (number + 2) =
        nameCandidate name path last := by
  induction fuel generalizing number with
  | zero => exact ⟨number + 2, .free free, rfl⟩
  | succ fuel ih =>
      rw [freeName] at free ⊢
      split at free
      · next isTaken =>
          obtain ⟨last, ends, same⟩ := ih (number + 1) free
          rw [if_pos isTaken]
          exact ⟨last, .next (List.contains_iff_mem.1 isTaken) ends, same⟩
      · next isFree =>
          rw [if_neg isFree]
          exact ⟨number + 2, .free free, rfl⟩

/-- The search ends, and the name that is chosen is the candidate at its end. -/
theorem searchEnds_distinctName (taken : List String) (name path : String) :
    ∃ last, SearchEnds (· ∈ taken) (nameCandidate name path) 0 last ∧
      distinctName taken name path = nameCandidate name path last := by
  rcases distinctName_cases taken name path with ⟨free, same⟩ | ⟨plain, free, same⟩ |
    ⟨plain, longer, same⟩
  · exact ⟨0, .free free, same⟩
  · exact ⟨1, .next plain (.free free), same⟩
  · obtain ⟨last, ends, found⟩ := searchEnds_freeName 0 freeName_not_mem
    exact ⟨last, .next plain (.next longer ends), same.trans found⟩

/-! ### The names of a sequence of files -/

/-- The candidates of a file. -/
def SelectedFile.candidate (f : SelectedFile) : Nat → String :=
  nameCandidate (moduleName f.path f.language) f.path

/-- The names of later files do not change those of earlier ones, and are chosen behind them. -/
theorem nameModules_append (taken : List String) (before after : List SelectedFile) :
    nameModules taken (before ++ after) =
      nameModules taken before ++
        nameModules (((nameModules taken before).map (·.moduleName)).reverse ++ taken) after := by
  induction before generalizing taken with
  | nil => rfl
  | cons f before ih =>
      rw [List.cons_append, nameModules, nameModules, ih]
      simp

theorem length_nameModules (taken : List String) (files : List SelectedFile) :
    (nameModules taken files).length = files.length := by
  induction files generalizing taken with
  | nil => rfl
  | cons f files ih => rw [nameModules, List.length_cons, ih, List.length_cons]

/-- Source files in any order get distinct module names.  The name of a file is where a search ends
that tries the candidates of the file in order, as long as an earlier file has the candidate.  It
ends after at most as many candidates as there are earlier files.  A file keeps its plain name if no
earlier file has that name. -/
theorem module_names_are_free_candidates (files : List SelectedFile) :
    ((nameModules [] files).map (·.moduleName)).Nodup ∧
    ∀ before f after, files = before ++ f :: after →
      ∃ last later,
        nameModules [] files =
          nameModules [] before ++ ⟨f.path, f.candidate last, f.language, f.content⟩ :: later ∧
        SearchEnds (· ∈ (nameModules [] before).map (·.moduleName)) f.candidate 0 last ∧
        last ≤ before.length ∧
        (moduleName f.path f.language ∉ (nameModules [] before).map (·.moduleName) →
          f.candidate last = moduleName f.path f.language) := by
  refine ⟨(nameModules_nodup [] files).1, ?_⟩
  rintro before f after rfl
  obtain ⟨last, ends, found⟩ :=
    searchEnds_distinctName (((nameModules [] before).map (·.moduleName)).reverse ++ [])
      (moduleName f.path f.language) f.path
  simp only [List.append_nil, List.mem_reverse] at ends
  refine ⟨last, nameModules (f.candidate last ::
    (((nameModules [] before).map (·.moduleName)).reverse ++ [])) after, ?_, ends, ?_, ?_⟩
  · rw [nameModules_append, nameModules, found]
    rfl
  · have bound := ends.le_length nameCandidate_inj
    rwa [List.length_map, length_nameModules] at bound
  · intro free
    -- the plain name is the first candidate, and nothing before the last one is free
    cases last with
    | zero => rfl
    | succ last => exact absurd (ends.taken_before 0 (Nat.le_refl 0) (Nat.succ_pos last)) free

/-- A file of a given path, with no content. -/
def emptyFile (path : String) : SelectedFile := ⟨path, .typescript, []⟩

theorem module_names_are_free_candidates_same :
    (nameModules [] (["a/b/c.ts", "a.b/c.ts", "a/b.c.ts", "a/b/c_ts.js"].map emptyFile)).map
      (·.moduleName) = ["a.b.c", "a.b.c_ts", "a.b.c_ts2", "a.b.c_ts_js"] ∧
    ∃ last ≤ 2,
      SearchEnds (· ∈ ["a.b.c", "a.b.c_ts"]) (emptyFile "a/b.c.ts").candidate 0 last := by
  refine ⟨by decide, ?_⟩
  obtain ⟨last, _, _, ends, bound, _⟩ :=
    (module_names_are_free_candidates _).2 (["a/b/c.ts", "a.b/c.ts"].map emptyFile)
      (emptyFile "a/b.c.ts") (["a/b/c_ts.js"].map emptyFile) rfl
  have earlier : (nameModules [] (["a/b/c.ts", "a.b/c.ts"].map emptyFile)).map (·.moduleName) =
      ["a.b.c", "a.b.c_ts"] := by
    decide
  rw [earlier] at ends
  exact ⟨last, bound, ends⟩

end CallAtlas
