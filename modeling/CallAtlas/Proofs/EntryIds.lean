/-
Module: CallAtlas.Proofs.EntryIds
Purpose: The entry points of a file have distinct ids.  The id of a function ends in a colon and the
  digits of a line, and a repeated id gets a hash and a number behind that.  Read from the end, the
  first character that is no digit shows whether an id was numbered, so the id that was given and
  its number can both be read back.  Languages that number nothing make at most one entry of a kind
  at a function.
Main definitions: EndsInDigits
Main results: numberedId_inj, nodup_numberFrom, Language.nodup_entriesOf, entry_ids_are_distinct
-/
import CallAtlas.Proofs.AtlasIds
import CallAtlas.Proofs.FileReferences

namespace CallAtlas

/-! ### Ids that end in digits -/

/-- An id ends in a mark and digits. -/
def EndsInDigits (mark : Char) (id : String) : Prop :=
  ∃ front digits, id.toList = front ++ mark :: digits ∧ ∀ c ∈ digits, c.isDigit = true

theorem endsInDigits_number (mark : Char) (front : String) (number : Nat) :
    EndsInDigits mark (front ++ String.singleton mark ++ toString number) := by
  refine ⟨front.toList, Nat.toDigits 10 number, by simp [Nat.toString_eq_repr], ?_⟩
  intro c listed
  exact Nat.isDigit_of_mem_toDigits (by decide) (by decide) listed

theorem endsInDigits_functionId (name : String) (line : Nat) :
    EndsInDigits ':' (functionId name line) :=
  endsInDigits_number ':' name line

/-- Only the end of an id matters. -/
theorem EndsInDigits.append_left {mark : Char} {id : String} (ends : EndsInDigits mark id)
    (front : String) : EndsInDigits mark (front ++ id) := by
  obtain ⟨before, digits, spelled, each⟩ := ends
  exact ⟨front.toList ++ before, digits, by simp [spelled], each⟩

/-- The mark is the last character that is no digit. -/
theorem EndsInDigits.mark_unique {mark mark' : Char} {id : String} (ends : EndsInDigits mark id)
    (ends' : EndsInDigits mark' id) (noDigit : mark.isDigit = false)
    (noDigit' : mark'.isDigit = false) : mark = mark' := by
  obtain ⟨front, digits, spelled, each⟩ := ends
  obtain ⟨front', digits', spelled', each'⟩ := ends'
  have backwards : digits.reverse ++ mark :: front.reverse =
      digits'.reverse ++ mark' :: front'.reverse := by
    simpa using congrArg List.reverse (spelled.symm.trans spelled')
  obtain ⟨_, same⟩ := append_cons_inj_of_all
    (fun c listed => each c (List.mem_reverse.1 listed))
    (fun c listed => each' c (List.mem_reverse.1 listed)) (by simp [noDigit]) (by simp [noDigit'])
    backwards
  exact (List.cons.inj same).1

/-! ### Numbered ids -/

/-- An id that ends in a line and the number of entries before it can both be read back. -/
theorem numberedId_inj {id id' : String} {earlier earlier' : Nat} (line : EndsInDigits ':' id)
    (line' : EndsInDigits ':' id') (same : numberedId id earlier = numberedId id' earlier') :
    id = id' ∧ earlier = earlier' := by
  have plain_ne : ∀ {id id' : String} {number : Nat}, EndsInDigits ':' id →
      id ≠ id' ++ "#" ++ toString number := by
    intro id id' number line equal
    have hash : EndsInDigits '#' id := equal ▸ endsInDigits_number '#' id' number
    exact absurd (line.mark_unique hash (by decide) (by decide)) (by decide)
  unfold numberedId at same
  split at same <;> split at same
  · next none none' => exact ⟨same, none.trans none'.symm⟩
  · exact absurd same (plain_ne line)
  · exact absurd same.symm (plain_ne line')
  · have spelled : "#".toList = [] ++ ['#'] := rfl
    obtain ⟨sameId, sameNumber⟩ := numbered_inj spelled (by decide) same
    exact ⟨sameId, Nat.succ_inj.1 sameNumber⟩

/-- A numbered entry has at least as many entries of its id before it as were seen at the start. -/
theorem exists_of_mem_numberFrom {seen : List String} {entries : List EntryPoint} {e : EntryPoint}
    (listed : e ∈ numberFrom seen entries) :
    ∃ given ∈ entries, ∃ earlier ≥ seen.count given.id, e.id = numberedId given.id earlier := by
  induction entries generalizing seen with
  | nil => cases listed
  | cons first more ih =>
      rw [numberFrom_cons] at listed
      rcases List.mem_cons.1 listed with rfl | behind
      · exact ⟨first, List.mem_cons_self, _, Nat.le_refl _, rfl⟩
      · obtain ⟨given, among, earlier, atLeast, numbered⟩ := ih behind
        refine ⟨given, List.mem_cons_of_mem first among, earlier, ?_, numbered⟩
        exact Nat.le_trans List.count_le_count_cons atLeast

/-- Numbering makes all ids distinct that end in a line. -/
theorem nodup_numberFrom {seen : List String} {entries : List EntryPoint}
    (lines : ∀ e ∈ entries, EndsInDigits ':' e.id) :
    ((numberFrom seen entries).map (·.id)).Nodup := by
  induction entries generalizing seen with
  | nil => exact List.nodup_nil
  | cons first more ih =>
      rw [numberFrom_cons, List.map_cons, List.nodup_cons]
      refine ⟨?_, ih fun e behind => lines e (List.mem_cons_of_mem first behind)⟩
      intro again
      obtain ⟨e, behind, same⟩ := List.mem_map.1 again
      obtain ⟨given, among, earlier, atLeast, numbered⟩ := exists_of_mem_numberFrom behind
      obtain ⟨sameId, sameNumber⟩ := numberedId_inj (lines given (List.mem_cons_of_mem first among))
        (lines first List.mem_cons_self) (numbered.symm.trans same)
      -- what follows the first entry has seen its id once more
      rw [sameId, List.count_cons_self] at atLeast
      omega

/-! ### Entries that are not numbered -/

theorem colon_not_mem_of_mem_entryKinds {kind : String} (known : kind ∈ entryKinds) :
    ':' ∉ kind.toList := by
  revert kind
  decide

/-- The kind of an entry and its function can be read back from its id. -/
theorem EntryPoint.MadeAt.id_inj {e e' : EntryPoint} {f f' : Function} (made : e.MadeAt f)
    (made' : e'.MadeAt f') (same : e.id = e'.id) : e.kind = e'.kind ∧ f.id = f'.id := by
  have spelled : ∀ kind id : String, (entryId kind id "").toList =
      "entry:".toList ++ (kind.toList ++ ':' :: id.toList) := by
    intro kind id
    simp [entryId]
  have sameText := congrArg String.toList same
  rw [made.id, made'.id, spelled, spelled] at sameText
  obtain ⟨sameKind, sameId⟩ := append_cons_inj_of_all (p := (· ≠ ':'))
    (fun c listed equal => colon_not_mem_of_mem_entryKinds made.kind (equal ▸ listed))
    (fun c listed equal => colon_not_mem_of_mem_entryKinds made'.kind (equal ▸ listed))
    (not_not_intro rfl) (not_not_intro rfl) (List.append_cancel_left sameText)
  exact ⟨String.toList_inj.1 sameKind, String.toList_inj.1 (List.tail_eq_of_cons_eq sameId)⟩

/-- A language that numbers nothing makes at most one entry of a kind at a function. -/
theorem Language.nodup_kinds {lang : Language} (unnumbered : lang.numbersEntries = false)
    (f : Function) : ((lang.entriesOf f).map (·.kind)).Nodup := by
  cases lang with
  | java | javascript | typescript | python => cases unnumbered
  | csharp =>
      have route : ∀ (d : String) (path : Option String),
          (Entry.notePath (Entry.routeOf f d) path).kind = "route" := by
        intro d path
        cases path <;> rfl
      simp only [Language.entriesOf, Entry.ofCSharp, Entry.mainIf]
      split <;> split <;> simp [route, EntryPoint.ofFunction]
  | go =>
      simp only [Language.entriesOf, Entry.ofGo]
      repeat' split
      all_goals simp
  | abap =>
      simp only [Language.entriesOf, Entry.ofAbap]
      repeat' split
      all_goals simp

theorem Language.nodup_entriesOf {lang : Language} (unnumbered : lang.numbersEntries = false)
    {functions : List Function} (distinct : (functions.map (·.id)).Nodup) :
    ((functions.flatMap lang.entriesOf).map (·.id)).Nodup := by
  rw [List.map_flatMap, List.nodup_flatMap]
  constructor
  · intro f _
    -- entries of different kinds have different ids
    refine List.pairwise_map.2 ((List.pairwise_map.1 (nodup_kinds unnumbered f)).imp_of_mem ?_)
    intro e e' entry entry' different same
    exact different ((entriesOf_madeAt entry).id_inj (entriesOf_madeAt entry') same).1
  · refine (List.pairwise_map.1 distinct).imp ?_
    intro f f' different
    refine List.disjoint_left.2 ?_
    intro id listed listed'
    obtain ⟨e, entry, same⟩ := List.mem_map.1 listed
    obtain ⟨e', entry', same'⟩ := List.mem_map.1 listed'
    exact different (((entriesOf_madeAt entry).id_inj (entriesOf_madeAt entry')
      (same.trans same'.symm)).2)

/-! ### All languages -/

/-- The entry points of a file have distinct ids, in every language and for any decorators, if the
ids of its functions are distinct and end in a colon and digits.  Each entry point has the id, the
file and the line of one of the functions. -/
theorem entry_ids_are_distinct (lang : Language) (functions : List Function)
    (distinct : (functions.map (·.id)).Nodup)
    (lines : ∀ f ∈ functions, EndsInDigits ':' f.id) :
    ((entryPoints lang functions).map (·.id)).Nodup ∧
    ∀ e ∈ entryPoints lang functions,
      ∃ f ∈ functions, e.functionId = f.id ∧ e.filePath = f.filePath ∧ e.line = f.line := by
  constructor
  · rw [entryPoints_eq]
    split
    · refine nodup_numberFrom ?_
      intro e listed
      obtain ⟨f, declared, entry⟩ := List.mem_flatMap.1 listed
      rw [(Language.entriesOf_madeAt entry).id, entryId, String.append_empty]
      exact (lines f declared).append_left _
    · next numbers => exact Language.nodup_entriesOf (eq_false_of_ne_true numbers) distinct
  · intro e listed
    obtain ⟨f, declared, placed⟩ := entryPoints_isAt listed
    exact ⟨f, declared, placed.functionId, placed.filePath, placed.line⟩

/-- A method with two routes and a method behind it, whose name ends in what the second route gets
behind its id. -/
def stackedRoutes : List Function :=
  let method (name : String) (line : Nat) (decorators : List String) : Function :=
    { (default : Function) with
      id := functionId name line, kind := .staticMethod, name := name, filePath := "A.java"
      line := line, decorators := decorators }
  [ method "main" 3 ["GetMapping(\"/a\")", "Scheduled", "PostMapping(\"/a\")"],
    method "main:3#2" 3 ["GetMapping"] ]

theorem entry_ids_are_distinct_stacked :
    (entryPoints .java stackedRoutes).map (·.id) =
      [ "entry:main_function:main:3", "entry:route:main:3", "entry:scheduled:main:3",
        "entry:route:main:3#2", "entry:route:main:3#2:3" ] ∧
    ((entryPoints .java stackedRoutes).map (·.id)).Nodup := by
  refine ⟨by decide, (entry_ids_are_distinct .java stackedRoutes (by decide) ?_).1⟩
  intro f listed
  rcases List.mem_cons.1 listed with rfl | listed
  · exact endsInDigits_functionId _ _
  · rw [List.mem_singleton.1 listed]
    exact endsInDigits_functionId _ _

end CallAtlas
