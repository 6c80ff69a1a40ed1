/-
Module: CallAtlas.Proofs.PrunedTrees
Purpose: File trees from which one file is taken away.  Every other entry stays where it is, and a
  path leads to what it led to before, unless that is the file.  Following links goes down only so
  far, because it never enters a directory through a link twice on one way.
Main definitions: Entry.without, Disk.without, Located.without?, Entry.directories, Entry.unseen
Main results: Entry.at?_without, Entry.follow_without, Entry.need_lt,
  Disk.locate_without_of_directory
-/
import CallAtlas.Proofs.FileTree

namespace CallAtlas

namespace Entry

/-! ### Trees without a file -/

mutual

/-- The entry at a location of a tree, without what stands at a given place of the tree. -/
def without (place location : Location) : Entry → Entry
  | file content => file content
  | link target => link target
  | directory entries => directory (withoutAmong place location entries)

/-- The entries of a directory at a location, without what stands at a given place. -/
def withoutAmong (place location : Location) : List (String × Entry) → List (String × Entry)
  | [] => []
  | (name, e) :: more =>
    if location ++ [name] = place then withoutAmong place location more
    else (name, e.without place (location ++ [name])) :: withoutAmong place location more

end

variable {tree e : Entry} {place location way : Location} {name : String} {content : List UInt8}

theorem withoutAmong_eq_filterMap {entries : List (String × Entry)} :
    withoutAmong place location entries = entries.filterMap fun named =>
      if location ++ [named.1] = place then none
      else some (named.1, named.2.without place (location ++ [named.1])) := by
  induction entries with
  | nil => rfl
  | cons first more ih =>
      obtain ⟨n, child⟩ := first
      rw [withoutAmong, List.filterMap_cons, ih]
      dsimp only
      split
      · rfl
      · rfl

theorem mem_withoutAmong {entries : List (String × Entry)} (listed : (name, e) ∈ entries)
    (elsewhere : location ++ [name] ≠ place) :
    (name, e.without place (location ++ [name])) ∈ withoutAmong place location entries := by
  rw [withoutAmong_eq_filterMap, List.mem_filterMap]
  exact ⟨(name, e), listed, if_neg elsewhere⟩

@[simp] theorem isDirectory_without : (e.without place location).isDirectory = e.isDirectory := by
  cases e with
  | file _ => rw [without]
  | link _ => rw [without]
  | directory _ => rw [without]; rfl

theorem lookup_withoutAmong {entries : List (String × Entry)} :
    (withoutAmong place location entries).lookup name =
      if location ++ [name] = place then none
      else (entries.lookup name).map (·.without place (location ++ [name])) := by
  induction entries with
  | nil => simp [withoutAmong]
  | cons first more ih =>
      obtain ⟨n, child⟩ := first
      rw [withoutAmong, List.lookup_cons]
      by_cases same : name = n
      · subst same
        split
        · next here => rw [ih, if_pos here]
        · simp
      · have differ : (name == n) = false := beq_eq_false_iff_ne.2 same
        rw [differ]
        split
        · exact ih
        · rw [List.lookup_cons, differ]
          exact ih

theorem child?_without : (e.without place location).child? name =
    if location ++ [name] = place then none
    else (e.child? name).map (·.without place (location ++ [name])) := by
  cases e with
  | file _ => simp [without, child?]
  | link _ => simp [without, child?]
  | directory entries =>
      rw [without]
      exact lookup_withoutAmong

/-- Nothing stands at the place any more. -/
theorem at?_without_self (there : location ++ way = place) (below : way ≠ []) :
    (e.without place location).at? way = none := by
  induction way generalizing e location with
  | nil => exact absurd rfl below
  | cons name more ih =>
      rw [at?, child?_without]
      split
      · rfl
      · next deeper =>
          cases e.child? name with
          | none => rfl
          | some child =>
              apply ih
              · rw [List.append_assoc, ← there]
                rfl
              · rintro rfl
                exact deeper there

/-- What stands elsewhere is still there, if a file is taken away. -/
theorem at?_without_of_leaf
    (leaf : ∀ q, location ++ q = place → e.at? q = some (.file content))
    (elsewhere : location ++ way ≠ place) :
    (e.without place location).at? way = (e.at? way).map (·.without place (location ++ way)) := by
  induction way generalizing e location with
  | nil =>
      rw [List.append_nil]
      rfl
  | cons name more ih =>
      rw [at?, at?, child?_without]
      split
      · next here =>
          -- the file has nothing below it
          obtain ⟨child, isChild, isLeaf⟩ := at?_cons_iff.1 (leaf [name] here)
          obtain rfl := Option.some.inj isLeaf
          rw [isChild]
          cases more with
          | nil => exact absurd here elsewhere
          | cons next more => rfl
      · cases isChild : e.child? name with
        | none => rfl
        | some child =>
            rw [List.append_cons] at elsewhere
            have below : ∀ q, location ++ [name] ++ q = place →
                child.at? q = some (.file content) := by
              intro q there
              rw [← List.append_cons] at there
              have isLeaf := leaf _ there
              rw [at?, isChild] at isLeaf
              exact isLeaf
            rw [Option.map_some, Option.bind_some, ih below elsewhere, ← List.append_cons]
            rfl

theorem at?_without (isFile : tree.at? place = some (.file content)) (elsewhere : way ≠ place) :
    (tree.without place []).at? way = (tree.at? way).map (·.without place way) := by
  have leaf : ∀ q, [] ++ q = place → tree.at? q = some (.file content) := by
    rintro q rfl
    exact isFile
  exact at?_without_of_leaf leaf elsewhere

theorem at?_without_directory {entries : List (String × Entry)}
    (isFile : tree.at? place = some (.file content))
    (there : tree.at? location = some (.directory entries)) :
    location ≠ place ∧ (tree.without place []).at? location =
      some (.directory (withoutAmong place location entries)) := by
  have elsewhere : location ≠ place := by
    rintro rfl
    rw [isFile] at there
    cases there
  rw [at?_without isFile elsewhere, there, Option.map_some, without]
  exact ⟨elsewhere, rfl⟩

end Entry

theorem ok_of_toOption {ε α : Type} {result : Except ε α} {a : α}
    (found : result.toOption = some a) : result = .ok a := by
  cases result with
  | error _ => cases found
  | ok b => exact congrArg Except.ok (Option.some.inj found)

/-- What was found, in the tree without what stands at a place. -/
def Located.without? (place : Location) (found : Located) : Option Located :=
  if found.location = place then none
  else some ⟨found.location, found.entry.without place found.location⟩

namespace Entry

variable {tree : Entry} {place : Location} {content : List UInt8}

theorem at?_concat {location : Location} {name : String} :
    tree.at? (location ++ [name]) = (tree.at? location).bind (·.child? name) := by
  rw [at?_append]
  congr
  funext e
  rw [at?]
  cases e.child? name <;> rfl

/-- A part of a path that is a name leads into a directory. -/
theorem follow_named {followLast : Bool} {links : Nat} {location : Location} {current : Entry}
    {part : String} {rest : List String} (there : tree.at? location = some current)
    (isDir : ¬ (!current.isDirectory) = true)
    (named : ¬ (part.isEmpty || decide (part = ".")) = true) (up : part ≠ "..") :
    tree.follow followLast links location (part :: rest) =
      match current.child? part with
      | none => .error .notFound
      | some (.link target) =>
        if rest.isEmpty && !followLast then .ok ⟨location ++ [part], .link target⟩
        else
          match links with
          | 0 => .error .tooManyLinks
          | left + 1 =>
            tree.follow followLast left (if isAbsolute target then [] else location)
              (pathParts target ++ rest)
      | some _ => tree.follow followLast links (location ++ [part]) rest := by
  rw [follow, there]
  exact (if_neg isDir).trans ((if_neg named).trans (if_neg up))

section Without

variable {location : Location} {current : Entry} {part : String}

theorem at?_without_some (isFile : tree.at? place = some (.file content))
    (there : tree.at? location = some current) (elsewhere : location ≠ place) :
    (tree.without place []).at? location = some (current.without place location) := by
  rw [at?_without isFile elsewhere, there]
  rfl

theorem at?_without_of_isDirectory (isFile : tree.at? place = some (.file content))
    (there : tree.at? location = some current) (isDir : ¬ (!current.isDirectory) = true) :
    (tree.without place []).at? location = some (current.without place location) := by
  apply at?_without_some isFile there
  rintro rfl
  rw [isFile] at there
  obtain rfl := Option.some.inj there
  exact isDir rfl

/-- A link is not the file, and stays. -/
theorem child?_without_link {target : String} (isFile : tree.at? place = some (.file content))
    (there : tree.at? location = some current)
    (isChild : current.child? part = some (.link target)) :
    location ++ [part] ≠ place ∧
      (current.without place location).child? part = some (.link target) := by
  have other : location ++ [part] ≠ place := by
    rintro rfl
    rw [at?_concat, there, Option.bind_some, isChild] at isFile
    cases isFile
  rw [child?_without, if_neg other, isChild, Option.map_some, without]
  exact ⟨other, rfl⟩

/-- A path leads to what it led to before, or nowhere if it led to the file. -/
theorem follow_without (isFile : tree.at? place = some (.file content)) (below : place ≠ [])
    (followLast : Bool) (links : Nat) (location : Location) (parts : List String) :
    ((tree.without place []).follow followLast links location parts).toOption =
      (tree.follow followLast links location parts).toOption.bind (Located.without? place) := by
  have gone : (tree.without place []).at? place = none := at?_without_self rfl below
  -- the cases are the branches of `follow`; from the sixth on a name is looked up in a directory
  fun_induction tree.follow followLast links location parts with
  | case1 links location parts nowhere =>
      have other : location ≠ place := by
        rintro rfl
        rw [isFile] at nowhere
        cases nowhere
      rw [follow, at?_without isFile other, nowhere]
      rfl
  | case2 links location current there =>
      by_cases here : location = place
      · subst here
        rw [follow, gone]
        simp [Except.toOption, Located.without?]
      · rw [follow, at?_without_some isFile there here]
        simp [Except.toOption, Located.without?, here]
  | case3 links location current there part rest notDir =>
      by_cases here : location = place
      · subst here
        rw [follow, gone]
        rfl
      · rw [follow, at?_without_some isFile there here]
        simp only [isDirectory_without, notDir, if_true]
        rfl
  | case4 links location current there part rest isDir blank ih =>
      rw [follow, at?_without_of_isDirectory isFile there isDir]
      simp only [isDirectory_without, isDir, blank, if_true]
      exact ih
  | case5 links location current there rest isDir blank ih =>
      rw [follow, at?_without_of_isDirectory isFile there isDir]
      simp only [isDirectory_without, isDir, blank, if_true]
      exact ih
  | case6 links location current there part rest isDir named up missing =>
      have child : (current.without place location).child? part = none := by
        rw [child?_without, missing]
        split <;> rfl
      have there' := at?_without_of_isDirectory isFile there isDir
      rw [follow_named there' (by simpa using isDir) named up, child]
      rfl
  | case7 links location current there part rest isDir named up target isChild last =>
      obtain ⟨other, child⟩ := child?_without_link isFile there isChild
      have there' := at?_without_of_isDirectory isFile there isDir
      rw [follow_named there' (by simpa using isDir) named up, child]
      simp [last, Except.toOption, Located.without?, other, without]
  | case8 location current there part rest isDir named up target isChild last =>
      obtain ⟨_, child⟩ := child?_without_link isFile there isChild
      have there' := at?_without_of_isDirectory isFile there isDir
      rw [follow_named there' (by simpa using isDir) named up, child]
      simp [last, Except.toOption]
  | case9 location current there part rest isDir named up target isChild last left start ih =>
      obtain ⟨_, child⟩ := child?_without_link isFile there isChild
      have there' := at?_without_of_isDirectory isFile there isDir
      rw [follow_named there' (by simpa using isDir) named up, child]
      simp only [last]
      exact ih
  | case10 links location current there part rest isDir named up child notLink isChild ih =>
      have there' := at?_without_of_isDirectory isFile there isDir
      rw [follow_named there' (by simpa using isDir) named up, child?_without, isChild, ← ih]
      by_cases here : location ++ [part] = place
      · rw [if_pos here, here, follow, gone]
      · rw [if_neg here, Option.map_some]
        cases child with
        | link target => exact absurd rfl (notLink target)
        | file _ => rw [without]
        | directory _ => rw [without]

end Without

/-! ### How far links lead -/

/-- What stands for a link of a given name, by what it leads to. -/
def expandFound (tree : Entry) (fuel : Nat) (way : List Location) (name : String) :
    Option Located → Option (String × Entry)
  | some ⟨_, file content⟩ => some (name, file content)
  | some ⟨place, directory inner⟩ =>
    if way.contains place then none else some (name, directory (tree.expand fuel way place inner))
  | _ => none

/-- What stands for an entry of a directory when links are followed. -/
def expandNamed (tree : Entry) (fuel : Nat) (way : List Location) (location : Location)
    (named : String × Entry) : Option (String × Entry) :=
  match named.2 with
  | file content => some (named.1, file content)
  | directory inner =>
      some (named.1, directory (tree.expand fuel way (location ++ [named.1]) inner))
  | link target =>
    tree.expandFound fuel way named.1 (tree.follow true maxLinks
      (if isAbsolute target then [] else location) (pathParts target)).toOption

theorem expand_succ {fuel : Nat} {above : List Location} {location : Location}
    {entries : List (String × Entry)} :
    tree.expand (fuel + 1) above location entries =
      entries.filterMap (tree.expandNamed fuel (location :: above) location) := by
  rw [expand]
  apply List.filterMap_congr
  rintro ⟨name, e⟩ _
  cases e with
  | file _ => rfl
  | directory _ => rfl
  | link target =>
      rw [expandNamed]
      dsimp only
      cases tree.follow true maxLinks (if isAbsolute target then [] else location)
        (pathParts target) with
      | error _ => rfl
      | ok found =>
          obtain ⟨place, e⟩ := found
          cases e <;> rfl

mutual

/-- The locations of the directories in an entry, its own included. -/
def directories : Entry → List Location
  | file _ => []
  | link _ => []
  | directory entries => [] :: directoriesAmong entries

/-- The locations of the directories in the entries of a directory. -/
def directoriesAmong : List (String × Entry) → List Location
  | [] => []
  | (name, e) :: more => e.directories.map (name :: ·) ++ directoriesAmong more

end

theorem mem_directoriesAmong {named : String × Entry} {entries : List (String × Entry)}
    (listed : named ∈ entries) (there : place ∈ named.2.directories) :
    named.1 :: place ∈ directoriesAmong entries := by
  induction entries with
  | nil => cases listed
  | cons first more ih =>
      rw [directoriesAmong, List.mem_append]
      rcases List.mem_cons.1 listed with rfl | later
      · exact Or.inl (List.mem_map.2 ⟨place, there, rfl⟩)
      · exact Or.inr (ih later)

theorem mem_directories {e : Entry} {entries : List (String × Entry)}
    (there : e.at? place = some (.directory entries)) : place ∈ e.directories := by
  induction place generalizing e with
  | nil =>
      obtain rfl := Option.some.inj there
      rw [directories]
      exact List.mem_cons_self
  | cons name more ih =>
      obtain ⟨child, isChild, below⟩ := at?_cons_iff.1 there
      cases e with
      | file _ => cases isChild
      | link _ => cases isChild
      | directory entries =>
          rw [directories]
          exact List.mem_cons_of_mem _ (mem_directoriesAmong (mem_of_lookup isChild) (ih below))

mutual

theorem length_directories_le : (e : Entry) → e.directories.length ≤ e.count
  | file _ => by
      rw [directories]
      exact Nat.zero_le _
  | link _ => by
      rw [directories]
      exact Nat.zero_le _
  | directory entries => by
      rw [directories, count, List.length_cons, Nat.add_comm]
      exact Nat.add_le_add_left (length_directoriesAmong_le entries) 1

theorem length_directoriesAmong_le :
    (entries : List (String × Entry)) → (directoriesAmong entries).length ≤ countAll entries
  | [] => by
      rw [directoriesAmong]
      exact Nat.zero_le _
  | (name, e) :: more => by
      rw [directoriesAmong, countAll, List.length_append, List.length_map]
      exact Nat.add_le_add (length_directories_le e) (length_directoriesAmong_le more)

end

/-- The number of directories of a tree that are not on a way. -/
def unseen (tree : Entry) (way : List Location) : Nat :=
  (tree.directories.filter fun place => decide (place ∉ way)).length

/-- More than how often one can still go down or follow a link, at the entries of a directory. -/
def need (tree : Entry) (way : List Location) (entries : List (String × Entry)) : Nat :=
  tree.unseen way * (tree.count + 1) + countAll entries

theorem unseen_cons_le (way : List Location) : tree.unseen (place :: way) ≤ tree.unseen way := by
  apply List.Sublist.length_le
  apply List.monotone_filter_right
  intro other unlisted
  simp only [decide_eq_true_eq] at unlisted ⊢
  exact fun listed => unlisted (List.mem_cons_of_mem _ listed)

theorem unseen_cons_lt {way : List Location} {entries : List (String × Entry)}
    (there : tree.at? place = some (.directory entries)) (unlisted : place ∉ way) :
    tree.unseen (place :: way) < tree.unseen way := by
  have split : (tree.directories.filter fun other => decide (other ∉ place :: way)) =
      (tree.directories.filter fun other => decide (other ∉ way)).filter fun other =>
        decide (other ≠ place) := by
    rw [List.filter_filter]
    apply List.filter_congr
    intro other _
    simp
  rw [unseen, split, unseen, List.length_filter_lt_length_iff_exists]
  exact ⟨place, List.mem_filter.2 ⟨mem_directories there, by simpa using unlisted⟩, by simp⟩

/-- Going down into a directory. -/
theorem need_of_inner {way : List Location} {entries inner : List (String × Entry)} {name : String}
    (listed : (name, .directory inner) ∈ entries) :
    tree.need (place :: way) inner < tree.need way entries := by
  have smaller : countAll inner < countAll entries := by
    have member := count_le_countAll listed
    rw [count] at member
    omega
  exact Nat.add_lt_add_of_le_of_lt (Nat.mul_le_mul_right _ (unseen_cons_le way)) smaller

/-- Following a link to a directory that is not on the way. -/
theorem need_of_link {way : List Location} {entries inner : List (String × Entry)}
    (there : tree.at? place = some (.directory inner)) (unlisted : place ∉ way) :
    tree.need (place :: way) inner < tree.need way entries := by
  have seen := unseen_cons_lt there unlisted
  have bound : countAll inner < tree.count + 1 := by
    have member := count_at?_le there
    rw [count] at member
    omega
  calc
    tree.need (place :: way) inner
        < tree.unseen (place :: way) * (tree.count + 1) + (tree.count + 1) :=
          Nat.add_lt_add_left bound _
    _ = (tree.unseen (place :: way) + 1) * (tree.count + 1) := (Nat.succ_mul _ _).symm
    _ ≤ tree.unseen way * (tree.count + 1) := Nat.mul_le_mul_right _ seen
    _ ≤ tree.need way entries := Nat.le_add_right _ _

/-- The square of the number of entries is enough from every directory of a tree. -/
theorem need_lt {way : List Location} {entries : List (String × Entry)}
    (there : tree.at? place = some (.directory entries)) :
    tree.need way entries < (tree.count + 1) * (tree.count + 1) := by
  have few : tree.unseen way ≤ tree.count :=
    Nat.le_trans (List.length_filter_le _ _) (length_directories_le tree)
  have bound : countAll entries < tree.count + 1 := by
    have member := count_at?_le there
    rw [count] at member
    omega
  calc
    tree.need way entries < tree.unseen way * (tree.count + 1) + (tree.count + 1) :=
      Nat.add_lt_add_left bound _
    _ = (tree.unseen way + 1) * (tree.count + 1) := (Nat.succ_mul _ _).symm
    _ ≤ (tree.count + 1) * (tree.count + 1) := Nat.mul_le_mul_right _ (Nat.succ_le_succ few)

end Entry

/-! ### Disks -/

/-- The disk without what stands at a place. -/
def Disk.without (disk : Disk) (place : Location) : Disk :=
  { disk with tree := disk.tree.without place [] }

theorem Disk.locate_without {disk : Disk} {place : Location} {content : List UInt8}
    (isFile : disk.tree.at? place = some (.file content)) (below : place ≠ []) (path : String)
    (followLast : Bool) :
    ((disk.without place).locate path followLast).toOption =
      (disk.locate path followLast).toOption.bind (Located.without? place) := by
  rw [Disk.locate, Disk.locate]
  split
  · rfl
  · exact Entry.follow_without isFile below followLast maxLinks _ _

/-- A path to a directory still leads to it, without the file. -/
theorem Disk.locate_without_of_directory {disk : Disk} {place location : Location}
    {content : List UInt8} {entries : List (String × Entry)} {path : String}
    (isFile : disk.tree.at? place = some (.file content))
    (located : disk.locate path true = .ok ⟨location, .directory entries⟩) :
    place ≠ [] ∧ (disk.without place).locate path true =
      .ok ⟨location, .directory (Entry.withoutAmong place location entries)⟩ := by
  have there := Disk.at?_of_locate located
  have elsewhere := (Entry.at?_without_directory isFile there).1
  have below : place ≠ [] := by
    rintro rfl
    have top : disk.tree = .file content := Option.some.inj isFile
    rw [top] at there
    cases location with
    | nil => exact elsewhere rfl
    | cons name more => cases there
  refine ⟨below, ok_of_toOption ?_⟩
  rw [Disk.locate_without isFile below, located]
  simp [Except.toOption, Located.without?, elsewhere, Entry.without]

end CallAtlas
