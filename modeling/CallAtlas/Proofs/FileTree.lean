/-
Module: CallAtlas.Proofs.FileTree
Purpose: File trees whose directories list their entries in the order of their names.  Such a tree
  has one entry for each name of a directory, every disk that is filled entry by entry is one, and a
  directory without links is the same whether links are followed or not.  Where there are no links,
  a path leads to the place that its names say.
Main definitions: NameBefore, Entry.Ordered, Entry.LinkFree, Entry.namesIn
Main results: Entry.lookup_of_mem, Disk.create_ordered, Disk.create_of_linkFree,
  Disk.locate_of_directory, Entry.followLinks_of_linkFree, rootEntry_of_located
-/
import Mathlib.Data.List.Basic
import CallAtlas.Project.Discovery
import CallAtlas.Proofs.ByteOrder

namespace CallAtlas

/-! ### Names in order -/

/-- One file name before another in the order of their bytes. -/
def NameBefore (a b : String) : Prop := Utf8.encode a.toList < Utf8.encode b.toList

theorem nameBefore_iff_lt {a b : String} : NameBefore a b ↔ a < b :=
  Utf8.encode_lt_encode_iff.trans String.lt_iff.symm

theorem NameBefore.trans {a b c : String} (first : NameBefore a b) (second : NameBefore b c) :
    NameBefore a c := List.lt_trans first second

theorem NameBefore.irrefl (a : String) : ¬ NameBefore a a := List.lt_irrefl _

theorem nameBefore_of_not_lt {a b : String} (notLess : ¬ a < b) (differ : a ≠ b) :
    NameBefore b a := by
  rw [nameBefore_iff_lt, String.lt_iff]
  rcases List.le_iff_lt_or_eq.1 (List.not_lt.1 fun less => notLess (String.lt_iff.2 less)) with
    less | same
  · exact less
  · exact absurd (String.toList_inj.1 same).symm differ

namespace Entry

/-- Each directory of a tree lists its entries by name. -/
inductive Ordered : Entry → Prop where
  | file (content : List UInt8) : Ordered (.file content)
  | link (target : String) : Ordered (.link target)
  | directory {entries : List (String × Entry)}
      (sorted : entries.Pairwise fun a b => NameBefore a.1 b.1)
      (inner : ∀ named ∈ entries, Ordered named.2) : Ordered (.directory entries)

/-- No entry of a tree is a link. -/
inductive LinkFree : Entry → Prop where
  | file (content : List UInt8) : LinkFree (.file content)
  | directory {entries : List (String × Entry)} (inner : ∀ named ∈ entries, LinkFree named.2) :
      LinkFree (.directory entries)

variable {entries : List (String × Entry)} {name : String} {e child : Entry}

theorem mem_of_lookup (found : entries.lookup name = some child) : (name, child) ∈ entries := by
  induction entries with
  | nil => cases found
  | cons first more ih =>
      obtain ⟨n, old⟩ := first
      rw [List.lookup_cons] at found
      split at found
      · next same =>
          rw [eq_of_beq same, Option.some.inj found]
          exact List.mem_cons_self
      · exact List.mem_cons_of_mem _ (ih found)

/-- Names in order are distinct, so a look-up finds every entry. -/
theorem lookup_of_mem (sorted : entries.Pairwise fun a b => NameBefore a.1 b.1)
    (listed : (name, child) ∈ entries) : entries.lookup name = some child := by
  induction entries with
  | nil => cases listed
  | cons first more ih =>
      obtain ⟨n, old⟩ := first
      obtain ⟨before, sorted⟩ := List.pairwise_cons.1 sorted
      rw [List.lookup_cons]
      rcases List.mem_cons.1 listed with same | later
      · obtain ⟨rfl, rfl⟩ := Prod.mk.inj same
        simp
      · have differ : (name == n) = false := by
          rw [beq_eq_false_iff_ne]
          intro same
          exact NameBefore.irrefl n (same ▸ before _ later)
        rw [differ]
        exact ih sorted later

theorem child?_directory : (directory entries).child? name = entries.lookup name := rfl

theorem at?_cons_iff {more : Location} {found : Entry} :
    e.at? (name :: more) = some found ↔
      ∃ child, e.child? name = some child ∧ child.at? more = some found :=
  Option.bind_eq_some_iff

theorem isDirectory_of_at? {more : Location} {found : Entry}
    (there : e.at? (name :: more) = some found) : e.isDirectory = true := by
  obtain ⟨child, isChild, _⟩ := at?_cons_iff.1 there
  cases e with
  | directory _ => rfl
  | file _ => cases isChild
  | link _ => cases isChild

/-- What holds of an entry and is inherited by the entries of a directory holds at every place. -/
theorem at?_inherits {P : Entry → Prop} {place : Location} {found : Entry}
    (inherited : ∀ entries : List (String × Entry), P (.directory entries) →
      ∀ named ∈ entries, P named.2)
    (top : P e) (there : e.at? place = some found) : P found := by
  induction place generalizing e with
  | nil => exact Option.some.inj there ▸ top
  | cons name more ih =>
      obtain ⟨child, isChild, below⟩ := at?_cons_iff.1 there
      cases e with
      | directory entries => exact ih (inherited entries top _ (mem_of_lookup isChild)) below
      | file _ => cases isChild
      | link _ => cases isChild

theorem Ordered.at? {place : Location} {found : Entry} (ordered : e.Ordered)
    (there : e.at? place = some found) : found.Ordered := by
  refine at?_inherits ?_ ordered there
  intro entries ordered
  cases ordered with
  | directory _ inner => exact inner

/-! ### Trees that are filled -/

theorem mem_insertNamed {named : String × Entry} (listed : named ∈ insertNamed name e entries) :
    named = (name, e) ∨ named ∈ entries := by
  induction entries with
  | nil => exact Or.inl (List.mem_singleton.1 listed)
  | cons first more ih =>
      obtain ⟨n, old⟩ := first
      rw [insertNamed] at listed
      split at listed
      · exact List.mem_cons.1 listed
      split at listed
      · rcases List.mem_cons.1 listed with new | later
        · exact Or.inl new
        · exact Or.inr (List.mem_cons_of_mem _ later)
      · rcases List.mem_cons.1 listed with same | later
        · exact Or.inr (same ▸ List.mem_cons_self)
        · exact (ih later).imp_right (List.mem_cons_of_mem _)

theorem insertNamed_sorted (sorted : entries.Pairwise fun a b => NameBefore a.1 b.1) :
    (insertNamed name e entries).Pairwise fun a b => NameBefore a.1 b.1 := by
  induction entries with
  | nil => exact List.pairwise_singleton _ _
  | cons first more ih =>
      obtain ⟨n, old⟩ := first
      obtain ⟨before, rest⟩ := List.pairwise_cons.1 sorted
      rw [insertNamed]
      split
      · next less =>
          have less := nameBefore_iff_lt.2 less
          refine List.pairwise_cons.2 ⟨?_, sorted⟩
          intro named listed
          rcases List.mem_cons.1 listed with rfl | later
          · exact less
          · exact less.trans (before named later)
      split
      · next same =>
          subst same
          exact List.pairwise_cons.2 ⟨before, rest⟩
      · next notLess differ =>
          refine List.pairwise_cons.2 ⟨?_, ih rest⟩
          intro named listed
          rcases mem_insertNamed listed with rfl | later
          · exact nameBefore_of_not_lt notLess differ
          · exact before named later

theorem Ordered.insertNamed (ordered : (Entry.directory entries).Ordered) (new : e.Ordered) :
    (Entry.directory (Entry.insertNamed name e entries)).Ordered := by
  cases ordered with
  | directory sorted inner =>
      refine .directory (insertNamed_sorted sorted) ?_
      intro named listed
      rcases mem_insertNamed listed with rfl | old
      · exact new
      · exact inner named old

theorem ordered_empty : (directory []).Ordered := .directory .nil (by simp)

/-- What holds of an empty directory, is inherited by the entries of a directory and is kept when
an entry is set is kept when an entry is put somewhere. -/
theorem put_preserves {P : Entry → Prop} {tree : Entry} (empty : P (.directory []))
    (inherited : ∀ entries : List (String × Entry), P (.directory entries) →
      ∀ named ∈ entries, P named.2)
    (inserted : ∀ (entries : List (String × Entry)) (name : String) (child : Entry),
      P (.directory entries) → P child → P (.directory (insertNamed name child entries)))
    (top : P tree) (new : P e) (place : Location) : P (tree.put e place) := by
  induction place generalizing tree with
  | nil =>
      unfold Entry.put
      split
      · exact top
      · exact new
  | cons name more ih =>
      -- below anything but a directory an empty directory is begun
      have start : ∀ entries : List (String × Entry), P (.directory entries) →
          P (.directory (insertNamed name
            (((entries.lookup name).getD (.directory [])).put e more) entries)) := by
        intro entries top
        refine inserted entries name _ top (ih ?_)
        cases found : entries.lookup name with
        | none => exact empty
        | some child => exact inherited entries top _ (mem_of_lookup found)
      cases tree with
      | directory entries => exact start entries top
      | file _ => exact start [] empty
      | link _ => exact start [] empty

theorem Ordered.put {tree : Entry} (ordered : tree.Ordered) (new : e.Ordered) (place : Location) :
    (tree.put e place).Ordered := by
  refine put_preserves ordered_empty ?_ ?_ ordered new place
  · intro entries ordered
    cases ordered with
    | directory _ inner => exact inner
  · intro entries name child ordered new
    exact ordered.insertNamed new

theorem LinkFree.put {tree : Entry} (free : tree.LinkFree) (new : e.LinkFree) (place : Location) :
    (tree.put e place).LinkFree := by
  refine put_preserves (.directory (by simp)) ?_ ?_ free new place
  · intro entries free
    cases free with
    | directory inner => exact inner
  · intro entries name child free new
    cases free with
    | directory inner =>
        refine .directory fun named listed => ?_
        rcases mem_insertNamed listed with rfl | old
        · exact new
        · exact inner named old

end Entry

theorem Disk.empty_ordered (here : Location) : (Disk.empty here).tree.Ordered :=
  Entry.ordered_empty.put Entry.ordered_empty here

/-- A disk that is filled entry by entry stays in order. -/
theorem Disk.create_ordered {disk : Disk} {e : Entry} (ordered : disk.tree.Ordered)
    (new : e.Ordered) (path : String) : (disk.create path e).tree.Ordered :=
  ordered.put new (disk.placeOf path)

/-! ### Where paths lead -/

namespace Entry

variable {tree : Entry} {links : Nat} {place : Location} {parts : List String} {found : Located}

theorem at?_append {e : Entry} {first second : Location} :
    e.at? (first ++ second) = (e.at? first).bind (·.at? second) := by
  induction first generalizing e with
  | nil => rfl
  | cons name more ih =>
      simp only [List.cons_append, at?]
      cases e.child? name with
      | none => rfl
      | some child => exact ih

/-- What a path leads to stands at the place that it leads to. -/
theorem at?_of_follow {followLast : Bool} (led : tree.follow followLast links place parts = .ok found) :
    tree.at? found.location = some found.entry := by
  fun_induction tree.follow followLast links place parts with
  | case1 => cases led
  | case2 links place current there =>
      cases led
      exact there
  | case3 => cases led
  | case4 links place current there part rest isDir blank ih => exact ih led
  | case5 links place current there rest isDir blank ih => exact ih led
  | case6 => cases led
  | case7 links place current there part rest _ _ _ target isChild _ =>
      cases led
      rw [at?_append, there, Option.bind_some, at?, isChild]
      rfl
  | case8 => cases led
  | case9 place current there part rest _ _ _ target isChild _ left start ih => exact ih led
  | case10 links place current there part rest _ _ _ child isChild _ ih => exact ih led

/-- A path leads to the same entry if a link at its end is not followed, unless it ends in one. -/
theorem follow_unfollowed (led : tree.follow true links place parts = .ok found) :
    tree.follow false links place parts = .ok found ∨
      ∃ location target, tree.follow false links place parts = .ok ⟨location, .link target⟩ := by
  fun_induction tree.follow true links place parts with
  | case1 => cases led
  | case2 links place current there =>
      left
      rw [follow, there]
      exact led
  | case3 => cases led
  | case4 links place current there part rest isDir blank ih =>
      have onward : tree.follow false links place (part :: rest) =
          tree.follow false links place rest := by
        rw [follow, there]
        dsimp only
        rw [if_neg isDir, if_pos blank]
      rw [onward]
      exact ih led
  | case5 links place current there rest isDir notBlank ih =>
      have onward : tree.follow false links place (".." :: rest) =
          tree.follow false links place.dropLast rest := by
        rw [follow, there]
        dsimp only
        rw [if_neg isDir, if_neg notBlank, if_pos rfl]
      rw [onward]
      exact ih led
  | case6 => cases led
  | case7 links place current there part rest isDir notBlank notUp target isChild unfollowed =>
      rw [Bool.not_true, Bool.and_false] at unfollowed
      cases unfollowed
  | case8 => cases led
  | case9 place current there part rest isDir notBlank notUp target isChild _ left start ih =>
      have onward : tree.follow false (left + 1) place (part :: rest) =
          if rest.isEmpty then .ok ⟨place ++ [part], .link target⟩
          else tree.follow false left start (pathParts target ++ rest) := by
        rw [follow, there]
        dsimp only
        rw [if_neg isDir, if_neg notBlank, if_neg notUp, isChild, Bool.not_false, Bool.and_true]
        rfl
      rw [onward]
      by_cases last : rest.isEmpty
      · exact .inr ⟨place ++ [part], target, if_pos last⟩
      · rw [if_neg last]
        exact ih led
  | case10 links place current there part rest isDir notBlank notUp child notLink isChild ih =>
      have onward : tree.follow false links place (part :: rest) =
          tree.follow false links (place ++ [part]) rest := by
        rw [follow, there]
        dsimp only
        rw [if_neg isDir, if_neg notBlank, if_neg notUp, isChild]
        cases child with
        | link target => exact absurd rfl (notLink target)
        | _ => rfl
      rw [onward]
      exact ih led

/-! ### Paths without links -/

/-- The parts of a path that name something. -/
def namesIn (parts : List String) : List String :=
  parts.filter fun part => !(part.isEmpty || part = ".")

theorem namesIn_cons_of_blank {part : String} (blank : (part.isEmpty || part = ".") = true)
    (rest : List String) : namesIn (part :: rest) = namesIn rest :=
  List.filter_cons_of_neg (by rw [blank]; decide)

theorem namesIn_cons_of_name {part : String} (name : ¬ (part.isEmpty || part = ".") = true)
    (rest : List String) : namesIn (part :: rest) = part :: namesIn rest :=
  List.filter_cons_of_pos (by simpa using name)

theorem not_link_of_child? {e : Entry} {name target : String} (free : e.LinkFree)
    (isChild : e.child? name = some (.link target)) : False := by
  cases free with
  | file _ => cases isChild
  | directory inner => cases inner _ (mem_of_lookup isChild)

/-- Where there are no links, a path leads to the place that its names say. -/
theorem location_of_follow {followLast : Bool} (free : tree.LinkFree) (down : ".." ∉ parts)
    (led : tree.follow followLast links place parts = .ok found) :
    found.location = place ++ namesIn parts := by
  have linkFree : ∀ {place current}, tree.at? place = some current → current.LinkFree := by
    intro place current there
    refine at?_inherits ?_ free there
    intro entries free
    cases free with
    | directory inner => exact inner
  fun_induction tree.follow followLast links place parts with
  | case1 => cases led
  | case2 links place current there =>
      cases led
      exact (List.append_nil place).symm
  | case3 => cases led
  | case4 links place current there part rest isDir blank ih =>
      rw [namesIn_cons_of_blank blank]
      exact ih (fun listed => down (List.mem_cons_of_mem part listed)) led
  | case5 => exact absurd List.mem_cons_self down
  | case6 => cases led
  | case7 links place current there part rest _ _ _ target isChild _ =>
      exact (not_link_of_child? (linkFree there) isChild).elim
  | case8 => cases led
  | case9 place current there part rest _ _ _ target isChild _ left start ih =>
      exact (not_link_of_child? (linkFree there) isChild).elim
  | case10 links place current there part rest _ name _ child isChild _ ih =>
      rw [namesIn_cons_of_name name, ih (fun listed => down (List.mem_cons_of_mem part listed)) led,
        List.append_assoc]
      rfl

theorem isDirectory_of_below {e : Entry} {below : Location} {entries : List (String × Entry)}
    (there : e.at? below = some (.directory entries)) : e.isDirectory = true := by
  cases below with
  | nil =>
      cases there
      rfl
  | cons name more => exact isDirectory_of_at? there

/-- A path whose names are those of a directory leads to it. -/
theorem follow_of_directory {followLast : Bool} {entries : List (String × Entry)}
    (down : ".." ∉ parts) (there : tree.at? (place ++ namesIn parts) = some (.directory entries)) :
    tree.follow followLast links place parts =
      .ok ⟨place ++ namesIn parts, .directory entries⟩ := by
  induction parts generalizing place with
  | nil =>
      rw [namesIn, List.filter_nil, List.append_nil] at there ⊢
      rw [follow, there]
  | cons part rest ih =>
      have down' : ".." ∉ rest := fun listed => down (List.mem_cons_of_mem part listed)
      obtain ⟨current, atPlace, below⟩ : ∃ current, tree.at? place = some current ∧
          current.at? (namesIn (part :: rest)) = some (.directory entries) := by
        rw [at?_append] at there
        exact Option.bind_eq_some_iff.1 there
      have isDir : ¬ (!current.isDirectory) = true := by
        rw [isDirectory_of_below below]
        decide
      rw [follow, atPlace]
      dsimp only
      rw [if_neg isDir]
      by_cases blank : (part.isEmpty || part = ".") = true
      · rw [if_pos blank]
        rw [namesIn_cons_of_blank blank] at there ⊢
        exact ih down' there
      · have notUp : part ≠ ".." := by
          rintro rfl
          exact down List.mem_cons_self
        rw [namesIn_cons_of_name blank] at there below ⊢
        obtain ⟨child, isChild, inner⟩ := at?_cons_iff.1 below
        have isDir := isDirectory_of_below inner
        rw [if_neg blank, if_neg notUp, isChild]
        cases child with
        | directory _ =>
            have whole : place ++ part :: namesIn rest = (place ++ [part]) ++ namesIn rest :=
              List.append_cons place part (namesIn rest)
            rw [whole] at there ⊢
            exact ih down' there
        | file _ => cases isDir
        | link _ => cases isDir

end Entry

/-- Where there are no links, an entry goes to the place that the names of its path say. -/
theorem Disk.placeOf_of_linkFree {disk : Disk} {path : String} (free : disk.tree.LinkFree)
    (down : ".." ∉ pathNames path) :
    disk.placeOf path = disk.startOf path ++ pathNames path := by
  have kept : Entry.namesIn (pathNames path).dropLast = (pathNames path).dropLast := by
    refine List.filter_eq_self.2 fun part listed => ?_
    exact (List.mem_filter.1 (List.dropLast_subset _ listed)).2
  rw [Disk.placeOf]
  cases led : disk.tree.follow true maxLinks (disk.startOf path) (pathNames path).dropLast with
  | error fault => rfl
  | ok found =>
      have place := Entry.location_of_follow free
        (fun listed => down (List.dropLast_subset _ listed)) led
      rw [kept] at place
      have whole : (pathNames path).dropLast ++ (pathNames path).getLast?.toList =
          pathNames path := by
        cases last : (pathNames path).getLast? with
        | none => simp [List.getLast?_eq_none_iff.1 last]
        | some name => exact List.dropLast_append_getLast? name last
      dsimp only
      rw [place, List.append_assoc, whole]

theorem Disk.create_of_linkFree {disk : Disk} {path : String} (free : disk.tree.LinkFree)
    (down : ".." ∉ pathNames path) (e : Entry) :
    disk.create path e = disk.put e (disk.startOf path ++ pathNames path) := by
  rw [Disk.create, Disk.placeOf_of_linkFree free down]

theorem Disk.empty_linkFree (here : Location) : (Disk.empty here).tree.LinkFree :=
  Entry.LinkFree.put (.directory (by simp)) (.directory (by simp)) here

theorem Disk.foldl_create_of_linkFree {disk : Disk} {e : Entry} {paths : List String}
    (free : disk.tree.LinkFree) (new : e.LinkFree) (down : ∀ path ∈ paths, ".." ∉ pathNames path) :
    paths.foldl (fun disk path => disk.create path e) disk =
      paths.foldl (fun disk path => disk.put e (disk.startOf path ++ pathNames path)) disk := by
  induction paths generalizing disk with
  | nil => rfl
  | cons path more ih =>
      rw [List.foldl_cons, List.foldl_cons, create_of_linkFree free (down path List.mem_cons_self)]
      refine ih ?_ fun later listed => down later (List.mem_cons_of_mem path listed)
      exact free.put new _

/-- A path whose names are those of a directory leads to it. -/
theorem Disk.locate_of_directory {disk : Disk} {path : String} {followLast : Bool}
    {entries : List (String × Entry)} (filled : path.isEmpty = false) (down : ".." ∉ pathParts path)
    (there : disk.tree.at? (disk.startOf path ++ pathNames path) = some (.directory entries)) :
    disk.locate path followLast =
      .ok ⟨disk.startOf path ++ pathNames path, .directory entries⟩ := by
  rw [Disk.locate, filled]
  exact Entry.follow_of_directory down there

namespace Entry

variable {tree : Entry} {place : Location}

/-! ### Directories without links -/

theorem count_le_countAll {named : String × Entry} {entries : List (String × Entry)}
    (listed : named ∈ entries) : named.2.count ≤ countAll entries := by
  induction entries with
  | nil => cases listed
  | cons first more ih =>
      rw [countAll]
      rcases List.mem_cons.1 listed with rfl | later
      · exact Nat.le_add_right _ _
      · exact Nat.le_add_left_of_le (ih later)

theorem count_at?_le {e inner : Entry} (there : e.at? place = some inner) :
    inner.count ≤ e.count := by
  refine at?_inherits (P := fun inner => inner.count ≤ e.count) ?_ (Nat.le_refl _) there
  intro entries bound named listed
  have member := count_le_countAll listed
  rw [count] at bound
  exact Nat.le_trans member (Nat.le_trans (Nat.le_add_left _ _) bound)

/-- A directory without links has nothing to expand. -/
theorem expand_of_linkFree {fuel : Nat} {above : List Location} {location : Location}
    {entries : List (String × Entry)} (free : (directory entries).LinkFree)
    (enough : countAll entries < fuel) : tree.expand fuel above location entries = entries := by
  induction fuel generalizing above location entries with
  | zero => cases enough
  | succ fuel ih =>
      cases free with
      | directory inner =>
          rw [expand]
          refine Eq.trans (List.filterMap_congr ?_) (List.filterMap_some)
          rintro ⟨name, e⟩ listed
          have free := inner _ listed
          have member := count_le_countAll listed
          cases e with
          | file content => rfl
          | link target => cases free
          | directory below =>
              have fits : countAll below < fuel := by
                rw [count] at member
                omega
              simp only [ih free fits]

theorem followLinks_of_linkFree {location : Location} {e : Entry} (free : e.LinkFree)
    (there : tree.at? location = some e) : tree.followLinks ⟨location, e⟩ = e := by
  cases e with
  | file content => rfl
  | link target => rfl
  | directory entries =>
      have bound : (directory entries).count ≤ tree.count := count_at?_le there
      have square : tree.count ≤ tree.count * tree.count + tree.count := Nat.le_add_left _ _
      have enough : countAll entries < (tree.count + 1) * (tree.count + 1) := by
        rw [count] at bound
        rw [Nat.add_mul, Nat.mul_add]
        omega
      simp only [followLinks, expand_of_linkFree free enough]

end Entry

theorem Disk.at?_of_locate {disk : Disk} {path : String} {followLast : Bool} {found : Located}
    (located : disk.locate path followLast = .ok found) :
    disk.tree.at? found.location = some found.entry := by
  unfold Disk.locate at located
  split at located
  · cases located
  · exact Entry.at?_of_follow located

/-- A project starts from the directory that its path leads to. -/
theorem rootEntry_of_located {disk : Disk} {root : String} {followLinks : Bool} {location : Location}
    {entries : List (String × Entry)}
    (located : disk.locate root true = .ok ⟨location, .directory entries⟩) :
    rootEntry disk followLinks root =
      .ok (if followLinks then disk.tree.followLinks ⟨location, .directory entries⟩
        else .directory entries) := by
  have unfollowed : disk.locate root false = .ok ⟨location, .directory entries⟩ ∨
      ∃ place target, disk.locate root false = .ok ⟨place, .link target⟩ := by
    unfold Disk.locate at located ⊢
    split at located
    · cases located
    · next named =>
        rw [if_neg named]
        exact Entry.follow_unfollowed located
  rcases unfollowed with same | ⟨place, target, link⟩
  · simp only [rootEntry, same]
  · simp only [rootEntry, link, located]
    split
    · rfl
    · rfl

/-- As long as no link in the directory is to be followed, it is what the project starts from. -/
theorem rootEntry_of_locate {disk : Disk} {root : String} {followLinks : Bool} {location : Location}
    {entries : List (String × Entry)}
    (located : disk.locate root true = .ok ⟨location, .directory entries⟩)
    (plain : followLinks = false ∨ (Entry.directory entries).LinkFree) :
    rootEntry disk followLinks root = .ok (.directory entries) := by
  rw [rootEntry_of_located located]
  rcases plain with unfollowed | free
  · simp [unfollowed]
  · simp [Entry.followLinks_of_linkFree free (Disk.at?_of_locate located)]

end CallAtlas
