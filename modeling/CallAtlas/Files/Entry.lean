/-
Module: CallAtlas.Files.Entry
Purpose: File trees as values.
Main definitions: Entry, Location, Entry.at?, Entry.put
-/

namespace CallAtlas

/-- A file, a symbolic link or a directory.  The entries of a directory are in increasing order of
their names. -/
inductive Entry where
  | file (content : List UInt8)
  | link (target : String)
  | directory (entries : List (String × Entry))
deriving Repr, Inhabited

/-- A place in a tree: the names on the way from its top, outermost first. -/
abbrev Location := List String

namespace Entry

/-- Whether an entry is a directory. -/
def isDirectory : Entry → Bool
  | directory _ => true
  | _ => false

/-- The entry with a given name in a directory. -/
def child? (e : Entry) (name : String) : Option Entry :=
  match e with
  | directory entries => entries.lookup name
  | _ => none

/-- The entry at a location. -/
def at? (e : Entry) : Location → Option Entry
  | [] => some e
  | name :: more => (e.child? name).bind (·.at? more)

/-- Sets the entry of a name in the entries of a directory. -/
def insertNamed (name : String) (e : Entry) : List (String × Entry) → List (String × Entry)
  | [] => [(name, e)]
  | (n, old) :: more =>
    if name < n then (name, e) :: (n, old) :: more
    else if name = n then (name, e) :: more
    else (n, old) :: insertNamed name e more

/-- Puts an entry at a location.  Directories on the way are made as needed, and a directory that is
already there stays. -/
def put (tree : Entry) (e : Entry) : Location → Entry
  | [] =>
    match tree, e with
    | directory entries, directory [] => directory entries
    | _, _ => e
  | name :: more =>
    let entries :=
      match tree with
      | directory entries => entries
      | _ => []
    directory (insertNamed name (((entries.lookup name).getD (directory [])).put e more) entries)

mutual

/-- Number of entries in an entry, itself included. -/
def count : Entry → Nat
  | file _ => 1
  | link _ => 1
  | directory entries => 1 + countAll entries

/-- Number of entries in several entries. -/
def countAll : List (String × Entry) → Nat
  | [] => 0
  | (_, e) :: more => e.count + countAll more

end

end Entry

end CallAtlas
