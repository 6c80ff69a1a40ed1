/-
Module: CallAtlas.Files.Disk
Purpose: A file tree with a working directory, and what paths in it lead to.
Main definitions: Disk, PathFault, Located, Disk.locate, Disk.read, Disk.create, Disk.write
-/
import CallAtlas.Files.Entry
import CallAtlas.Text.Basic

namespace CallAtlas

/-- Why a path leads nowhere. -/
inductive PathFault where
  | notFound
  | notDirectory
  | isDirectory
  | tooManyLinks
deriving Repr, DecidableEq, Inhabited

/-- The text of a fault, with the number the operating system gives it. -/
def PathFault.message : PathFault → String
  | notFound => "No such file or directory (os error 2)"
  | notDirectory => "Not a directory (os error 20)"
  | isDirectory => "Is a directory (os error 21)"
  | tooManyLinks => "Too many levels of symbolic links (os error 40)"

/-- What a path leads to, and where it is when all links on the way are followed. -/
structure Located where
  location : Location
  entry : Entry
deriving Repr, Inhabited

/-- The parts of a path between its slashes. -/
def pathParts (path : String) : List String :=
  (Text.splitBy (· == '/') path.toList).map String.ofList

/-- The parts of a path that name something. -/
def pathNames (path : String) : List String :=
  (pathParts path).filter fun part => !(part.isEmpty || part = ".")

/-- Whether a path starts at the top of the tree. -/
def isAbsolute (path : String) : Bool := path.toList.head? == some '/'

/-- The path of a name in a directory. -/
def joinPath (directory name : String) : String :=
  if directory.isEmpty || directory.toList.getLast? == some '/' then directory ++ name
  else directory ++ "/" ++ name

/-- Follows the parts of a path from a location of a tree, with at most `links` links on the way.  A
link at the very end is followed only if `followLast` says so. -/
def Entry.follow (tree : Entry) (followLast : Bool) (links : Nat) (location : Location)
    (parts : List String) : Except PathFault Located :=
  match tree.at? location with
  | none => .error .notFound
  | some current =>
    match parts with
    | [] => .ok ⟨location, current⟩
    | part :: rest =>
      if !current.isDirectory then .error .notDirectory
      else if part.isEmpty || part = "." then follow tree followLast links location rest
      else if part = ".." then follow tree followLast links location.dropLast rest
      else
        match current.child? part with
        | none => .error .notFound
        | some (.link target) =>
          if rest.isEmpty && !followLast then .ok ⟨location ++ [part], .link target⟩
          else
            match links with
            | 0 => .error .tooManyLinks
            | left + 1 =>
              let start := if isAbsolute target then [] else location
              follow tree followLast left start (pathParts target ++ rest)
        | some _ => follow tree followLast links (location ++ [part]) rest
termination_by (links, parts.length)

/-- The number of links that may be followed on the way to an entry. -/
def maxLinks : Nat := 40

/-- A file tree with the location that relative paths start from. -/
structure Disk where
  tree : Entry
  here : Location
deriving Repr, Inhabited

namespace Disk

/-- A disk with nothing but the working directory. -/
def empty (here : Location) : Disk := ⟨(Entry.directory []).put (.directory []) here, here⟩

/-- Where a path starts. -/
def startOf (d : Disk) (path : String) : Location := if isAbsolute path then [] else d.here

/-- What a path leads to.  The empty path leads nowhere. -/
def locate (d : Disk) (path : String) (followLast : Bool) : Except PathFault Located :=
  if path.isEmpty then .error .notFound
  else d.tree.follow followLast maxLinks (d.startOf path) (pathParts path)

/-- The content of the file that a path leads to. -/
def read (d : Disk) (path : String) : Except PathFault (List UInt8) :=
  match d.locate path true with
  | .error fault => .error fault
  | .ok ⟨_, .file content⟩ => .ok content
  | .ok ⟨_, .directory _⟩ => .error .isDirectory
  | .ok ⟨_, .link _⟩ => .error .notFound

/-- Whether a path leads to a file. -/
def isFile (d : Disk) (path : String) : Bool := (d.read path).toBool

/-- Puts an entry at a location. -/
def put (d : Disk) (e : Entry) (location : Location) : Disk := { d with tree := d.tree.put e location }

/-- Where an entry of a given path goes: into the directory that the path leads to, if there is
one. -/
def placeOf (d : Disk) (path : String) : Location :=
  let names := pathNames path
  match d.tree.follow true maxLinks (d.startOf path) names.dropLast with
  | .ok ⟨location, _⟩ => location ++ names.getLast?.toList
  | .error _ => d.startOf path ++ names

/-- Creates an entry at a path, with the directories on the way. -/
def create (d : Disk) (path : String) (e : Entry) : Disk := d.put e (d.placeOf path)

/-- Writes a file at a path, whose directory has to exist. -/
def write (d : Disk) (path : String) (content : List UInt8) : Except PathFault Disk :=
  match d.locate path true with
  | .ok ⟨_, .directory _⟩ => .error .isDirectory
  | .ok ⟨location, _⟩ => .ok (d.put (.file content) location)
  | .error .notFound =>
    let parts := pathParts path
    match d.tree.follow true maxLinks (d.startOf path) parts.dropLast, parts.getLast? with
    | .ok ⟨location, .directory _⟩, some name =>
      if path.isEmpty then .error .notFound
      else if name.isEmpty then .error .isDirectory
      else .ok (d.put (.file content) (location ++ [name]))
    | .ok _, _ => .error .notDirectory
    | .error fault, _ => .error fault
  | .error fault => .error fault

end Disk

end CallAtlas
