/-
Module: CallAtlas.Project.Discovery
Purpose: The source files of a project.
Main definitions: FoundFile, filesIn, Selection, DiscoveredFile, discover
-/
import CallAtlas.Config.Basic
import CallAtlas.Files.Links
import CallAtlas.Project.ModuleName

namespace CallAtlas

/-- A file below a directory. -/
structure FoundFile where
  /-- The names on the way to it, its own the last one. -/
  path : List String
  /-- Its own name. -/
  name : String
  content : List UInt8
deriving Repr, DecidableEq, Inhabited

mutual

/-- All files in an entry with a given path and name, except those below a directory of a skipped
name.  Entries come in order, the content of a directory in its place.  Links are no files. -/
def filesIn (skipped : List String) (path : List String) (name : String) : Entry → List FoundFile
  | .file content => [⟨path, name, content⟩]
  | .link _ => []
  | .directory entries => filesAmong skipped path entries

/-- All files in the entries of a directory with a given path. -/
def filesAmong (skipped : List String) (path : List String) :
    List (String × Entry) → List FoundFile
  | [] => []
  | (name, e) :: more =>
    let front :=
      if e.isDirectory && skipped.contains name then []
      else filesIn skipped (path ++ [name]) name e
    front ++ filesAmong skipped path more

end

/-- The extension of a file name: what follows its last dot, if something stands before it. -/
def extensionOf? (name : String) : Option String :=
  let t := name.toList
  let ending := t.reverse.takeWhile fun c => c != '.'
  if ending.length + 1 < t.length then some (String.ofList ending.reverse) else none

/-- What makes a file a source file of a project. -/
structure Selection where
  languages : List Language
  excluded : List Glob
deriving Repr, Inhabited

/-- A source file with its language. -/
structure SelectedFile where
  path : String
  language : Language
  content : List UInt8
deriving Repr, DecidableEq, Inhabited

/-- The file as a source file, if it is one: its extension is of an enabled language, and no glob
excludes its path. -/
def Selection.select? (s : Selection) (f : FoundFile) : Option SelectedFile := do
  let lang ← (extensionOf? f.name).bind Language.ofExtension?
  let path := "/".intercalate f.path
  if s.languages.contains lang && !anyMatch s.excluded path then some ⟨path, lang, f.content⟩
  else none

/-- A source file with its language and its module name. -/
structure DiscoveredFile where
  path : String
  moduleName : String
  language : Language
  content : List UInt8
deriving Repr, DecidableEq, Inhabited

/-- Gives source files module names in order, each distinct from those before it. -/
def nameModules (taken : List String) : List SelectedFile → List DiscoveredFile
  | [] => []
  | f :: more =>
    let name := distinctName taken (moduleName f.path f.language) f.path
    ⟨f.path, name, f.language, f.content⟩ :: nameModules (name :: taken) more

/-- The last name in a path. -/
def lastName (path : String) : String := (pathNames path).getLast?.getD ""

/-- The entry that a project starts from.  A link is followed if it leads to a directory, or if
links are followed at all. -/
def rootEntry (disk : Disk) (followLinks : Bool) (root : String) : Except PathFault Entry :=
  match disk.locate root false with
  | .error fault => .error fault
  | .ok found =>
    match found.entry with
    | .link _ =>
      match disk.locate root true with
      | .error fault => .error fault
      | .ok behind =>
        if followLinks then .ok (disk.tree.followLinks behind)
        else .ok (if behind.entry.isDirectory then behind.entry else found.entry)
    | e => .ok (if followLinks then disk.tree.followLinks found else e)

/-- The source files below a root, given the globs of excluded paths. -/
def discover (disk : Disk) (config : Config) (excluded : List Glob) (root : String) :
    Except PathFault (List DiscoveredFile) := do
  let entry ← rootEntry disk config.followLinks root
  let files := filesIn config.skippedNames [] (lastName root) entry
  let selection : Selection := ⟨config.enabledLanguages, excluded⟩
  return nameModules [] (files.filterMap selection.select?)

end CallAtlas
