/-
Module: CallAtlas.Files.Links
Purpose: File trees with their symbolic links followed.
Main definitions: Entry.followLinks
-/
import CallAtlas.Files.Disk

namespace CallAtlas.Entry

/-- A directory with the links in it replaced by what they lead to.  Links that lead nowhere are
left out, and so are links to one of the directories on the way, given in `above`. -/
def expand (tree : Entry) : Nat → List Location → Location → List (String × Entry) →
    List (String × Entry)
  | 0, _, _, _ => []
  | fuel + 1, above, location, entries =>
    let way := location :: above
    entries.filterMap fun (name, e) =>
      match e with
      | file content => some (name, file content)
      | directory inner =>
        some (name, directory (expand tree fuel way (location ++ [name]) inner))
      | link target =>
        let start := if isAbsolute target then [] else location
        match tree.follow true maxLinks start (pathParts target) with
        | .ok ⟨_, file content⟩ => some (name, file content)
        | .ok ⟨place, directory inner⟩ =>
          if way.contains place then none
          else some (name, directory (expand tree fuel way place inner))
        | _ => none

/-- An entry of a tree with the links in it followed.  Each link that is followed leads to a
directory that is not on the way, and between two links the way only goes down: so the depth is
bounded by the square of the number of entries. -/
def followLinks (tree : Entry) (found : Located) : Entry :=
  match found.entry with
  | directory entries =>
    directory (tree.expand ((tree.count + 1) * (tree.count + 1)) [] found.location entries)
  | e => e

end CallAtlas.Entry
