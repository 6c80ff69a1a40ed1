/-
Module: CallAtlas.Project.ModuleName
Purpose: The module names of source files.
Main definitions: moduleName, distinctName
-/
import CallAtlas.Language
import CallAtlas.Text.Words

namespace CallAtlas

/-- A path without the extension of its last part. -/
def withoutExtension (path : Text) : Text :=
  let tail := path.reverse.takeWhile fun c => c != '.'
  if tail.length < path.length && !tail.contains '/' then
    path.take (path.length - tail.length - 1)
  else path

/-- The dotted name of the module in a file.  The initial file of a Python package stands for the
package. -/
def moduleName (path : String) (lang : Language) : String :=
  let name := (withoutExtension path.toList).map fun c => if c == '/' then '.' else c
  let initial := ".__init__".toList
  if lang = .python && Text.endsWith name initial then
    String.ofList (name.take (name.length - initial.length))
  else String.ofList name

/-- What follows the last dot of a path; the whole path if it has none. -/
def pathEnding (path : String) : String :=
  String.ofList (path.toList.reverse.takeWhile fun c => c != '.').reverse

/-- The first of `base`, `base2`, `base3` and so on from a number on that is not taken.  One of
`fuel` candidates is free if `fuel` exceeds the number of names taken. -/
def freeName (taken : List String) (base : String) : Nat → Nat → String
  | 0, number => base ++ toString number
  | fuel + 1, number =>
    if taken.contains (base ++ toString number) then freeName taken base fuel (number + 1)
    else base ++ toString number

/-- A module name that no earlier file has: the name itself, or the name with the file's ending and
then a number behind it. -/
def distinctName (taken : List String) (name path : String) : String :=
  let longer := name ++ "_" ++ pathEnding path
  if !taken.contains name then name
  else if !taken.contains longer then longer
  else freeName taken longer taken.length 2

end CallAtlas
