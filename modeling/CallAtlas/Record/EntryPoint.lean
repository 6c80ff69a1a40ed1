/-
Module: CallAtlas.Record.EntryPoint
Purpose: The record of a function that a program or a request starts in.
Main definitions: Metadata, EntryPoint, EntryPoint.ofFunction, numberDuplicates
-/
import CallAtlas.Record.Function

namespace CallAtlas

/-- Notes on an entry point, by key, in increasing order of the keys. -/
abbrev Metadata := List (String × String)

/-- Sets the value of a key. -/
def Metadata.insert (key value : String) : Metadata → Metadata
  | [] => [(key, value)]
  | (k, v) :: more =>
    if key < k then (key, value) :: (k, v) :: more
    else if key = k then (key, value) :: more
    else (k, v) :: Metadata.insert key value more

/-- A function that is entered from outside. -/
structure EntryPoint where
  id : String
  kind : String
  functionId : String
  filePath : String
  line : Nat
  metadata : Metadata
deriving Repr, DecidableEq, Inhabited

namespace EntryPoint

/-- The entry point of a given kind at a function. -/
def ofFunction (f : Function) (kind : String) : EntryPoint :=
  { id := "entry:" ++ kind ++ ":" ++ f.id
    kind := kind
    functionId := f.id
    filePath := f.filePath
    line := f.line
    metadata := [] }

/-- The entry point with a note added. -/
def note (e : EntryPoint) (key value : String) : EntryPoint :=
  { e with metadata := Metadata.insert key value e.metadata }

end EntryPoint

/-- Ids made distinct: the second and later occurrences of an id get `#2`, `#3` and so on.  `seen`
holds the ids before the list, as they were given. -/
def numberFrom (seen : List String) : List EntryPoint → List EntryPoint
  | [] => []
  | e :: more =>
    let count := seen.count e.id
    let id := if count = 0 then e.id else e.id ++ "#" ++ toString (count + 1)
    { e with id := id } :: numberFrom (e.id :: seen) more

/-- Entry points with repeated ids numbered, so that a function with two routes has two entries. -/
def numberDuplicates (entries : List EntryPoint) : List EntryPoint := numberFrom [] entries

end CallAtlas
