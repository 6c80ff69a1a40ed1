/-
Module: CallAtlas.Atlas.Resolution
Purpose: Which function a callee name stands for.
Main definitions: NameTable, Resolver, Resolution, Resolver.resolve, Resolver.apply
-/
import CallAtlas.Record.Call

namespace CallAtlas

/-!
Names are resolved by text alone: first the whole callee among the qualified names, then its last
part among the short names.  Of several functions with one name the last one registered counts.
-/

/-- Ids by name, the last one registered first. -/
abbrev NameTable := List (String × String)

namespace NameTable

/-- Registers an id under a name. -/
def register (table : NameTable) (name id : String) : NameTable := (name, id) :: table

/-- The id last registered under a name. -/
def get? (table : NameTable) (name : String) : Option String := table.lookup name

/-- Each name once, with the id it stands for. -/
def toList (table : NameTable) : List (String × String) :=
  (table.map (·.1)).eraseDups.filterMap fun name => (get? table name).map (name, ·)

end NameTable

/-- What a callee stands for. -/
inductive Resolution where
  /-- The function with this id. -/
  | direct (id : String)
  /-- Nothing known; the callee as it is written. -/
  | external (name : String)
deriving Repr, DecidableEq, Inhabited

namespace Resolution

/-- The type of a call with this resolution. -/
def callType : Resolution → CallType
  | direct _ => .direct
  | external _ => .external

/-- The callee id of a call with this resolution.  What is not known gets an id of its own. -/
def calleeId : Resolution → String
  | direct id => id
  | external name => "external_" ++ name

end Resolution

/-- The names of all functions. -/
structure Resolver where
  qualified : NameTable
  short : NameTable
deriving Repr, DecidableEq, Inhabited

namespace Resolver

/-- Registers a function under both of its names. -/
def add (r : Resolver) (f : Function) : Resolver :=
  ⟨r.qualified.register f.qualifiedName f.id, r.short.register f.name f.id⟩

/-- The names of a list of functions, registered in order. -/
def ofFunctions (functions : List Function) : Resolver := functions.foldl add ⟨[], []⟩

/-- What a callee stands for. -/
def resolve (r : Resolver) (callee : String) : Resolution :=
  match r.qualified.get? callee with
  | some id => .direct id
  | none =>
    match r.short.get? (lastSegment callee) with
    | some id => .direct id
    | none => .external callee

/-- A call with its callee resolved. -/
def applyTo (r : Resolver) (call : Call) : Call :=
  let resolution := r.resolve call.calleeName
  { call with calleeId := some resolution.calleeId, callType := some resolution.callType }

/-- Calls with their callees resolved. -/
def apply (r : Resolver) (calls : List Call) : List Call := calls.map r.applyTo

end Resolver

end CallAtlas
