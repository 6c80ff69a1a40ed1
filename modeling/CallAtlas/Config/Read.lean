/-
Module: CallAtlas.Config.Read
Purpose: The settings of a run from the text of a settings file.
Main definitions: Config.ofNode, Config.parse
-/
import CallAtlas.Config.Basic
import CallAtlas.Config.Value

namespace CallAtlas.Config

open CallAtlas.Value (ReadFault)
open CallAtlas.Yaml (Node)

/-- The names of the fields of a settings file. -/
def fieldNames : List String :=
  [ "skip_dirs", "extra_skip_dirs", "excluded_paths", "languages", "max_cycles", "max_orphans",
    "condition_max_len", "threads", "follow_links" ]

/-- Sets the field with a given name.  Other names mean nothing. -/
def setField (c : Config) (name : String) (node : Node) : Except ReadFault Config :=
  let path := name ++ ": "
  match name with
  | "skip_dirs" => do
    return { c with skipDirs := ← Value.optional (Value.list Value.string) path node }
  | "extra_skip_dirs" => do
    return { c with extraSkipDirs := ← Value.list Value.string path node }
  | "excluded_paths" => do
    return { c with excludedPaths := ← Value.list Value.string path node }
  | "languages" => do return { c with languages := ← Value.list Value.language path node }
  | "max_cycles" => do return { c with maxCycles := ← Value.natural path node }
  | "max_orphans" => do return { c with maxOrphans := ← Value.natural path node }
  | "condition_max_len" => do return { c with conditionLimit := ← Value.natural path node }
  | "threads" => do return { c with threads := ← Value.optional Value.natural path node }
  | "follow_links" => do return { c with followLinks := ← Value.boolean path node }
  | _ => .ok c

/-- Sets the fields of several pairs in order.  No known field may be given twice. -/
def setFields : Config → List String → List (Node × Node) → Except ReadFault Config
  | c, _, [] => .ok c
  | c, seen, (key, value) :: more => do
    let name ← Value.string "" key
    if seen.contains name && fieldNames.contains name then
      .error (.repeatedField name key.mark)
    else setFields (← c.setField name value) (name :: seen) more

/-- The settings in a document.  A document without content leaves the usual ones. -/
def ofNode : Node → Except ReadFault Config
  | .mapping pairs _ => standard.setFields [] pairs
  | .scalar [] .plain _ _ => .ok standard
  | node => Value.mismatch "" node "a map"

/-- The settings in a text. -/
def parse (t : Text) : Except ReadFault Config :=
  match Yaml.parse t with
  | .error fault => .error (.syntaxFault fault)
  | .ok none => .ok standard
  | .ok (some node) => ofNode node

end CallAtlas.Config
