/-
Module: CallAtlas.Main
Purpose: The command line: files and arguments in, text and an exit code out.
Main definitions: main
-/
import CallAtlas.Command.Run

namespace CallAtlas.Main

/-- Whether the content of a file of this name matters. -/
def isWanted (name : String) : Bool :=
  configNames.contains name || ((extensionOf? name).bind Language.ofExtension?).isSome

/-- Reads an entry of the file system, and everything below it, onto a disk.  A link is kept as a
link to the real path of its target, which is read as well. -/
partial def load (disk : Disk) (path : String) (always : Bool) : IO Disk := do
  let top ← IO.currentDir
  let file := top / path
  match ← file.symlinkMetadata.toBaseIO with
  | .error _ => return disk
  | .ok found =>
    match found.type with
    | .dir =>
      let mut next := disk.create path (.directory [])
      for e in ← file.readDir do
        next ← load next (joinPath path e.fileName) false
      return next
    | .symlink =>
      let target := (← IO.FS.realPath file).toString
      let next := disk.create path (.link target)
      if (next.locate target true).toBool then return next else load next target always
    | .file =>
      let content ← if always || isWanted (lastName path) then IO.FS.readBinFile file else pure .empty
      return disk.create path (.file content.toList)
    | .other => return disk

/-- Reads the directories on the way to a path onto a disk. -/
def loadWay (disk : Disk) (path : String) : IO Disk := do
  let top ← IO.currentDir
  let mut next := disk
  let mut way := if isAbsolute path then "/" else ""
  for name in (pathNames path).dropLast do
    way := joinPath way name
    if name != ".." && (← (top / way).isDir) then next := next.create way (.directory [])
  return next

/-- The disk that a task works on: the project, the settings file and the place of the output. -/
def diskFor (task : Command.Task) : IO Disk := do
  let here := pathNames (← IO.currentDir).toString
  let mut disk := Disk.empty here
  match task with
  | .languages => return disk
  | .analyze options =>
    for path in options.config.toList ++ options.output.toList ++ [options.path] do
      disk ← loadWay disk path
    for path in options.config.toList ++ options.output.toList do
      disk ← load disk path true
    load disk options.path true

/-- How the command is used. -/
def usage : String :=
  "Usage: flowscan [-v] analyze <PATH> [-c FILE] [-f json|pretty] [-o FILE] [--skip-dir DIR]...\n" ++
  "                [-l LANG]... [-j N] [--no-progress]\n" ++
  "       flowscan [-v] languages\n"

/-- What is printed for arguments that make no command, and the exit code. -/
def explain (fault : Command.UsageFault) : IO UInt32 := do
  match fault with
  | .helpAsked =>
    IO.print usage
    return 0
  | .versionAsked =>
    IO.println ("flowscan " ++ version)
    return 0
  | _ =>
    IO.eprint usage
    return 2

/-- Writes the output of a task where it belongs. -/
def save (task : Command.Task) (outcome : Command.Outcome) : IO Unit := do
  match task, outcome.exit with
  | .analyze options, .ok 0 =>
    match options.output with
    | some path =>
      match outcome.disk.read path with
      | .ok content => IO.FS.writeBinFile path ⟨content.toArray⟩
      | .error _ => return
    | none => return
  | _, _ => return

/-- Runs a task and gives its exit code. -/
def perform (task : Command.Task) : IO UInt32 := do
  let disk ← diskFor task
  let coloured ← (← IO.getStdout).isTty
  let outcome := Command.run disk task coloured
  save task outcome
  IO.print outcome.stdout
  IO.eprint outcome.stderr
  match outcome.exit with
  | .ok code => return code.toUInt32
  | .error message =>
    IO.eprintln ("Error: " ++ message)
    return 2

end CallAtlas.Main

/-- The command line. -/
def main (args : List String) : IO UInt32 := do
  match CallAtlas.Command.parseArguments args with
  | .ok invocation => CallAtlas.Main.perform invocation.task
  | .error fault => CallAtlas.Main.explain fault
