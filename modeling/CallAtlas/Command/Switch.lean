/-
Module: CallAtlas.Command.Switch
Purpose: The commands and the switches of the command line.
Main definitions: Level, Switch, UsageFault
-/
import CallAtlas.Language

namespace CallAtlas.Command

/-- Why arguments do not make a command.  Asking for help or for the version counts as well. -/
inductive UsageFault where
  | helpAsked
  | versionAsked
  | noArguments
  | noCommand
  | unknownCommand
  | unknownArgument
  | missingArgument
  /-- A value that is none of those allowed, or a switch without its value. -/
  | invalidValue
  /-- A value that cannot be read. -/
  | unreadableValue
  /-- A value for a switch that takes none. -/
  | unneededValue
  /-- A switch that may be given once is given again. -/
  | repeated
deriving Repr, DecidableEq, Inhabited

/-- Where an argument stands: before the command, or after one. -/
inductive Level where
  | top
  | analyze
  | languages
deriving Repr, DecidableEq, Inhabited

/-- The switches. -/
inductive Switch where
  | help
  | version
  | verbose
  | config
  | format
  | output
  | skipDir
  | language
  | threads
  | noProgress
deriving Repr, DecidableEq, Inhabited

namespace Switch

/-- All switches. -/
def all : List Switch :=
  [help, version, verbose, config, format, output, skipDir, language, threads, noProgress]

/-- The name after two hyphens. -/
def longName : Switch → String
  | help => "help"
  | version => "version"
  | verbose => "verbose"
  | config => "config"
  | format => "format"
  | output => "output"
  | skipDir => "skip-dir"
  | language => "language"
  | threads => "threads"
  | noProgress => "no-progress"

/-- The letter after one hyphen. -/
def letter? : Switch → Option Char
  | help => some 'h'
  | version => some 'V'
  | verbose => some 'v'
  | config => some 'c'
  | format => some 'f'
  | output => some 'o'
  | language => some 'l'
  | threads => some 'j'
  | skipDir | noProgress => none

/-- Whether a value follows. -/
def takesValue : Switch → Bool
  | config | format | output | skipDir | language | threads => true
  | help | version | verbose | noProgress => false

/-- Whether the switch may be given more than once. -/
def isRepeatable : Switch → Bool
  | skipDir | language => true
  | _ => false

/-- Where the switch may be given. -/
def isAllowed (s : Switch) (level : Level) : Bool :=
  match s with
  | help | verbose => true
  | version => level = .top
  | config | format | output | skipDir | language | threads | noProgress => level = .analyze

/-- The switch of a name at a level. -/
def ofName? (level : Level) (name : String) : Option Switch :=
  all.find? fun s => s.isAllowed level && s.longName = name

/-- The switch of a letter at a level. -/
def ofLetter? (level : Level) (c : Char) : Option Switch :=
  all.find? fun s => s.isAllowed level && s.letter? = some c

end Switch

/-- The largest number of workers that can be given: all 64 bits of a word set. -/
def largestCount : Nat := 18446744073709551615

/-- The number that a row of decimal digits stands for, with or without a plus sign. -/
def count? (value : String) : Option Nat :=
  let t := value.toList
  let digits :=
    match t with
    | '+' :: rest => rest
    | _ => t
  if digits.isEmpty || !digits.all Char.isDigit then none
  else
    some (digits.foldl (fun n c => 10 * n + (c.toNat - '0'.toNat)) 0) |>.filter (· ≤ largestCount)

/-- Checks the value of a switch. -/
def Switch.check (s : Switch) (value : String) : Except UsageFault Unit :=
  match s with
  | config | output => if value.isEmpty then .error .invalidValue else .ok ()
  | language => if (Language.ofId? value).isSome then .ok () else .error .invalidValue
  | threads => if (count? value).isSome then .ok () else .error .unreadableValue
  | _ => .ok ()

end CallAtlas.Command
