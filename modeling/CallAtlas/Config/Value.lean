/-
Module: CallAtlas.Config.Value
Purpose: Typed values from the nodes of a YAML document.
Main definitions: ReadFault, natural, boolean, string, list, optional, language
-/
import CallAtlas.Language
import CallAtlas.Text.Quoted
import CallAtlas.Yaml.Node

namespace CallAtlas.Value

open CallAtlas.Yaml

/-- What a node looks like to someone who expected something else. -/
inductive Appearance where
  | unit
  | boolean (value : Bool)
  | integer (digits : Text)
  | float (digits : Text)
  | string (value : Text)
  | sequence
  | mapping
deriving Repr, DecidableEq, Inhabited

/-- The text of an appearance. -/
def Appearance.describe : Appearance → String
  | unit => "unit value"
  | boolean value => "boolean \x60" ++ toString value ++ "\x60"
  | integer digits => "integer \x60" ++ String.ofList digits ++ "\x60"
  | float digits => "floating point \x60" ++ String.ofList digits ++ "\x60"
  | string value => "string " ++ String.ofList (Text.quoted value)
  | sequence => "sequence"
  | mapping => "map"

/-- Why a document does not give the settings of a run.  Each cause has the path of the value
concerned, with a colon after it, and its mark. -/
inductive ReadFault where
  | syntaxFault (fault : Fault)
  | wrongType (path : String) (found : Appearance) (expected : String) (mark : Mark)
  | unknownName (path name : String) (known : List String) (mark : Mark)
  | repeatedField (name : String) (mark : Mark)
deriving Repr, DecidableEq, Inhabited

/-- Several names in a row, in back quotes. -/
def namesList (names : List String) : String :=
  ", ".intercalate (names.map fun n => "\x60" ++ n ++ "\x60")

/-- The text of a fault. -/
def ReadFault.message : ReadFault → String
  | syntaxFault fault => fault.message
  | wrongType path found expected mark =>
    path ++ "invalid type: " ++ found.describe ++ ", expected " ++ expected ++ " at " ++
      mark.describe
  | unknownName path name known mark =>
    path ++ "unknown variant \x60" ++ name ++ "\x60, expected one of " ++ namesList known ++
      " at " ++ mark.describe
  | repeatedField name mark => "duplicate field \x60" ++ name ++ "\x60 at " ++ mark.describe

/-- The value of a digit in a base. -/
def digitValue? (base : Nat) (c : Char) : Option Nat :=
  (hexValue? c).filter (· < base)

/-- The number that a row of digits in a base stands for; at least one digit is needed. -/
def number? (base : Nat) (digits : Text) : Option Nat :=
  if digits.isEmpty then none
  else digits.foldl (fun n c => do return base * (← n) + (← digitValue? base c)) (some 0)

/-- The largest number that is read: all 64 bits of a word set. -/
def largest : Nat := 18446744073709551615

/-- The natural number that a plain scalar stands for: decimal without leading zeros, hexadecimal,
octal or binary, with or without a plus sign. -/
def natural? (t : Text) : Option Nat :=
  let unsigned : Text :=
    match t with
    | '+' :: rest => rest
    | _ => t
  let value :=
    match unsigned with
    | '0' :: 'x' :: rest => number? 16 rest
    | '0' :: 'o' :: rest => number? 8 rest
    | '0' :: 'b' :: rest => number? 2 rest
    | '0' :: c :: rest => if (c :: rest).all Char.isDigit then none else number? 10 unsigned
    | _ => number? 10 unsigned
  value.filter (· ≤ largest)

/-- Whether a plain scalar stands for nothing. -/
def isNull (t : Text) : Bool := ["null", "Null", "NULL", "~"].any (·.toList == t)

/-- The truth value that a plain scalar stands for. -/
def boolean? (t : Text) : Option Bool :=
  if ["true", "True", "TRUE"].any (·.toList == t) then some true
  else if ["false", "False", "FALSE"].any (·.toList == t) then some false
  else none

/-- Whether a plain scalar is a decimal number with a fraction or an exponent. -/
def isFloat (t : Text) : Bool :=
  let unsigned := t.dropWhile fun c => c == '-' || c == '+'
  unsigned.any Char.isDigit && unsigned.head?.any (fun c => c.isDigit || c == '.') &&
    unsigned.all fun c => c.isDigit || "+-.eE".toList.contains c

/-- What a plain scalar looks like. -/
def plainAppearance (t : Text) : Appearance :=
  if t.isEmpty || isNull t then .unit
  else
    match boolean? t, natural? t, t with
    | some b, _, _ => .boolean b
    | none, some n, _ => .integer (toString n).toList
    | none, none, '-' :: rest =>
      match natural? rest with
      | some n => .integer ('-' :: (toString n).toList)
      | none => if isFloat t then .float t else .string t
    | none, none, _ => if isFloat t then .float t else .string t

/-- What a node looks like. -/
def appearance : Node → Appearance
  | .scalar value .plain _ _ => plainAppearance value
  | .scalar value _ _ _ => .string value
  | .sequence _ _ => .sequence
  | .mapping _ _ => .mapping

/-- A reader of values at a path. -/
abbrev Reader (α : Type) := String → Node → Except ReadFault α

/-- The fault that a node is not what was expected. -/
def mismatch {α : Type} (path : String) (node : Node) (expected : String) : Except ReadFault α :=
  .error (.wrongType path (appearance node) expected node.mark)

/-- A tag of the standard types, in full. -/
def standardTag (name : String) : Text := "tag:yaml.org,2002:".toList ++ name.toList

/-- The text of a scalar that may stand for a typed value: a plain one, or a literal block with the
tag of the type. -/
def typedText? (typeName : String) : Node → Option Text
  | .scalar value .plain _ _ => some value
  | .scalar value .literal tag _ => if tag == some (standardTag typeName) then some value else none
  | _ => none

/-- A natural number. -/
def natural : Reader Nat := fun path node =>
  match (typedText? "int" node).bind natural? with
  | some n => .ok n
  | none => mismatch path node "usize"

/-- A truth value. -/
def boolean : Reader Bool := fun path node =>
  match (typedText? "bool" node).bind boolean? with
  | some b => .ok b
  | none => mismatch path node "a boolean"

/-- A string: the text of any scalar. -/
def string : Reader String := fun path node =>
  match node with
  | .scalar value _ _ _ => .ok (String.ofList value)
  | _ => mismatch path node "a string"

/-- The items of a list, read in order. -/
def listFrom {α : Type} (item : Reader α) (path : String) :
    Nat → List Node → Except ReadFault (List α)
  | _, [] => .ok []
  | index, node :: more => do
    let front ← item (path ++ "[" ++ toString index ++ "]: ") node
    return front :: (← listFrom item path (index + 1) more)

/-- A list.  A value that is not written down is the empty list. -/
def list {α : Type} (item : Reader α) : Reader (List α) := fun path node =>
  match node with
  | .sequence items _ => listFrom item (String.ofList (path.toList.dropLast.dropLast)) 0 items
  | .scalar [] .plain _ _ => .ok []
  | _ => mismatch path node "a sequence"

/-- A value that may be absent: not written down, or written as nothing. -/
def optional {α : Type} (item : Reader α) : Reader (Option α) := fun path node =>
  match node with
  | .scalar value .plain _ _ =>
    if value.isEmpty || isNull value then .ok none else (item path node).map some
  | _ => (item path node).map some

/-- A language, by its exact name.  A tag of its own may give the name in place of the text. -/
def language : Reader Language := fun path node =>
  let known := Language.all.map (·.id)
  match node with
  | .scalar value style tag mark =>
    let tagged := (tag.filter fun t => t.head? == some '!' && 1 < t.length).map (·.drop 1)
    let name := String.ofList (tagged.getD value)
    let hasValue := !(style == .plain && (value.isEmpty || isNull value))
    match Language.ofId? name with
    | some lang => if tagged.isSome && hasValue then mismatch path node "unit" else .ok lang
    | none => .error (.unknownName path name known mark)
  | _ => mismatch path node "a language name"

end CallAtlas.Value
