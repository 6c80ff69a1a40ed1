/-
Module: CallAtlas.Document.Json
Purpose: JSON values and their printed form.
Main definitions: Json, quote, Json.render
-/
import CallAtlas.Text.Basic

namespace CallAtlas

/-- A JSON value.  The fields of an object keep their order. -/
inductive Json where
  | null
  | bool (value : Bool)
  | number (value : Nat)
  | string (value : String)
  | array (items : List Json)
  | object (fields : List (String × Json))
deriving Repr, Inhabited

namespace Json

/-- The value of an option: `null` if there is none. -/
def ofOption (value : Option Json) : Json := value.getD null

/-- A list of strings. -/
def strings (items : List String) : Json := array (items.map string)

/-- A string that may be absent. -/
def string? (value : Option String) : Json := ofOption (value.map string)

/-- The lower-case hexadecimal digit of a number below sixteen. -/
def hexDigit (n : Nat) : Char := "0123456789abcdef".toList.getD n '0'

/-- A character inside a quoted string.  Quotes, backslashes and control characters are escaped. -/
def escape (c : Char) : Text :=
  match c with
  | '"' => ['\\', '"']
  | '\\' => ['\\', '\\']
  | '\x08' => ['\\', 'b']
  | '\x0c' => ['\\', 'f']
  | '\n' => ['\\', 'n']
  | '\r' => ['\\', 'r']
  | '\t' => ['\\', 't']
  | c =>
    if c.toNat < 0x20 then ['\\', 'u', '0', '0', hexDigit (c.toNat / 16), hexDigit (c.toNat % 16)]
    else [c]

/-- A quoted string. -/
def quote (s : String) : Text := '"' :: s.toList.flatMap escape ++ ['"']

/-- A new line at a depth of nesting, two spaces for each level. -/
def newLine (depth : Nat) : Text := '\n' :: List.replicate (2 * depth) ' '

mutual

/-- The printed form of a value at a depth of nesting. -/
def renderAt (depth : Nat) : Json → Text
  | null => "null".toList
  | bool true => "true".toList
  | bool false => "false".toList
  | number n => (toString n).toList
  | string s => quote s
  | array [] => "[]".toList
  | array (item :: items) =>
    '[' :: renderItems (depth + 1) (item :: items) ++ newLine depth ++ [']']
  | object [] => ['{', '}']
  | object (field :: fields) =>
    '{' :: renderFields (depth + 1) (field :: fields) ++ newLine depth ++ ['}']

/-- The items of an array, each on a line of its own. -/
def renderItems (depth : Nat) : List Json → Text
  | [] => []
  | [item] => newLine depth ++ renderAt depth item
  | item :: items => newLine depth ++ renderAt depth item ++ ',' :: renderItems depth items

/-- The fields of an object, each on a line of its own. -/
def renderFields (depth : Nat) : List (String × Json) → Text
  | [] => []
  | [(key, value)] => newLine depth ++ quote key ++ ':' :: ' ' :: renderAt depth value
  | (key, value) :: fields =>
    newLine depth ++ quote key ++ ':' :: ' ' :: renderAt depth value ++
      ',' :: renderFields depth fields

end

/-- The printed form of a value, with two spaces of indentation for each level. -/
def render (value : Json) : String := String.ofList (renderAt 0 value)

end Json

end CallAtlas
