/-
Module: CallAtlas.Text.Quoted
Purpose: Texts quoted for messages.
Main definitions: isHidden, quoted
-/
import CallAtlas.Text.Basic
import CallAtlas.Text.HiddenTable
import CallAtlas.Text.Letter

namespace CallAtlas.Text

/-- Whether a character leaves no mark of its own when printed. -/
def isHidden (c : Char) : Bool :=
  c.toNat < 0x20 || c.toNat == 0x7f || inRanges HiddenTable.ranges c.toNat

/-- A character inside quotes. -/
def quotedChar (c : Char) : Text :=
  match c with
  | '"' => ['\\', '"']
  | '\\' => ['\\', '\\']
  | '\n' => ['\\', 'n']
  | '\r' => ['\\', 'r']
  | '\t' => ['\\', 't']
  | '\x00' => ['\\', '0']
  | c => if isHidden c then ['\\', 'u', '{'] ++ Nat.toDigits 16 c.toNat ++ ['}'] else [c]

/-- A text in double quotes, with quotes, backslashes and characters that leave no mark escaped. -/
def quoted (t : Text) : Text := '"' :: t.flatMap quotedChar ++ ['"']

end CallAtlas.Text
