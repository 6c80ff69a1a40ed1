/-
Module: CallAtlas.Text.Cut
Purpose: Cuts by byte offsets that say why they fail.
Main definitions: CutError, Checked, Text.cut
-/
import CallAtlas.Text.Basic

namespace CallAtlas

/-- Why a part cannot be cut out. -/
inductive CutError where
  /-- The offset that is taken away is the larger one. -/
  | underflow (first second : Nat)
  /-- The range cannot be cut out of so many bytes, or so many items: it does not lie in them, or
  one of its ends lies inside a character. -/
  | outside (range : Span) (length : Nat)
  /-- The bytes are not UTF-8. -/
  | unreadable (bytes : List UInt8)
deriving Repr, DecidableEq

/-- A result, or the first cut that cannot be made. -/
abbrev Checked := Except CutError

/-- The text of a byte range, or an error where the range cannot be cut. -/
def Text.cut (t : Text) (range : Span) : Checked Text :=
  match t.slice? range with
  | some part => .ok part
  | none => .error (.outside range t.size)

end CallAtlas
