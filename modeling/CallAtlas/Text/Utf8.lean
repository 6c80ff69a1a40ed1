/-
Module: CallAtlas.Text.Utf8
Purpose: Texts and bytes: encoding, decoding with replacement, decoding of source files.
Main definitions: encode, decodeLossy, decode?, decodeLatin, decodeSource?
-/
import CallAtlas.Text.Basic

namespace CallAtlas.Utf8

/-!
`decodeLossy` reads the longest valid sequences and puts one replacement character for each maximal
run of bytes that starts a character and cannot finish it.  A byte string is valid exactly when this
reading changes nothing, which is how `decode?` is defined.
-/

/-- The UTF-8 form of a text. -/
def encode (t : Text) : List UInt8 := t.flatMap String.utf8EncodeChar

/-- The character that stands for bytes that cannot be read. -/
def replacement : Char := '�'

/-- Whether a byte lies between two bounds. -/
def within (low high b : UInt8) : Bool := low ≤ b && b ≤ high

/-- Whether a byte continues a character. -/
def isTail (b : UInt8) : Bool := within 0x80 0xbf b

/-- The bounds of the second byte of a character of three bytes. -/
def secondOfThree (lead : UInt8) : UInt8 × UInt8 :=
  if lead == 0xe0 then (0xa0, 0xbf) else if lead == 0xed then (0x80, 0x9f) else (0x80, 0xbf)

/-- The bounds of the second byte of a character of four bytes. -/
def secondOfFour (lead : UInt8) : UInt8 × UInt8 :=
  if lead == 0xf0 then (0x90, 0xbf) else if lead == 0xf4 then (0x80, 0x8f) else (0x80, 0xbf)

/-- The low six bits of a continuation byte. -/
def low6 (b : UInt8) : Nat := b.toNat % 64

/-- Reads bytes as UTF-8, with one replacement character for each maximal invalid part. -/
def decodeLossy : List UInt8 → Text
  | [] => []
  | a :: bs =>
    if a < 0x80 then Char.ofNat a.toNat :: decodeLossy bs
    else if within 0xc2 0xdf a then
      match bs with
      | b :: cs =>
        if isTail b then Char.ofNat (a.toNat % 32 * 64 + low6 b) :: decodeLossy cs
        else replacement :: decodeLossy (b :: cs)
      | [] => [replacement]
    else if within 0xe0 0xef a then
      match bs with
      | b :: cs =>
        if within (secondOfThree a).1 (secondOfThree a).2 b then
          match cs with
          | c :: ds =>
            if isTail c then
              Char.ofNat (a.toNat % 16 * 4096 + low6 b * 64 + low6 c) :: decodeLossy ds
            else replacement :: decodeLossy (c :: ds)
          | [] => [replacement]
        else replacement :: decodeLossy (b :: cs)
      | [] => [replacement]
    else if within 0xf0 0xf4 a then
      match bs with
      | b :: cs =>
        if within (secondOfFour a).1 (secondOfFour a).2 b then
          match cs with
          | c :: ds =>
            if isTail c then
              match ds with
              | d :: es =>
                if isTail d then
                  Char.ofNat (a.toNat % 8 * 262144 + low6 b * 4096 + low6 c * 64 + low6 d) ::
                    decodeLossy es
                else replacement :: decodeLossy (d :: es)
              | [] => [replacement]
            else replacement :: decodeLossy (c :: ds)
          | [] => [replacement]
        else replacement :: decodeLossy (b :: cs)
      | [] => [replacement]
    else replacement :: decodeLossy bs

/-- Reads bytes as UTF-8 if they are valid. -/
def decode? (bytes : List UInt8) : Option Text :=
  let t := decodeLossy bytes
  if encode t = bytes then some t else none

/-- Reads every byte as the code point of its value. -/
def decodeLatin (bytes : List UInt8) : Text := bytes.map fun b => Char.ofNat b.toNat

/-- Reads a source file.  A zero byte marks a binary file, which is no source; bytes that are not
UTF-8 are read one by one. -/
def decodeSource? (bytes : List UInt8) : Option Text :=
  if bytes.contains 0 then none else some ((decode? bytes).getD (decodeLatin bytes))

end CallAtlas.Utf8
