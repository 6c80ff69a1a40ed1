/-
Module: CallAtlas.Glob.Basic
Purpose: Glob patterns and the paths they match.
Main definitions: GlobToken, Glob, Glob.isMatch
-/
import CallAtlas.Text.Utf8

namespace CallAtlas

/-- One part of a glob pattern. -/
inductive GlobToken where
  | literal (c : Char)
  /-- `?`: any one byte. -/
  | any
  /-- `*`: any bytes. -/
  | star
  /-- `**/` at the start: nothing, or anything up to a slash. -/
  | leading
  /-- `/**` at the end: a slash and anything after it. -/
  | trailing
  /-- `/**/`: a slash, or anything between two slashes. -/
  | between
  /-- `[…]`: one byte in, or not in, the given ranges of characters. -/
  | set (negated : Bool) (ranges : List (Char × Char))
  /-- `{…,…}`: one of several patterns. -/
  | alternates (branches : List (List GlobToken))
deriving Repr, Inhabited

/-- A glob pattern. -/
structure Glob where
  tokens : List GlobToken
deriving Repr, Inhabited

namespace Glob

/-- The end of a path that is still to be matched. -/
abbrev Remainder := List UInt8

/-- The byte ranges of a range of characters.  Sets match bytes: of a character of several bytes
each one counts for itself, and a range of two characters reaches from the last byte of the first
to the first byte of the second. -/
def byteRanges (low high : Char) : List (UInt8 × UInt8) :=
  let front := String.utf8EncodeChar low
  let back := String.utf8EncodeChar high
  let single := fun b : UInt8 => (b, b)
  if low = high then front.map single
  else
    front.dropLast.map single ++ [(front.getLastD 0, back.headD 0)] ++ back.tail.map single

/-- Whether a byte is in one of several ranges of characters. -/
def inSet (ranges : List (Char × Char)) (b : UInt8) : Bool :=
  ranges.any fun (low, high) => (byteRanges low high).any fun (l, h) => l ≤ b && b ≤ h

/-- The byte of a slash. -/
def slash : UInt8 := 0x2f

/-- What may follow any bytes. -/
def tails : Remainder → List Remainder
  | [] => [[]]
  | b :: s => (b :: s) :: tails s

/-- What may follow any bytes that end with a slash. -/
def afterSlashes : Remainder → List Remainder
  | [] => []
  | b :: s => if b = slash then s :: afterSlashes s else afterSlashes s

/-- What follows the given bytes at the start. -/
def afterBytes (bytes s : Remainder) : List Remainder :=
  if bytes.isPrefixOf s then [s.drop bytes.length] else []

mutual

/-- Whether a part stands for nothing at all. -/
def vanishes : GlobToken → Bool
  | .alternates branches => allVanish branches
  | _ => false

/-- Whether all parts of a branch stand for nothing. -/
def branchVanishes : List GlobToken → Bool
  | [] => true
  | t :: ts => vanishes t && branchVanishes ts

/-- Whether all branches stand for nothing. -/
def allVanish : List (List GlobToken) → Bool
  | [] => true
  | b :: bs => branchVanishes b && allVanish bs

end

mutual

/-- What may follow a part. -/
def ends (t : GlobToken) (s : Remainder) : List Remainder :=
  match t with
  | .literal c => afterBytes (String.utf8EncodeChar c) s
  | .any => s.tail?.toList
  | .star => tails s
  | .leading => s :: afterSlashes s
  | .trailing => (afterBytes [slash] s).flatMap tails
  | .between => (afterBytes [slash] s).flatMap fun rest => rest :: afterSlashes rest
  | .set negated ranges =>
    match s with
    | b :: rest => if inSet ranges b != negated then [rest] else []
    | [] => []
  | .alternates branches => if allVanish branches then [s] else branchEnds branches s

/-- What may follow a row of parts, from any of several places. -/
def endsAll (ts : List GlobToken) (places : List Remainder) : List Remainder :=
  match ts with
  | [] => places
  | t :: more => endsAll more (places.flatMap fun s => ends t s).eraseDups

/-- What may follow one of several branches.  Branches that stand for nothing do not count. -/
def branchEnds (branches : List (List GlobToken)) (s : Remainder) : List Remainder :=
  match branches with
  | [] => []
  | b :: more => (if branchVanishes b then [] else endsAll b [s]) ++ branchEnds more s

end

/-- Whether a pattern matches the whole of a path.  `**` alone matches everything. -/
def isMatch (g : Glob) (path : String) : Bool :=
  match g.tokens with
  | [.leading] => true
  | tokens => (endsAll tokens [Utf8.encode path.toList]).any List.isEmpty

end Glob

end CallAtlas
