/-
Module: CallAtlas.Block.Keywords
Purpose: Blocks between an opening and a closing statement.
Main definitions: KeywordPair, KeywordPair.next?, KeywordScan, KeywordScan.step, KeywordScan.run,
  Block.keyword?
-/
import CallAtlas.Block.Basic
import CallAtlas.Pattern.Search

namespace CallAtlas

/-- The patterns of the statements that open and close a block. -/
structure KeywordPair where
  opener : Pattern
  closer : Pattern

/-- A statement at which a block opens or closes. -/
inductive BlockBound where
  | opening (m : Match)
  | closing (m : Match)
deriving Repr, DecidableEq, Inhabited

/-- The statement that comes next from a cursor on.  An opening one counts if it starts before the
next closing one; behind the last closing one nothing counts. -/
def KeywordPair.next? (pair : KeywordPair) (c : Cursor) : Option BlockBound :=
  match pair.closer.searchFrom? c with
  | none => none
  | some closing =>
    match pair.opener.searchFrom? c with
    | none => some (.closing closing)
    | some opening =>
      if opening.start < closing.start then some (.opening opening) else some (.closing closing)

/-- A scan for the end of a block: how many statements are open, and where it goes on. -/
structure KeywordScan where
  depth : Nat
  place : Cursor
deriving Repr, DecidableEq, Inhabited

namespace KeywordScan

/-- One step of a scan.  A scan is over if nothing comes next, or if what comes next closes the only
open statement. -/
def step (pair : KeywordPair) (s : KeywordScan) : Option KeywordScan :=
  match pair.next? s.place with
  | none => none
  | some (.opening m) => some ⟨s.depth + 1, m.resume⟩
  | some (.closing m) => if s.depth ≤ 1 then none else some ⟨s.depth - 1, m.resume⟩

/-- The closing statement that ends a scan, for a scan that is over. -/
def closing? (pair : KeywordPair) (s : KeywordScan) : Option Match :=
  match pair.next? s.place with
  | some (.closing m) => some m
  | _ => none

/-- Steps until the scan is over.  `fuel` is a text longer than what is left: every step passes a
character. -/
def run (pair : KeywordPair) : Text → KeywordScan → Option Match
  | [], _ => none
  | _ :: fuel, s =>
    match s.step pair with
    | some next => next |>.run pair fuel
    | none => s.closing? pair

end KeywordScan

/-- The block of the first opening statement at or after a byte offset.  The body starts where the
opening statement ends.  There is no block if nothing opens, or what opens is never closed. -/
def Block.keyword? (t : Text) (start : Nat) (pair : KeywordPair) : Option Block := do
  let c ← Cursor.ofOffset? t start
  let opening ← pair.opener.searchFrom? c
  let closing ← KeywordScan.run pair t ⟨1, opening.after⟩
  let body ← t.slice? ⟨opening.stop, closing.start⟩
  return ⟨opening.start, opening.stop, closing.start, closing.stop, body⟩

end CallAtlas
