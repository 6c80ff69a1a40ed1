/-
Module: CallAtlas.Proofs.BlockNesting
Purpose: Blocks of one pair of delimiters are nested or apart, from wherever they are searched for.
  A block ends where the depth counted from its own opening delimiter returns to zero.  Depths that
  are counted from two places differ by the depth between the places, which is positive inside the
  earlier block, so the later block has to end first.
Main definitions: Block.InBodyOf
Main results: depthBehind_split, Block.Matching.eq_of_opening_eq, Block.Matching.behind_or_inside,
  braced_blocks_are_laminar
-/
import CallAtlas.Proofs.BraceMatching

namespace CallAtlas

/-- A block lies, delimiters included, between the delimiters of another one. -/
structure Block.InBodyOf (inner outer : Block) : Prop where
  opens : outer.bodyStart ≤ inner.opening
  closes : inner.stop ≤ outer.close

/-- Depths add up: from `start` to a place in between, and from there on. -/
theorem depthBehind_split {opening closing : UInt8} {bytes : List UInt8} {start middle n : Nat}
    (before : start < middle) (behind : middle ≤ n) :
    depthBehind opening closing bytes start n =
      depthBehind opening closing bytes start (middle - 1) +
        depthBehind opening closing bytes middle n := by
  have width : n + 1 - start = (middle - start) + (n + 1 - middle) := by omega
  have front : middle - 1 + 1 - start = middle - start := by omega
  have place : start + (middle - start) = middle := by omega
  simp only [depthBehind, front]
  rw [width, List.take_add, List.drop_drop, place, List.count_append, List.count_append]
  omega

namespace Block.Matching

variable {t : Text} {start start' : Nat} {opening closing : Char} {b b' : Block}

/-- Two blocks that open at one place are the same block. -/
theorem eq_of_opening_eq (matching : b.Matching t start opening closing)
    (matching' : b'.Matching t start' opening closing) (same : b.opening = b'.opening) :
    b = b' := by
  have sameClose : b.close = b'.close := by
    rcases Nat.lt_trichotomy b.close b'.close with less | same' | greater
    · -- the longer block would have nothing open inside it
      have isOpen := matching'.isOpen b.close (same ▸ Nat.le_of_lt matching.opensBefore) less
      rw [← same, matching.closes] at isOpen
      exact absurd isOpen (Int.lt_irrefl 0)
    · exact same'
    · have isOpen := matching.isOpen b'.close (same ▸ Nat.le_of_lt matching'.opensBefore) greater
      rw [same, matching'.closes] at isOpen
      exact absurd isOpen (Int.lt_irrefl 0)
  have sameStart : b.bodyStart = b'.bodyStart := by
    rw [matching.bodyStart, matching'.bodyStart, same]
  have sameStop : b.stop = b'.stop := by
    rw [matching.stop, matching'.stop, sameClose]
  have sameBody : b.body = b'.body := by
    have body := matching.body
    rw [Block.bodySpan, sameStart, sameClose] at body
    exact Option.some.inj (body.symm.trans matching'.body)
  cases b
  cases b'
  exact (Block.mk.injEq ..).mpr ⟨same, sameStart, sameClose, sameStop, sameBody⟩

/-- A block that opens later lies behind the earlier one or in its body. -/
theorem behind_or_inside (matching : b.Matching t start opening closing)
    (matching' : b'.Matching t start' opening closing) (later : b.opening < b'.opening) :
    b.stop ≤ b'.opening ∨ b'.InBodyOf b := by
  rcases Nat.lt_or_ge b.close b'.opening with behind | within
  · exact Or.inl (by rw [matching.stop]; exact behind)
  · -- what the earlier block has open where the later one opens is still to be closed
    have between := matching.isOpen (b'.opening - 1) (by omega) (by omega)
    have closed := matching.closes
    rw [depthBehind_split later within] at closed
    have shorter : b'.close < b.close := by
      rcases Nat.lt_trichotomy b'.close b.close with less | same | greater
      · exact less
      · have closed' := matching'.closes
        rw [same] at closed'
        omega
      · have isOpen := matching'.isOpen b.close within greater
        omega
    refine Or.inr ⟨?_, ?_⟩
    · rw [matching.bodyStart]
      exact later
    · rw [matching'.stop]
      exact shorter

end Block.Matching

/-- For any text, any two different ASCII delimiters and any two offsets to start from, the blocks
that are found are one and the same, or one ends before the other opens, or one lies in the body of
the other. -/
theorem braced_blocks_are_laminar (t : Text) {opening closing : Char} (asciiO : IsAscii opening)
    (asciiC : IsAscii closing) (differ : opening ≠ closing) {start start' : Nat} {b b' : Block}
    (found : Block.braced? t start opening closing = some b)
    (found' : Block.braced? t start' opening closing = some b') :
    b = b' ∨ (b.stop ≤ b'.opening ∨ b'.stop ≤ b.opening) ∨ (b.InBodyOf b' ∨ b'.InBodyOf b) := by
  have matching := Block.braced?_matching asciiO asciiC differ found
  have matching' := Block.braced?_matching asciiO asciiC differ found'
  rcases Nat.lt_trichotomy b.opening b'.opening with later | same | earlier
  · rcases matching.behind_or_inside matching' later with behind | inside
    · exact Or.inr (Or.inl (Or.inl behind))
    · exact Or.inr (Or.inr (Or.inr inside))
  · exact Or.inl (matching.eq_of_opening_eq matching' same)
  · rcases matching'.behind_or_inside matching earlier with behind | inside
    · exact Or.inr (Or.inl (Or.inr behind))
    · exact Or.inr (Or.inr (Or.inl inside))

/-- The text closes one block too many, and the second search starts inside a character. -/
theorem braced_blocks_are_laminar_siblings :
    Block.braced? "(é(a)é(b)))".toList 0 '(' ')' = some ⟨0, 1, 11, 12, "é(a)é(b)".toList⟩ ∧
      Block.braced? "(é(a)é(b)))".toList 7 '(' ')' = some ⟨8, 9, 10, 11, ['b']⟩ ∧
      Block.InBodyOf ⟨8, 9, 10, 11, ['b']⟩ ⟨0, 1, 11, 12, "é(a)é(b)".toList⟩ := by
  have found : Block.braced? "(é(a)é(b)))".toList 0 '(' ')' =
      some ⟨0, 1, 11, 12, "é(a)é(b)".toList⟩ := by
    decide
  have found' : Block.braced? "(é(a)é(b)))".toList 7 '(' ')' = some ⟨8, 9, 10, 11, ['b']⟩ := by
    decide
  refine ⟨found, found', ?_⟩
  rcases braced_blocks_are_laminar _ (by decide) (by decide) (by decide) found found' with
    same | apart | inside | inside
  · cases same
  · exact absurd apart (by decide)
  · exact absurd inside.opens (by decide)
  · exact inside

end CallAtlas
