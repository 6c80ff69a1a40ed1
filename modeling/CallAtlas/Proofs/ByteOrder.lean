/-
Module: CallAtlas.Proofs.ByteOrder
Purpose: Texts are in the order of their bytes.  UTF-8 was made so that comparing bytes compares code
  points: of two characters the smaller one has the smaller byte at the first place where their
  bytes differ.
Main results: Utf8.encode_lt_encode_iff
-/
import CallAtlas.Proofs.Encoding

namespace CallAtlas.Utf8

theorem byte_lt {n k : Nat} (less : n < k) (small : k < 256) : UInt8.ofNat n < UInt8.ofNat k := by
  rw [UInt8.lt_iff_toNat_lt, toNat_byte (by omega), toNat_byte small]
  exact less

theorem byte_congr {n k : Nat} (same : n = k) : UInt8.ofNat k = UInt8.ofNat n := by rw [same]

/-- Two byte strings that differ at some place, the first one being smaller there. -/
def DropsBelow (first second : List UInt8) : Prop :=
  ∃ front x y more more', first = front ++ x :: more ∧ second = front ++ y :: more' ∧ x < y

theorem DropsBelow.here {x y : UInt8} {more more' : List UInt8} (less : x < y) :
    DropsBelow (x :: more) (y :: more') := ⟨[], x, y, more, more', rfl, rfl, less⟩

theorem DropsBelow.later {x y : UInt8} {first second : List UInt8} (same : y = x)
    (below : DropsBelow first second) : DropsBelow (x :: first) (y :: second) := by
  obtain ⟨front, a, b, more, more', rfl, rfl, less⟩ := below
  exact ⟨x :: front, a, b, more, more', rfl, by rw [same]; rfl, less⟩

theorem DropsBelow.append_lt {first second : List UInt8} (below : DropsBelow first second)
    (s t : List UInt8) : first ++ s < second ++ t := by
  obtain ⟨front, x, y, more, more', rfl, rfl, less⟩ := below
  rw [List.append_assoc, List.append_assoc]
  induction front with
  | nil => exact List.Lex.rel less
  | cons a front ih => exact List.Lex.cons ih

theorem encodeChar_below {a b : Char} (less : a < b) :
    DropsBelow (String.utf8EncodeChar a) (String.utf8EncodeChar b) := by
  have less : a.val.toNat < b.val.toNat := less
  have valid : b.val.toNat < 0x110000 := by
    have valid := b.valid
    simp only [UInt32.isValidChar, Nat.isValidChar] at valid
    omega
  unfold String.utf8EncodeChar
  generalize a.val.toNat = v at less
  generalize b.val.toNat = w at less valid
  dsimp only
  -- the first byte tells how many there are; among equally many the high bits come first
  by_cases one : w ≤ 0x7f
  · rw [if_pos (by omega), if_pos one]
    exact .here (byte_lt less (by omega))
  rw [if_neg one]
  by_cases two : w ≤ 0x7ff
  · rw [if_pos two]
    split
    · exact .here (byte_lt (by omega) (by omega))
    · rw [if_pos (by omega)]
      by_cases high : v / 64 = w / 64
      · exact .later (byte_congr (by omega)) (.here (byte_lt (by omega) (by omega)))
      · exact .here (byte_lt (by omega) (by omega))
  rw [if_neg two]
  by_cases three : w ≤ 0xffff
  · rw [if_pos three]
    split
    · exact .here (byte_lt (by omega) (by omega))
    split
    · exact .here (byte_lt (by omega) (by omega))
    · rw [if_pos (by omega)]
      by_cases high : v / 4096 = w / 4096
      · refine .later (byte_congr (by omega)) ?_
        by_cases middle : v / 64 = w / 64
        · exact .later (byte_congr (by omega)) (.here (byte_lt (by omega) (by omega)))
        · exact .here (byte_lt (by omega) (by omega))
      · exact .here (byte_lt (by omega) (by omega))
  rw [if_neg three]
  split
  · exact .here (byte_lt (by omega) (by omega))
  split
  · exact .here (byte_lt (by omega) (by omega))
  split
  · exact .here (byte_lt (by omega) (by omega))
  by_cases highest : v / 262144 = w / 262144
  · refine .later (byte_congr (by omega)) ?_
    by_cases high : v / 4096 = w / 4096
    · refine .later (byte_congr (by omega)) ?_
      by_cases middle : v / 64 = w / 64
      · exact .later (byte_congr (by omega)) (.here (byte_lt (by omega) (by omega)))
      · exact .here (byte_lt (by omega) (by omega))
    · exact .here (byte_lt (by omega) (by omega))
  · exact .here (byte_lt (by omega) (by omega))

theorem encode_lt_encode {s t : Text} (less : s < t) : encode s < encode t := by
  induction List.lex_lt.2 less with
  | @nil b t =>
      have some : encode (b :: t) ≠ [] := by
        intro empty
        have size := congrArg List.length empty
        rw [length_encode, Text.size_cons, List.length_nil] at size
        have positive := b.utf8Size_pos
        omega
      cases bytes : encode (b :: t) with
      | nil => exact absurd bytes some
      | cons x more => exact List.Lex.nil
  | @cons a s t below ih =>
      rw [encode_cons, encode_cons]
      have less' := ih (List.lex_lt.1 below)
      induction String.utf8EncodeChar a with
      | nil => exact less'
      | cons x front ih' => exact List.Lex.cons ih'
  | @rel a b s t smaller => exact (encodeChar_below smaller).append_lt _ _

/-- The order of texts, character by character, is the order of their bytes. -/
theorem encode_lt_encode_iff {s t : Text} : encode s < encode t ↔ s < t := by
  constructor
  · intro bytes
    by_cases less : s < t
    · exact less
    · exfalso
      rcases List.le_iff_lt_or_eq.1 (List.not_lt.1 less) with greater | same
      · exact List.lt_asymm bytes (encode_lt_encode greater)
      · rw [same] at bytes
        exact List.lt_irrefl _ bytes
  · exact encode_lt_encode

end CallAtlas.Utf8
