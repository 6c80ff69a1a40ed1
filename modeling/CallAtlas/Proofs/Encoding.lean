/-
Module: CallAtlas.Proofs.Encoding
Purpose: Texts and their bytes.  Offsets count bytes, texts are lists of characters: a cut of a text
  at a byte offset is a split of the list, and reading the bytes of a text gives the text back.
Main definitions: Text.IsBoundary
Main results: Text.from?_eq_some_iff, Text.slice?_eq_some_iff, Utf8.decodeLossy_encode,
  Utf8.toNat_eq_of_mem_utf8EncodeChar
-/
import CallAtlas.Text.Utf8

namespace CallAtlas

namespace Text

/-! ### Sizes -/

@[simp] theorem size_nil : size [] = 0 := rfl

@[simp] theorem size_cons (c : Char) (t : Text) : size (c :: t) = c.utf8Size + size t := rfl

@[simp] theorem size_append (s t : Text) : size (s ++ t) = size s + size t := by
  induction s with
  | nil => simp
  | cons c s ih => simp [ih, Nat.add_assoc]

@[simp] theorem size_spaces (n : Nat) : size (List.replicate n ' ') = n := by
  induction n with
  | zero => rfl
  | succ n ih =>
      have one : ' '.utf8Size = 1 := rfl
      rw [List.replicate_succ, size_cons, ih, one, Nat.add_comm]

theorem eq_nil_of_size_eq_zero {t : Text} (empty : size t = 0) : t = [] := by
  cases t with
  | nil => rfl
  | cons c t =>
      have positive := c.utf8Size_pos
      rw [size_cons] at empty
      omega

/-- Two splits of one text at the same offset are the same split. -/
theorem append_inj_of_size {p q s r : Text} (same : p ++ s = q ++ r) (size_eq : size p = size q) :
    p = q ∧ s = r := by
  induction p generalizing q with
  | nil =>
      have empty : q = [] := eq_nil_of_size_eq_zero size_eq.symm
      subst empty
      exact ⟨rfl, same⟩
  | cons c p ih =>
      cases q with
      | nil =>
          have positive := c.utf8Size_pos
          rw [size_cons, size_nil] at size_eq
          omega
      | cons d q =>
          rw [List.cons_append, List.cons_append, List.cons.injEq] at same
          obtain ⟨rfl, same⟩ := same
          rw [size_cons, size_cons] at size_eq
          obtain ⟨rfl, rfl⟩ := ih same (by omega)
          exact ⟨rfl, rfl⟩

/-! ### Cuts -/

/-- A byte offset between two characters of a text, or at one of its ends. -/
def IsBoundary (t : Text) (n : Nat) : Prop := ∃ p s, t = p ++ s ∧ size p = n

theorem isBoundary_append (p s : Text) : IsBoundary (p ++ s) (size p) := ⟨p, s, rfl, rfl⟩

theorem IsBoundary.le_size {t : Text} {n : Nat} (boundary : t.IsBoundary n) : n ≤ size t := by
  obtain ⟨p, s, rfl, rfl⟩ := boundary
  rw [size_append]
  omega

/-- No boundary lies inside a character. -/
theorem IsBoundary.le_or_ge {p s : Text} {c : Char} {n : Nat}
    (boundary : IsBoundary (p ++ c :: s) n) : n ≤ size p ∨ size p + c.utf8Size ≤ n := by
  obtain ⟨q, r, split, rfl⟩ := boundary
  rcases List.append_eq_append_iff.1 split with ⟨front, rfl, _⟩ | ⟨back, rfl, cut⟩
  · cases front with
    | nil => simp
    | cons d front =>
        next cut =>
          rw [List.cons_append, List.cons.injEq] at cut
          right
          simp [cut.1]
  · left
    simp

theorem from?_append (p s : Text) : from? (size p) (p ++ s) = some s := by
  induction p with
  | nil => simp [from?]
  | cons c p ih =>
      have positive := c.utf8Size_pos
      obtain ⟨n, width⟩ : ∃ n, size (c :: p) = n + 1 := ⟨size (c :: p) - 1, by simp; omega⟩
      rw [List.cons_append, width, from?, if_pos (by simp at width; omega), ← ih]
      congr 1
      simp at width
      omega

theorem from?_eq_some_iff {t s : Text} {n : Nat} :
    from? n t = some s ↔ ∃ p, t = p ++ s ∧ size p = n := by
  constructor
  · intro cut
    induction t generalizing n with
    | nil =>
        cases n with
        | zero =>
            rw [from?, Option.some.injEq] at cut
            exact ⟨[], by simpa using cut, rfl⟩
        | succ n => cases cut
    | cons c t ih =>
        cases n with
        | zero =>
            rw [from?, Option.some.injEq] at cut
            exact ⟨[], by simpa using cut, rfl⟩
        | succ n =>
            rw [from?] at cut
            split at cut
            · obtain ⟨p, rfl, width⟩ := ih cut
              exact ⟨c :: p, rfl, by rw [size_cons]; omega⟩
            · cases cut
  · rintro ⟨p, rfl, rfl⟩
    exact from?_append p s

theorem upTo?_append (p s : Text) : upTo? (size p) (p ++ s) = some p := by
  induction p with
  | nil => simp [upTo?]
  | cons c p ih =>
      have positive := c.utf8Size_pos
      obtain ⟨n, width⟩ : ∃ n, size (c :: p) = n + 1 := ⟨size (c :: p) - 1, by simp; omega⟩
      have left : n + 1 - c.utf8Size = size p := by
        rw [size_cons] at width
        omega
      rw [List.cons_append, width, upTo?, if_pos (by rw [size_cons] at width; omega), left, ih]
      rfl

theorem upTo?_eq_some_iff {t p : Text} {n : Nat} :
    upTo? n t = some p ↔ ∃ s, t = p ++ s ∧ size p = n := by
  constructor
  · intro cut
    induction t generalizing n p with
    | nil =>
        cases n with
        | zero =>
            rw [upTo?, Option.some.injEq] at cut
            exact ⟨[], by simp [← cut], by simp [← cut]⟩
        | succ n => cases cut
    | cons c t ih =>
        cases n with
        | zero =>
            rw [upTo?, Option.some.injEq] at cut
            exact ⟨c :: t, by simp [← cut], by simp [← cut]⟩
        | succ n =>
            rw [upTo?] at cut
            split at cut
            · obtain ⟨p, front, rfl⟩ := Option.map_eq_some_iff.1 cut
              obtain ⟨s, rfl, width⟩ := ih front
              exact ⟨s, rfl, by rw [size_cons]; omega⟩
            · cases cut
  · rintro ⟨s, rfl, rfl⟩
    exact upTo?_append p s

/-- A text can be cut at its boundaries. -/
theorem isSome_from?_iff {t : Text} {n : Nat} : (t.from? n).isSome = true ↔ t.IsBoundary n := by
  rw [Option.isSome_iff_exists]
  constructor
  · rintro ⟨s, cut⟩
    obtain ⟨p, split, width⟩ := from?_eq_some_iff.1 cut
    exact ⟨p, s, split, width⟩
  · rintro ⟨p, s, split, width⟩
    exact ⟨s, from?_eq_some_iff.2 ⟨p, split, width⟩⟩

theorem isSome_upTo?_iff {t : Text} {n : Nat} : (t.upTo? n).isSome = true ↔ t.IsBoundary n := by
  rw [Option.isSome_iff_exists]
  constructor
  · rintro ⟨p, cut⟩
    obtain ⟨s, split, width⟩ := upTo?_eq_some_iff.1 cut
    exact ⟨p, s, split, width⟩
  · rintro ⟨p, s, split, width⟩
    exact ⟨p, upTo?_eq_some_iff.2 ⟨s, split, width⟩⟩

/-- A range that can be cut is a part of the text between two boundaries. -/
theorem slice?_eq_some_iff {t q : Text} {range : Span} :
    t.slice? range = some q ↔
      ∃ p s, t = p ++ (q ++ s) ∧ range = ⟨size p, size p + size q⟩ := by
  rw [slice?]
  constructor
  · intro cut
    split at cut
    · next ordered =>
        obtain ⟨r, behind, front⟩ := Option.bind_eq_some_iff.1 cut
        obtain ⟨p, rfl, start⟩ := from?_eq_some_iff.1 behind
        obtain ⟨s, rfl, width⟩ := upTo?_eq_some_iff.1 front
        refine ⟨p, s, rfl, ?_⟩
        cases range
        simp only at start width ordered
        congr <;> omega
    · cases cut
  · rintro ⟨p, s, rfl, rfl⟩
    rw [if_pos (Nat.le_add_right _ _), from?_append, Option.bind_some, Nat.add_sub_cancel_left]
    exact upTo?_append q s

/-- Two boundaries of a text, in order, cut out the part between them. -/
theorem IsBoundary.between {t : Text} {n k : Nat} (first : t.IsBoundary n)
    (second : t.IsBoundary k) (ordered : n ≤ k) :
    ∃ p q s, t = p ++ (q ++ s) ∧ size p = n ∧ size q = k - n := by
  obtain ⟨p, r, rfl, rfl⟩ := first
  obtain ⟨p', s, split, rfl⟩ := second
  rcases List.append_eq_append_iff.1 split with ⟨q, rfl, rfl⟩ | ⟨q, rfl, rfl⟩
  · exact ⟨p, q, s, rfl, rfl, by simp⟩
  · -- the second boundary is not before the first one, so nothing is between them
    have empty : q = [] := by
      apply eq_nil_of_size_eq_zero
      rw [size_append] at ordered
      omega
    subst empty
    exact ⟨p', [], r, by simp, by simp, by simp⟩

theorem IsBoundary.isSome_slice? {t : Text} {n k : Nat} (first : t.IsBoundary n)
    (second : t.IsBoundary k) (ordered : n ≤ k) : (t.slice? ⟨n, k⟩).isSome := by
  obtain ⟨p, q, s, split, atStart, width⟩ := first.between second ordered
  refine Option.isSome_of_eq_some (slice?_eq_some_iff.2 ⟨p, s, split, ?_⟩)
  rw [atStart, width, Nat.add_sub_cancel' ordered]

theorem slice_eq {p q s : Text} : slice (p ++ (q ++ s)) ⟨size p, size p + size q⟩ = q := by
  rw [slice, slice?_eq_some_iff.2 ⟨p, s, rfl, rfl⟩]
  rfl

/-- What is cut out of a text is a part of it. -/
theorem slice_infix (t : Text) (range : Span) : t.slice range <:+: t := by
  rw [slice]
  cases cut : t.slice? range with
  | none => exact List.nil_infix
  | some q =>
      obtain ⟨p, s, rfl, _⟩ := slice?_eq_some_iff.1 cut
      exact ⟨p, s, List.append_assoc p q s⟩

theorem rest_append (p s : Text) : rest (p ++ s) (size p) = s := by
  rw [rest, from?_append]
  rfl

/-- Where a text goes on after an offset, the offset is a boundary. -/
theorem split_of_rest_ne_nil {t : Text} {n : Nat} (goesOn : t.rest n ≠ []) :
    ∃ p, t = p ++ t.rest n ∧ size p = n := by
  rw [rest] at goesOn ⊢
  cases cut : t.from? n with
  | none =>
      rw [cut] at goesOn
      exact absurd rfl goesOn
  | some r => exact from?_eq_some_iff.1 cut

end Text

/-! ### Reading the bytes of a text -/

namespace Utf8

@[simp] theorem encode_nil : encode [] = [] := rfl

@[simp] theorem encode_cons (c : Char) (t : Text) :
    encode (c :: t) = String.utf8EncodeChar c ++ encode t := rfl

@[simp] theorem encode_append (s t : Text) : encode (s ++ t) = encode s ++ encode t :=
  List.flatMap_append

@[simp] theorem length_encode (t : Text) : (encode t).length = t.size := by
  induction t with
  | nil => rfl
  | cons c t ih => simp [ih]

theorem within_iff {low high b : UInt8} :
    within low high b = true ↔ low.toNat ≤ b.toNat ∧ b.toNat ≤ high.toNat := by
  rw [within, Bool.and_eq_true, decide_eq_true_eq, decide_eq_true_eq, UInt8.le_iff_toNat_le,
    UInt8.le_iff_toNat_le]

theorem not_within {low high low' high' b : UInt8} (inside : within low high b = true)
    (below : high'.toNat < low.toNat) : ¬ within low' high' b = true := by
  rw [within_iff] at inside ⊢
  omega

theorem not_ascii {low high b : UInt8} (inside : within low high b = true)
    (above : 0x80 ≤ low.toNat) : ¬ b < 0x80 := by
  rw [UInt8.lt_iff_toNat_lt]
  rw [within_iff] at inside
  have ascii : (0x80 : UInt8).toNat = 0x80 := rfl
  omega

section

variable {a b c d : UInt8} (bytes : List UInt8)

theorem decodeLossy_one (ascii : a.toNat < 0x80) :
    decodeLossy (a :: bytes) = Char.ofNat a.toNat :: decodeLossy bytes := by
  have lead : a < 0x80 := UInt8.lt_iff_toNat_lt.2 ascii
  rw [decodeLossy.eq_def (a :: bytes)]
  dsimp only
  rw [if_pos lead]

theorem decodeLossy_two (lead : within 0xc2 0xdf a = true) (second : isTail b = true) :
    decodeLossy (a :: b :: bytes) =
      Char.ofNat (a.toNat % 32 * 64 + low6 b) :: decodeLossy bytes := by
  rw [decodeLossy.eq_def (a :: b :: bytes)]
  dsimp only
  rw [if_neg (not_ascii lead (by decide)), if_pos lead, if_pos second]

theorem decodeLossy_three (lead : within 0xe0 0xef a = true)
    (second : within (secondOfThree a).1 (secondOfThree a).2 b = true) (third : isTail c = true) :
    decodeLossy (a :: b :: c :: bytes) =
      Char.ofNat (a.toNat % 16 * 4096 + low6 b * 64 + low6 c) :: decodeLossy bytes := by
  rw [decodeLossy.eq_def (a :: b :: c :: bytes)]
  dsimp only
  rw [if_neg (not_ascii lead (by decide)), if_neg (not_within lead (by decide)), if_pos lead,
    if_pos second, if_pos third]

theorem decodeLossy_four (lead : within 0xf0 0xf4 a = true)
    (second : within (secondOfFour a).1 (secondOfFour a).2 b = true) (third : isTail c = true)
    (fourth : isTail d = true) :
    decodeLossy (a :: b :: c :: d :: bytes) =
      Char.ofNat (a.toNat % 8 * 262144 + low6 b * 4096 + low6 c * 64 + low6 d) ::
        decodeLossy bytes := by
  rw [decodeLossy.eq_def (a :: b :: c :: d :: bytes)]
  dsimp only
  rw [if_neg (not_ascii lead (by decide)), if_neg (not_within lead (by decide)),
    if_neg (not_within lead (by decide)), if_pos lead, if_pos second, if_pos third, if_pos fourth]

end

/-- A byte that is made from a small number has the number as its value. -/
theorem toNat_byte {n : Nat} (small : n < 256) : (UInt8.ofNat n).toNat = n := by
  rw [UInt8.toNat_ofNat']
  exact Nat.mod_eq_of_lt small

theorem within_byte {low high : UInt8} {n : Nat} (small : n < 256) :
    within low high (UInt8.ofNat n) = true ↔ low.toNat ≤ n ∧ n ≤ high.toNat := by
  rw [within_iff, toNat_byte small]

theorem isTail_byte (n : Nat) : isTail (UInt8.ofNat (n % 0x40 + 0x80)) = true := by
  rw [isTail, within_byte (by omega)]
  exact ⟨Nat.le_add_left _ _, Nat.add_le_add_right (Nat.le_of_lt_succ (Nat.mod_lt n (by decide))) _⟩

theorem low6_byte (n : Nat) : low6 (UInt8.ofNat (n % 0x40 + 0x80)) = n % 64 := by
  rw [low6, toNat_byte (by omega)]
  omega

/-- The first byte of a character of three bytes admits the second one: nothing shorter is written
with three bytes, and no surrogate is a character. -/
theorem second_of_three {v : Nat} (least : 0x7ff < v) (most : v ≤ 0xffff)
    (scalar : v < 0xd800 ∨ 0xdfff < v) :
    within (secondOfThree (UInt8.ofNat (v / 4096 % 0x10 + 0xe0))).1
      (secondOfThree (UInt8.ofNat (v / 4096 % 0x10 + 0xe0))).2
      (UInt8.ofNat (v / 64 % 0x40 + 0x80)) = true := by
  have lead : ∀ n : Nat, n < 256 →
      ((UInt8.ofNat (v / 4096 % 0x10 + 0xe0) == UInt8.ofNat n) = true ↔
        v / 4096 % 0x10 + 0xe0 = n) := by
    intro n small
    rw [beq_iff_eq, ← UInt8.toNat_inj, toNat_byte (by omega), toNat_byte small]
  rw [within_byte (by omega), secondOfThree]
  split
  · next isE0 =>
      have isE0 := (lead 0xe0 (by decide)).1 isE0
      change 0xa0 ≤ _ ∧ _ ≤ 0xbf
      omega
  · split
    · next isED =>
        have isED := (lead 0xed (by decide)).1 isED
        change 0x80 ≤ _ ∧ _ ≤ 0x9f
        omega
    · change 0x80 ≤ _ ∧ _ ≤ 0xbf
      omega

theorem second_of_four {v : Nat} (least : 0xffff < v) (most : v < 0x110000) :
    within (secondOfFour (UInt8.ofNat (v / 262144 % 0x08 + 0xf0))).1
      (secondOfFour (UInt8.ofNat (v / 262144 % 0x08 + 0xf0))).2
      (UInt8.ofNat (v / 4096 % 0x40 + 0x80)) = true := by
  have lead : ∀ n : Nat, n < 256 →
      ((UInt8.ofNat (v / 262144 % 0x08 + 0xf0) == UInt8.ofNat n) = true ↔
        v / 262144 % 0x08 + 0xf0 = n) := by
    intro n small
    rw [beq_iff_eq, ← UInt8.toNat_inj, toNat_byte (by omega), toNat_byte small]
  rw [within_byte (by omega), secondOfFour]
  split
  · next isF0 =>
      have isF0 := (lead 0xf0 (by decide)).1 isF0
      change 0x90 ≤ _ ∧ _ ≤ 0xbf
      omega
  · split
    · next isF4 =>
        have isF4 := (lead 0xf4 (by decide)).1 isF4
        change 0x80 ≤ _ ∧ _ ≤ 0x8f
        omega
    · change 0x80 ≤ _ ∧ _ ≤ 0xbf
      omega

/-- The bytes of a character are read as that character. -/
theorem decodeLossy_utf8EncodeChar (c : Char) (bytes : List UInt8) :
    decodeLossy (String.utf8EncodeChar c ++ bytes) = c :: decodeLossy bytes := by
  have scalar : c.val.toNat < 0xd800 ∨ (0xdfff < c.val.toNat ∧ c.val.toNat < 0x110000) := c.valid
  have same : Char.ofNat c.val.toNat = c := Char.ofNat_toNat c
  unfold String.utf8EncodeChar
  generalize c.val.toNat = v at scalar same
  dsimp only
  -- one case for each number of bytes
  split
  · next one =>
      rw [List.singleton_append, decodeLossy_one bytes (by rw [toNat_byte (by omega)]; omega),
        toNat_byte (by omega), same]
  split
  · next two =>
      have lead : within 0xc2 0xdf (UInt8.ofNat (v / 64 % 0x20 + 0xc0)) = true := by
        rw [within_byte (by omega)]
        change 0xc2 ≤ _ ∧ _ ≤ 0xdf
        omega
      have value : (v / 64 % 0x20 + 0xc0) % 32 * 64 + v % 64 = v := by omega
      rw [List.cons_append, List.singleton_append, decodeLossy_two bytes lead (isTail_byte v),
        low6_byte, toNat_byte (by omega), value, same]
  split
  · next three =>
      have lead : within 0xe0 0xef (UInt8.ofNat (v / 4096 % 0x10 + 0xe0)) = true := by
        rw [within_byte (by omega)]
        change 0xe0 ≤ _ ∧ _ ≤ 0xef
        omega
      have second := second_of_three (v := v) (by omega) three (by omega)
      have value :
          (v / 4096 % 0x10 + 0xe0) % 16 * 4096 + v / 64 % 64 * 64 + v % 64 = v := by omega
      rw [List.cons_append, List.cons_append, List.singleton_append,
        decodeLossy_three bytes lead second (isTail_byte v), low6_byte, low6_byte,
        toNat_byte (by omega), value, same]
  · have lead : within 0xf0 0xf4 (UInt8.ofNat (v / 262144 % 0x08 + 0xf0)) = true := by
      rw [within_byte (by omega)]
      change 0xf0 ≤ _ ∧ _ ≤ 0xf4
      omega
    have second := second_of_four (v := v) (by omega) (by omega)
    have value : (v / 262144 % 0x08 + 0xf0) % 8 * 262144 + v / 4096 % 64 * 4096 +
        v / 64 % 64 * 64 + v % 64 = v := by omega
    rw [List.cons_append, List.cons_append, List.cons_append, List.singleton_append,
      decodeLossy_four bytes lead second (isTail_byte _) (isTail_byte v), low6_byte, low6_byte,
      low6_byte, toNat_byte (by omega), value, same]

/-- Reading the bytes of a text gives the text. -/
theorem decodeLossy_encode (t : Text) : decodeLossy (encode t) = t := by
  induction t with
  | nil => rw [encode_nil, decodeLossy]
  | cons c t ih => rw [encode_cons, decodeLossy_utf8EncodeChar, ih]

theorem decode?_encode (t : Text) : decode? (encode t) = some t := by
  rw [decode?, decodeLossy_encode]
  exact if_pos rfl

/-! ### ASCII characters -/

/-- A byte below `0x80` occurs in the character of its value alone. -/
theorem toNat_eq_of_mem_utf8EncodeChar {c : Char} {n : Nat} (ascii : n < 0x80)
    (within : UInt8.ofNat n ∈ String.utf8EncodeChar c) : c.toNat = n := by
  have byte : ∀ m : Nat, m < 256 → UInt8.ofNat n = UInt8.ofNat m → m = n := by
    intro m small same
    rw [← UInt8.toNat_inj, toNat_byte small, toNat_byte (by omega)] at same
    exact same.symm
  unfold String.utf8EncodeChar at within
  have valid : c.val.toNat < 0x110000 := by
    have valid := c.valid
    simp only [UInt32.isValidChar, Nat.isValidChar] at valid
    omega
  change c.val.toNat = n
  generalize c.val.toNat = v at within valid
  dsimp only at within
  -- all bytes of a longer character are at least `0x80`
  split at within
  · exact byte v (by omega) (List.mem_singleton.1 within)
  · exfalso
    split at within
    · simp only [List.mem_cons, List.not_mem_nil, or_false] at within
      rcases within with at_i | at_i <;> have := byte _ (by omega) at_i <;> omega
    · split at within
      · simp only [List.mem_cons, List.not_mem_nil, or_false] at within
        rcases within with at_i | at_i | at_i <;> have := byte _ (by omega) at_i <;> omega
      · simp only [List.mem_cons, List.not_mem_nil, or_false] at within
        rcases within with at_i | at_i | at_i | at_i <;> have := byte _ (by omega) at_i <;> omega

theorem utf8EncodeChar_of_ascii {c : Char} (ascii : c.toNat < 0x80) :
    String.utf8EncodeChar c = [UInt8.ofNat c.toNat] := by
  have small : c.val.toNat ≤ 0x7f := Nat.le_of_lt_succ ascii
  unfold String.utf8EncodeChar
  dsimp only
  rw [if_pos small]
  rfl

end Utf8

end CallAtlas
