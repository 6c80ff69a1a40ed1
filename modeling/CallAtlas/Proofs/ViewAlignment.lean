/-
Module: CallAtlas.Proofs.ViewAlignment
Purpose: The views of a text lie over each other byte by byte.  Blanking works on bytes and reads
  the result back as text; ranges that begin and end between characters blank whole characters, so
  the bytes stay readable and nothing moves.
Main definitions: WholeCharacters, maskCharacters, Text.Firm
Main results: encode_mask, blankRanges_eq, isBoundary_of_firm, views_align_with_text
-/
import CallAtlas.Mask
import CallAtlas.Proofs.PatternMatches

namespace CallAtlas

/-! ### Bytes -/

theorem maskBytes_append (covered : Nat → Bool) (offset : Nat) (first second : List UInt8) :
    maskBytes covered offset (first ++ second) =
      maskBytes covered offset first ++ maskBytes covered (offset + first.length) second := by
  induction first generalizing offset with
  | nil => rfl
  | cons b first ih =>
      simp only [List.cons_append, maskBytes, ih, List.length_cons]
      rw [Nat.add_assoc, Nat.add_comm 1]

theorem getElem?_maskBytes (covered : Nat → Bool) (offset : Nat) (bytes : List UInt8) (i : Nat) :
    (maskBytes covered offset bytes)[i]? =
      bytes[i]?.map fun b => if covered (offset + i) && b != 0x0a then 0x20 else b := by
  induction bytes generalizing offset i with
  | nil => rfl
  | cons b bytes ih =>
      cases i with
      | zero => rfl
      | succ i =>
          simp only [maskBytes, List.getElem?_cons_succ, ih]
          rw [Nat.add_assoc, Nat.add_comm 1]

theorem maskBytes_of_uncovered {covered : Nat → Bool} {offset : Nat} {bytes : List UInt8}
    (free : ∀ i, i < bytes.length → covered (offset + i) = false) :
    maskBytes covered offset bytes = bytes := by
  apply List.ext_getElem?
  intro i
  rw [getElem?_maskBytes]
  cases at_i : bytes[i]? with
  | none => rfl
  | some b =>
      obtain ⟨bound, _⟩ := List.getElem?_eq_some_iff.1 at_i
      simp [free i bound]

theorem maskBytes_of_covered {covered : Nat → Bool} {offset : Nat} {bytes : List UInt8}
    (hidden : ∀ i, i < bytes.length → covered (offset + i) = true)
    (noLineFeed : (0x0a : UInt8) ∉ bytes) :
    maskBytes covered offset bytes = List.replicate bytes.length 0x20 := by
  apply List.ext_getElem?
  intro i
  rw [getElem?_maskBytes, List.getElem?_replicate]
  cases at_i : bytes[i]? with
  | none =>
      rw [if_neg (by rw [List.getElem?_eq_none_iff] at at_i; omega)]
      rfl
  | some b =>
      obtain ⟨bound, _⟩ := List.getElem?_eq_some_iff.1 at_i
      have other : b ≠ 0x0a := by
        rintro rfl
        exact noLineFeed (List.mem_of_getElem? at_i)
      simp [hidden i bound, other, bound]

/-! ### Characters -/

/-- The byte of a line feed occurs in the line feed alone. -/
theorem lineFeed_mem_utf8EncodeChar {c : Char} (within : (0x0a : UInt8) ∈ String.utf8EncodeChar c) :
    c = '\n' :=
  Char.toNat_inj.1 (Utf8.toNat_eq_of_mem_utf8EncodeChar (by decide) within)

theorem encode_spaces (n : Nat) : Utf8.encode (List.replicate n ' ') = List.replicate n 0x20 := by
  induction n with
  | zero => rfl
  | succ n ih =>
      rw [List.replicate_succ, Utf8.encode_cons, ih, List.replicate_succ]
      rfl

/-- Each character of a text that starts at an offset is covered in whole or not at all. -/
def WholeCharacters (covered : Nat → Bool) : Nat → Text → Prop
  | _, [] => True
  | offset, c :: t =>
    (∀ i, i < c.utf8Size → covered (offset + i) = covered offset) ∧
      WholeCharacters covered (offset + c.utf8Size) t

/-- A text that starts at an offset, with spaces in place of every covered character but line
feeds. -/
def maskCharacters (covered : Nat → Bool) : Nat → Text → Text
  | _, [] => []
  | offset, c :: t =>
    (if covered offset && c != '\n' then List.replicate c.utf8Size ' ' else [c]) ++
      maskCharacters covered (offset + c.utf8Size) t

variable {covered : Nat → Bool} {offset : Nat} {t : Text}

theorem maskCharacters_append (covered : Nat → Bool) (offset : Nat) (s t : Text) :
    maskCharacters covered offset (s ++ t) =
      maskCharacters covered offset s ++ maskCharacters covered (offset + s.size) t := by
  induction s generalizing offset with
  | nil => rfl
  | cons c s ih =>
      rw [List.cons_append, maskCharacters, maskCharacters, ih, List.append_assoc, Text.size_cons,
        Nat.add_assoc]

@[simp] theorem size_maskCharacters (covered : Nat → Bool) (offset : Nat) (t : Text) :
    Text.size (maskCharacters covered offset t) = t.size := by
  induction t generalizing offset with
  | nil => rfl
  | cons c t ih =>
      rw [maskCharacters, Text.size_append, ih, Text.size_cons]
      congr 1
      split <;> simp

/-- To blank the bytes of whole characters is to blank the characters. -/
theorem maskBytes_encode (whole : WholeCharacters covered offset t) :
    maskBytes covered offset (Utf8.encode t) = Utf8.encode (maskCharacters covered offset t) := by
  induction t generalizing offset with
  | nil => rfl
  | cons c t ih =>
      rw [Utf8.encode_cons, maskBytes_append, String.length_utf8EncodeChar, ih whole.2,
        maskCharacters, Utf8.encode_append]
      congr 1
      have uniform : ∀ i, i < (String.utf8EncodeChar c).length →
          covered (offset + i) = covered offset := by
        intro i bound
        rw [String.length_utf8EncodeChar] at bound
        exact whole.1 i bound
      by_cases lineFeed : c = '\n'
      · subst lineFeed
        -- a line feed stays as it is, covered or not
        cases covered offset <;> simp [maskBytes, String.utf8EncodeChar]
      · cases hidden : covered offset with
        | true =>
            rw [if_pos (by simp [lineFeed]), encode_spaces, ← String.length_utf8EncodeChar]
            refine maskBytes_of_covered (fun i bound => by rw [uniform i bound, hidden]) ?_
            exact fun within => lineFeed (lineFeed_mem_utf8EncodeChar within)
        | false =>
            rw [if_neg (by simp)]
            rw [maskBytes_of_uncovered (fun i bound => by rw [uniform i bound, hidden])]
            simp

/-! ### Ranges -/

/-- All ranges begin and end between characters of a text. -/
def Bounded (ranges : List Span) (t : Text) : Prop :=
  ∀ r ∈ ranges, t.IsBoundary r.start ∧ t.IsBoundary r.stop

theorem contains_inside_character {r : Span} {p s : Text} {c : Char} {i : Nat}
    (start : Text.IsBoundary (p ++ c :: s) r.start) (stop : Text.IsBoundary (p ++ c :: s) r.stop)
    (bound : i < c.utf8Size) : r.contains (p.size + i) = r.contains p.size := by
  have notStart := start.le_or_ge
  have notStop := stop.le_or_ge
  rw [Bool.eq_iff_iff]
  simp only [Span.contains, Bool.and_eq_true, decide_eq_true_eq]
  omega

theorem wholeCharacters_covers {ranges : List Span} {p q s : Text}
    (bounded : Bounded ranges (p ++ (q ++ s))) : WholeCharacters (covers ranges) p.size q := by
  induction q generalizing p with
  | nil => trivial
  | cons c q ih =>
      constructor
      · intro i bound
        have same : ∀ r ∈ ranges, r.contains (p.size + i) = r.contains p.size := fun r listed =>
          contains_inside_character (bounded r listed).1 (bounded r listed).2 bound
        rw [Bool.eq_iff_iff, covers, covers, List.any_eq_true, List.any_eq_true]
        constructor
        · rintro ⟨r, listed, inside⟩
          exact ⟨r, listed, by rwa [← same r listed]⟩
        · rintro ⟨r, listed, inside⟩
          exact ⟨r, listed, by rwa [same r listed]⟩
      · have shifted : p ++ (c :: q ++ s) = (p ++ [c]) ++ (q ++ s) := by simp
        rw [shifted] at bounded
        have rest := ih bounded
        simpa using rest

/-- A mask of ranges that lie between characters is a mask of characters, and no byte is lost in
reading it back. -/
theorem mask_eq {ranges : List Span} (bounded : Bounded ranges t) :
    mask ranges t = maskCharacters (covers ranges) 0 t := by
  have whole : WholeCharacters (covers ranges) 0 t := by
    have bounded : Bounded ranges ([] ++ (t ++ [])) := by simpa using bounded
    exact wholeCharacters_covers bounded
  rw [mask, maskBytes_encode whole, Utf8.decodeLossy_encode]

theorem encode_mask {ranges : List Span} (bounded : Bounded ranges t) :
    Utf8.encode (mask ranges t) = maskBytes (covers ranges) 0 (Utf8.encode t) := by
  have whole : WholeCharacters (covers ranges) 0 t := by
    have bounded : Bounded ranges ([] ++ (t ++ [])) := by simpa using bounded
    exact wholeCharacters_covers bounded
  rw [mask_eq bounded, maskBytes_encode whole]

/-- The bytes between two positions of a text are those of the part between them. -/
theorem take_drop_encode (p q s : Text) :
    ((Utf8.encode (p ++ (q ++ s))).drop p.size).take q.size = Utf8.encode q := by
  rw [Utf8.encode_append, Utf8.encode_append, ← Utf8.length_encode p, List.drop_left,
    ← Utf8.length_encode q, List.take_left]

/-- A window that begins and ends between characters is blanked character by character. -/
theorem blankRanges_eq {ranges : List Span} {p q s : Text}
    (bounded : Bounded ranges (p ++ (q ++ s))) :
    blankRanges (p ++ (q ++ s)) p.size q.size ranges =
      maskCharacters (covers ranges) p.size q := by
  rw [blankRanges, take_drop_encode, maskBytes_encode (wholeCharacters_covers bounded),
    Utf8.decodeLossy_encode]

/-! ### Comments and strings -/

theorem group_bounded {pattern : Pattern} {m : Match} {group : Group} {span : Span}
    (found : pattern.FoundIn t m) (isMarked : m.group? group = some span) :
    t.IsBoundary span.start ∧ t.IsBoundary span.stop := by
  obtain ⟨_, _, c₁, c₂, _, first, second, _, rfl, _, _⟩ := found.exists_group isMarked
  exact ⟨first.isBoundary, second.isBoundary⟩

theorem commentRanges_bounded (lang : Language) (t : Text) : Bounded (commentRanges lang t) t := by
  intro r listed
  obtain ⟨m, found, isMarked⟩ := List.mem_filterMap.1 listed
  exact group_bounded (Pattern.mem_findAll found) isMarked

theorem hiddenRanges_bounded (lang : Language) (t : Text) : Bounded (hiddenRanges lang t) t := by
  intro r listed
  obtain ⟨m, found, chosen⟩ := List.mem_filterMap.1 listed
  rcases Option.or_eq_some_iff.1 chosen with comment | ⟨_, quoted⟩
  · exact group_bounded (Pattern.mem_findAll found) comment
  · exact group_bounded (Pattern.mem_findAll found) quoted

/-- What is hidden as a comment is hidden together with the strings as well. -/
theorem covers_hiddenRanges {lang : Language} {i : Nat}
    (comment : covers (commentRanges lang t) i = true) : covers (hiddenRanges lang t) i = true := by
  rw [covers, List.any_eq_true] at comment ⊢
  obtain ⟨r, listed, inside⟩ := comment
  obtain ⟨m, found, isMarked⟩ := List.mem_filterMap.1 listed
  exact ⟨r, List.mem_filterMap.2 ⟨m, found, by rw [isMarked]; rfl⟩, inside⟩

/-! ### The views of a text -/

theorem literalView_eq (lang : Language) (t : Text) :
    literalView lang t = maskCharacters (covers (commentRanges lang t)) 0 t :=
  mask_eq (commentRanges_bounded lang t)

theorem codeView_eq (lang : Language) (t : Text) :
    codeView lang t = maskCharacters (covers (hiddenRanges lang t)) 0 t :=
  mask_eq (hiddenRanges_bounded lang t)

theorem encode_literalView (lang : Language) (t : Text) :
    Utf8.encode (literalView lang t) =
      maskBytes (covers (commentRanges lang t)) 0 (Utf8.encode t) :=
  encode_mask (commentRanges_bounded lang t)

theorem encode_codeView (lang : Language) (t : Text) :
    Utf8.encode (codeView lang t) = maskBytes (covers (hiddenRanges lang t)) 0 (Utf8.encode t) :=
  encode_mask (hiddenRanges_bounded lang t)

/-- A mask neither adds nor removes a line feed. -/
theorem lineFeed_maskBytes (covered : Nat → Bool) (bytes : List UInt8) (i : Nat) :
    (maskBytes covered 0 bytes)[i]? = some 0x0a ↔ bytes[i]? = some 0x0a := by
  rw [getElem?_maskBytes]
  cases bytes[i]? with
  | none => rfl
  | some b =>
      by_cases lineFeed : b = 0x0a
      · simp [lineFeed]
      · cases covered (0 + i) <;> simp [lineFeed]

/-- For every language and every text, the view without comments and the view without comments and
strings have as many bytes as the text and line feeds at the same offsets.  At each offset the first
view has the byte of the text or a space, and the second one the byte of the first or a space.  The
bytes with the ranges blanked are valid UTF-8, and the views are what they read as. -/
theorem views_align_with_text (lang : Language) (t : Text) :
    (Utf8.encode (literalView lang t)).length = (Utf8.encode t).length ∧
    (Utf8.encode (codeView lang t)).length = (Utf8.encode t).length ∧
    (∀ i : Nat, (Utf8.encode (literalView lang t))[i]? = some 0x0a ↔
      (Utf8.encode t)[i]? = some 0x0a) ∧
    (∀ i : Nat, (Utf8.encode (codeView lang t))[i]? = some 0x0a ↔
      (Utf8.encode t)[i]? = some 0x0a) ∧
    (∀ i : Nat, i < (Utf8.encode t).length →
      (Utf8.encode (literalView lang t))[i]? = (Utf8.encode t)[i]? ∨
        (Utf8.encode (literalView lang t))[i]? = some 0x20) ∧
    (∀ i : Nat, i < (Utf8.encode t).length →
      (Utf8.encode (codeView lang t))[i]? = (Utf8.encode (literalView lang t))[i]? ∨
        (Utf8.encode (codeView lang t))[i]? = some 0x20) ∧
    Utf8.decode? (maskBytes (covers (commentRanges lang t)) 0 (Utf8.encode t)) =
      some (literalView lang t) ∧
    Utf8.decode? (maskBytes (covers (hiddenRanges lang t)) 0 (Utf8.encode t)) =
      some (codeView lang t) := by
  refine ⟨?_, ?_, ?_, ?_, ?_, ?_, ?_, ?_⟩
  · rw [Utf8.length_encode, Utf8.length_encode, literalView_eq, size_maskCharacters]
  · rw [Utf8.length_encode, Utf8.length_encode, codeView_eq, size_maskCharacters]
  · intro i
    rw [encode_literalView]
    exact lineFeed_maskBytes _ _ i
  · intro i
    rw [encode_codeView]
    exact lineFeed_maskBytes _ _ i
  · intro i bound
    rw [encode_literalView, getElem?_maskBytes, List.getElem?_eq_getElem bound]
    simp only [Option.map_some, Option.some.injEq]
    split
    · exact .inr rfl
    · exact .inl rfl
  · intro i bound
    rw [encode_literalView, encode_codeView, getElem?_maskBytes, getElem?_maskBytes,
      List.getElem?_eq_getElem bound]
    simp only [Option.map_some, Option.some.injEq, Nat.zero_add]
    -- what the first view hides, the second one hides as well
    cases hidden : covers (hiddenRanges lang t) i with
    | true =>
        by_cases lineFeed : (Utf8.encode t)[i] = 0x0a
        · simp [lineFeed]
        · simp [lineFeed]
    | false =>
        have readable : covers (commentRanges lang t) i = false := by
          cases comment : covers (commentRanges lang t) i with
          | true => rw [covers_hiddenRanges comment] at hidden; cases hidden
          | false => rfl
        simp [readable]
  · rw [← encode_literalView, Utf8.decode?_encode]
  · rw [← encode_codeView, Utf8.decode?_encode]

/-! ### Positions that are the same in all views -/

/-- A position with something else than a space on one side.  Blanking puts spaces on both sides of
the positions that it makes, so such a position was there before. -/
def Text.Firm (t : Text) (n : Nat) : Prop :=
  ∃ p s, t = p ++ s ∧ Text.size p = n ∧ (p.getLast? ≠ some ' ' ∨ s.head? ≠ some ' ')

theorem Text.Firm.isBoundary {n : Nat} (firm : t.Firm n) : t.IsBoundary n := by
  obtain ⟨p, s, split, size, _⟩ := firm
  exact ⟨p, s, split, size⟩

theorem isBoundary_cons {c : Char} {n : Nat} (boundary : t.IsBoundary n) :
    Text.IsBoundary (c :: t) (c.utf8Size + n) := by
  obtain ⟨p, s, rfl, rfl⟩ := boundary
  exact ⟨c :: p, s, rfl, rfl⟩

/-- A position between the spaces that stand for one character is not firm. -/
theorem not_firm_inside_spaces {k : Nat} {p s : Text}
    (spaces : List.replicate k ' ' = p ++ s) (notFirst : p ≠ []) (notLast : s ≠ []) :
    p.getLast? = some ' ' ∧ s.head? = some ' ' := by
  have all : ∀ x ∈ p ++ s, x = ' ' := by
    rw [← spaces]
    intro x listed
    exact List.eq_of_mem_replicate listed
  constructor
  · rw [List.getLast?_eq_some_getLast notFirst,
      all _ (List.mem_append_left _ (List.getLast_mem notFirst))]
  · rw [List.head?_eq_some_head notLast, all _ (List.mem_append_right _ (List.head_mem notLast))]

/-- A firm position of a masked text is a position of the text. -/
theorem isBoundary_of_firm {n : Nat} (firm : (maskCharacters covered offset t).Firm n) :
    t.IsBoundary n := by
  induction t generalizing offset n with
  | nil =>
      have size := firm.isBoundary.le_size
      exact ⟨[], [], rfl, (Nat.le_zero.1 size).symm⟩
  | cons c t ih =>
      obtain ⟨p, s, split, rfl, side⟩ := firm
      rw [maskCharacters] at split
      by_cases atStart : p = []
      · subst atStart
        exact ⟨[], c :: t, rfl, rfl⟩
      rcases List.append_eq_append_iff.1 split with ⟨p', rfl, rest⟩ | ⟨s', piece, rfl⟩
      · -- the position is behind the first character
        have width : Text.size (if covered offset && c != '\n' then List.replicate c.utf8Size ' '
            else [c]) = c.utf8Size := by
          split <;> simp
        rw [Text.size_append, width]
        apply isBoundary_cons
        by_cases atOnce : p' = []
        · subst atOnce
          exact ⟨[], t, rfl, rfl⟩
        · refine ih ⟨p', s, rest, rfl, ?_⟩
          rwa [List.getLast?_append, List.getLast?_eq_some_getLast atOnce, Option.some_or,
            ← List.getLast?_eq_some_getLast atOnce] at side
      · -- the position is inside what stands for the first character, or right behind it
        by_cases atOnce : s' = []
        · subst atOnce
          rw [List.append_nil] at piece
          rw [← piece]
          refine ⟨[c], t, rfl, ?_⟩
          split <;> simp
        · exfalso
          split at piece
          · obtain ⟨last, first⟩ := not_firm_inside_spaces piece atStart atOnce
            rw [List.head?_append, first, last] at side
            simp at side
          · have length := congrArg List.length piece
            have := List.length_pos_iff.2 atStart
            have := List.length_pos_iff.2 atOnce
            simp only [List.length_singleton, List.length_append] at length
            omega

theorem isBoundary_maskCharacters {n : Nat} (boundary : t.IsBoundary n) :
    (maskCharacters covered offset t).IsBoundary n := by
  obtain ⟨p, s, rfl, rfl⟩ := boundary
  exact ⟨_, _, maskCharacters_append covered offset p s, size_maskCharacters covered offset p⟩

end CallAtlas
