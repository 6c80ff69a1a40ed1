/-
Module: CallAtlas.Proofs.BraceMatching
Purpose: The block of an opening character ends where the depth that is counted from that character
  returns to zero for the first time.  The scan goes through characters.  What it finds is stated for
  the bytes of the text, in which an ASCII delimiter never stands inside another character.
Main definitions: asciiByte, FirstAt, ScanEnd, scanBytes, ScansTo, depthBehind, Block.Matching
Main results: firstAt_of_openingFrom?, scanBytes_scansTo, scanBytes_encode, Block.braced?_matching,
  braced_block_is_least_balanced
-/
import CallAtlas.Proofs.BlockPlaces

namespace CallAtlas

/-- The byte of an ASCII character. -/
def asciiByte (c : Char) : UInt8 := UInt8.ofNat c.toNat

/-- An ASCII delimiter, given as a character. -/
abbrev IsAscii (c : Char) : Prop := c.toNat < 0x80

theorem encodeChar_of_isAscii {c : Char} (ascii : IsAscii c) :
    String.utf8EncodeChar c = [asciiByte c] := Utf8.utf8EncodeChar_of_ascii ascii

theorem utf8Size_of_isAscii {c : Char} (ascii : IsAscii c) : c.utf8Size = 1 := by
  rw [← String.length_utf8EncodeChar, encodeChar_of_isAscii ascii]
  rfl

/-- The byte of a delimiter is not among the bytes of another character. -/
theorem asciiByte_notMem {c x : Char} (ascii : IsAscii c) (other : x ≠ c) :
    asciiByte c ∉ String.utf8EncodeChar x := by
  intro within
  exact other (Char.toNat_inj.1 (Utf8.toNat_eq_of_mem_utf8EncodeChar ascii within))

theorem asciiByte_ne {c d : Char} (asciiC : IsAscii c) (asciiD : IsAscii d) (differ : c ≠ d) :
    asciiByte c ≠ asciiByte d := by
  intro same
  have within : asciiByte c ∈ String.utf8EncodeChar d := by
    rw [encodeChar_of_isAscii asciiD, same]
    exact List.mem_singleton.2 rfl
  exact asciiByte_notMem asciiC differ.symm within

/-- A text has as many bytes of a delimiter as it has delimiters. -/
theorem count_encode {c : Char} (ascii : IsAscii c) (t : Text) :
    (Utf8.encode t).count (asciiByte c) = t.count c := by
  induction t with
  | nil => rfl
  | cons x t ih =>
      rw [Utf8.encode_cons, List.count_append, ih, List.count_cons]
      by_cases same : x = c
      · subst same
        rw [encodeChar_of_isAscii ascii]
        simp [Nat.add_comm]
      · rw [List.count_eq_zero.2 (asciiByte_notMem ascii same)]
        simp [same]

/-! ### Where a block opens -/

/-- An offset holds a given byte and is the first one at or behind `start` that does. -/
structure FirstAt (b : UInt8) (start : Nat) (bytes : List UInt8) (n : Nat) : Prop where
  behind : start ≤ n
  holds : bytes[n]? = some b
  first : ∀ m, start ≤ m → m < n → bytes[m]? ≠ some b

namespace FirstAt

variable {b : UInt8} {start n m : Nat} {front bytes : List UInt8}

theorem unique (one : FirstAt b start bytes n) (two : FirstAt b start bytes m) : n = m := by
  rcases Nat.lt_trichotomy n m with less | same | greater
  · exact absurd one.holds (two.first n one.behind less)
  · exact same
  · exact absurd two.holds (one.first m two.behind greater)

theorem drop_eq (found : FirstAt b start bytes n) : bytes.drop n = b :: bytes.drop (n + 1) := by
  obtain ⟨inside, holds⟩ := List.getElem?_eq_some_iff.1 found.holds
  rw [List.drop_eq_getElem_cons inside, holds]

/-- A front without the byte, as far as the search looks at it, is passed over. -/
theorem append_iff (passed : ∀ m, start ≤ m → m < front.length → front[m]? ≠ some b) :
    FirstAt b start (front ++ bytes) n ↔
      ∃ k, n = front.length + k ∧ FirstAt b (start - front.length) bytes k := by
  constructor
  · rintro ⟨behind, holds, first⟩
    have late : front.length ≤ n := by
      apply Nat.le_of_not_lt
      intro early
      rw [List.getElem?_append_left early] at holds
      exact passed n behind early holds
    rw [List.getElem?_append_right late] at holds
    refine ⟨n - front.length, by omega, by omega, holds, ?_⟩
    intro m from_ before
    have later := first (front.length + m) (by omega) (by omega)
    rwa [List.getElem?_append_right (Nat.le_add_right _ _), Nat.add_sub_cancel_left] at later
  · rintro ⟨k, rfl, behind, holds, first⟩
    refine ⟨by omega, ?_, ?_⟩
    · rwa [List.getElem?_append_right (Nat.le_add_right _ _), Nat.add_sub_cancel_left]
    · intro m from_ before
      by_cases early : m < front.length
      · rw [List.getElem?_append_left early]
        exact passed m from_ early
      · rw [List.getElem?_append_right (by omega)]
        exact first (m - front.length) (by omega) (by omega)

end FirstAt

section Opening

variable {opening : Char} {start offset n : Nat} {t inner : Text}

/-- A character at which the search does not stop has no byte at which it would. -/
theorem passed_of_not_opening {x : Char} (ascii : IsAscii opening)
    (goesOn : ¬ (decide (start ≤ offset) && x == opening) = true) :
    ∀ m, start - offset ≤ m → m < (String.utf8EncodeChar x).length →
      (String.utf8EncodeChar x)[m]? ≠ some (asciiByte opening) := by
  intro m behind inside holds
  obtain rfl : x = opening := by
    apply Classical.byContradiction
    intro other
    exact asciiByte_notMem ascii other (List.mem_of_getElem? holds)
  rw [String.length_utf8EncodeChar, utf8Size_of_isAscii ascii] at inside
  exact goesOn (by simp; omega)

theorem firstAt_of_openingFrom? (ascii : IsAscii opening)
    (found : openingFrom? opening start offset t = some (n, inner)) :
    ∃ p, t = p ++ opening :: inner ∧ n = offset + Text.size p ∧
      FirstAt (asciiByte opening) (start - offset) (Utf8.encode t) (Text.size p) := by
  induction t generalizing offset with
  | nil => cases found
  | cons x t ih =>
      rw [openingFrom?] at found
      split at found
      · next here =>
          simp only [Bool.and_eq_true, decide_eq_true_eq, beq_iff_eq] at here
          obtain ⟨late, rfl⟩ := here
          obtain ⟨rfl, rfl⟩ := Prod.mk.inj (Option.some.inj found)
          refine ⟨[], rfl, rfl, by simp; omega, ?_, ?_⟩
          · rw [Utf8.encode_cons, encodeChar_of_isAscii ascii]
            rfl
          · intro m _ before
            cases before
      · next goesOn =>
          obtain ⟨p, rfl, rfl, first⟩ := ih found
          refine ⟨x :: p, rfl, by rw [Text.size_cons, Nat.add_assoc], ?_⟩
          rw [Utf8.encode_cons, FirstAt.append_iff (passed_of_not_opening ascii goesOn),
            String.length_utf8EncodeChar, Nat.sub_sub]
          exact ⟨Text.size p, rfl, first⟩

theorem not_firstAt_of_openingFrom? (ascii : IsAscii opening)
    (missing : openingFrom? opening start offset t = none) :
    ¬ FirstAt (asciiByte opening) (start - offset) (Utf8.encode t) n := by
  induction t generalizing offset n with
  | nil =>
      intro first
      cases first.holds
  | cons x t ih =>
      rw [openingFrom?] at missing
      split at missing
      · cases missing
      · next goesOn =>
          rw [Utf8.encode_cons, FirstAt.append_iff (passed_of_not_opening ascii goesOn),
            String.length_utf8EncodeChar, Nat.sub_sub]
          rintro ⟨k, _, first⟩
          exact ih missing first

end Opening

/-! ### Where it closes -/

/-- How the scan for a closing byte can end. -/
inductive ScanEnd where
  /-- The byte at this offset brings the depth back to zero. -/
  | closed (offset : Nat)
  /-- The bytes end first. -/
  | unclosed
  /-- A depth of zero would have to be lowered. -/
  | underflow
deriving Repr, DecidableEq, Inhabited

/-- The scan of bytes from an offset on, byte by byte. -/
def scanBytes (opening closing : UInt8) (depth offset : Nat) : List UInt8 → ScanEnd
  | [] => .unclosed
  | b :: bytes =>
    if b = opening then scanBytes opening closing (depth + 1) (offset + 1) bytes
    else if b = closing then
      if depth = 0 then .underflow
      else if depth = 1 then .closed offset
      else scanBytes opening closing (depth - 1) (offset + 1) bytes
    else scanBytes opening closing depth (offset + 1) bytes

/-- The end of a scan that gives the offset of a closing character, if there is one. -/
def ScanEnd.ofOffset? : Option Nat → ScanEnd
  | some offset => .closed offset
  | none => .unclosed

section Scan

variable {opening closing : UInt8} {depth offset : Nat} {bytes : List UInt8}

theorem scanBytes_append_of_notMem {front : List UInt8} (noOpening : opening ∉ front)
    (noClosing : closing ∉ front) :
    scanBytes opening closing depth offset (front ++ bytes) =
      scanBytes opening closing depth (offset + front.length) bytes := by
  induction front generalizing offset with
  | nil => rfl
  | cons b front ih =>
      rw [List.mem_cons, not_or] at noOpening noClosing
      rw [List.cons_append, scanBytes, if_neg (Ne.symm noOpening.1), if_neg (Ne.symm noClosing.1),
        ih noOpening.2 noClosing.2, List.length_cons, Nat.add_assoc, Nat.add_comm 1]

/-- What a scan from a positive depth on comes to.  It ends at a closing byte with as many bytes
closed as were open, or with the bytes, and before that something is open all the time. -/
inductive ScansTo (opening closing : UInt8) (depth offset : Nat) (bytes : List UInt8) :
    ScanEnd → Prop where
  | closed {front rest : List UInt8} (split : bytes = front ++ closing :: rest)
      (even : depth + front.count opening = front.count closing + 1)
      (isOpen : ∀ p, p <+: front → p.count closing < depth + p.count opening) :
      ScansTo opening closing depth offset bytes (.closed (offset + front.length))
  | unclosed (isOpen : ∀ p, p <+: bytes → p.count closing < depth + p.count opening) :
      ScansTo opening closing depth offset bytes .unclosed

/-- One byte more at the front changes the depth from which the rest is scanned. -/
theorem ScansTo.cons {b : UInt8} {after : Nat} {ends : ScanEnd} (positive : 0 < depth)
    (counts : ∀ p : List UInt8, after + p.count opening + (b :: p).count closing =
      depth + (b :: p).count opening + p.count closing)
    (scans : ScansTo opening closing after (offset + 1) bytes ends) :
    ScansTo opening closing depth offset (b :: bytes) ends := by
  have lifted : ∀ {front : List UInt8},
      (∀ p, p <+: front → p.count closing < after + p.count opening) →
      ∀ p, p <+: b :: front → p.count closing < depth + p.count opening := by
    intro front isOpen p isFront
    rcases List.prefix_cons_iff.1 isFront with rfl | ⟨q, rfl, shorter⟩
    · simpa using positive
    · have before := isOpen q shorter
      have moved := counts q
      omega
  cases scans with
  | @closed front rest split even isOpen =>
      have place : offset + 1 + front.length = offset + (b :: front).length := by
        rw [List.length_cons]
        omega
      rw [place]
      refine .closed (by rw [split, List.cons_append]) ?_ (lifted isOpen)
      have moved := counts front
      omega
  | unclosed isOpen => exact .unclosed (lifted isOpen)

theorem ScansTo.of_closed {n : Nat}
    (scans : ScansTo opening closing depth offset bytes (.closed n)) :
    ∃ front rest, bytes = front ++ closing :: rest ∧ n = offset + front.length ∧
      depth + front.count opening = front.count closing + 1 ∧
      ∀ p, p <+: front → p.count closing < depth + p.count opening := by
  cases scans with
  | closed split even isOpen => exact ⟨_, _, split, rfl, even, isOpen⟩

theorem scanBytes_scansTo (differ : opening ≠ closing) (positive : 0 < depth) (offset : Nat)
    (bytes : List UInt8) :
    ScansTo opening closing depth offset bytes (scanBytes opening closing depth offset bytes) := by
  induction bytes generalizing depth offset with
  | nil =>
      apply ScansTo.unclosed
      intro p isFront
      rw [List.prefix_nil.1 isFront]
      simpa using positive
  | cons b bytes ih =>
      rw [scanBytes]
      split
      · next opens =>
          subst opens
          refine .cons positive ?_ (ih (Nat.succ_pos depth) _)
          intro p
          rw [List.count_cons_self, List.count_cons_of_ne differ]
          omega
      next other =>
        split
        · next closes =>
            subst closes
            rw [if_neg (by omega)]
            split
            · next last =>
                subst last
                refine @ScansTo.closed _ _ _ _ _ [] bytes rfl rfl ?_
                intro p isFront
                rw [List.prefix_nil.1 isFront]
                exact Nat.zero_lt_one
            · next deeper =>
                refine .cons positive ?_ (ih (by omega) _)
                intro p
                rw [List.count_cons_self, List.count_cons_of_ne other]
                omega
        · next neither =>
            refine .cons positive ?_ (ih positive _)
            intro p
            rw [List.count_cons_of_ne other, List.count_cons_of_ne neither]

end Scan

/-- The scan of characters is the scan of their bytes. -/
theorem scanBytes_encode {opening closing : Char} (asciiO : IsAscii opening)
    (asciiC : IsAscii closing) (differ : opening ≠ closing) {depth offset : Nat} {t : Text}
    (positive : 0 < depth) :
    scanBytes (asciiByte opening) (asciiByte closing) depth offset (Utf8.encode t) =
      .ofOffset? (closingFrom? opening closing depth offset t) := by
  induction t generalizing depth offset with
  | nil => rfl
  | cons x t ih =>
      rw [Utf8.encode_cons, closingFrom?]
      by_cases opens : x = opening
      · subst opens
        rw [encodeChar_of_isAscii asciiO, List.singleton_append, scanBytes, if_pos rfl,
          ih (Nat.succ_pos depth), if_pos (beq_self_eq_true x), utf8Size_of_isAscii asciiO]
      rw [if_neg (by simpa using opens)]
      by_cases closes : x = closing
      · subst closes
        rw [encodeChar_of_isAscii asciiC, List.singleton_append, scanBytes,
          if_neg (asciiByte_ne asciiC asciiO opens), if_pos rfl, if_pos (beq_self_eq_true x),
          utf8Size_of_isAscii asciiC]
        rw [if_neg (by omega)]
        by_cases last : depth = 1
        · rw [if_pos last, if_pos (by omega)]
          rfl
        · rw [if_neg last, if_neg (by omega), ih (by omega)]
      · rw [if_neg (by simpa using closes),
          scanBytes_append_of_notMem (asciiByte_notMem asciiO opens) (asciiByte_notMem asciiC closes),
          String.length_utf8EncodeChar, ih positive]

/-! ### Blocks -/

/-- The depth just behind the byte at offset `n`: from offset `start` on, the opening bytes less the
closing ones. -/
def depthBehind (opening closing : UInt8) (bytes : List UInt8) (start n : Nat) : Int :=
  ((bytes.drop start).take (n + 1 - start)).count opening -
    ((bytes.drop start).take (n + 1 - start)).count closing

/-- A block from the first opening character at or behind `start` to the character that closes it. -/
structure Block.Matching (t : Text) (start : Nat) (opening closing : Char) (b : Block) : Prop where
  opens : FirstAt (asciiByte opening) start (Utf8.encode t) b.opening
  opensBefore : b.opening < b.close
  closes : depthBehind (asciiByte opening) (asciiByte closing) (Utf8.encode t) b.opening b.close = 0
  isOpen : ∀ n, b.opening ≤ n → n < b.close →
    0 < depthBehind (asciiByte opening) (asciiByte closing) (Utf8.encode t) b.opening n
  bodyStart : b.bodyStart = b.opening + 1
  stop : b.stop = b.close + 1
  inside : b.stop ≤ t.size
  body : t.slice? b.bodySpan = some b.body
  even : b.body.count opening = b.body.count closing
  nested : ∀ p, p <+: b.body → p.count closing ≤ p.count opening

theorem closingFrom?_same (delimiter : Char) (depth offset : Nat) (t : Text) :
    closingFrom? delimiter delimiter depth offset t = none := by
  induction t generalizing depth offset with
  | nil => rfl
  | cons x t ih =>
      rw [closingFrom?]
      split
      · exact ih _ _
      · exact ih _ _

/-- With equal delimiters nothing ever closes. -/
theorem Block.braced?_same (t : Text) (start : Nat) (delimiter : Char) :
    Block.braced? t start delimiter delimiter = none := by
  cases found : Block.braced? t start delimiter delimiter with
  | none => rfl
  | some b =>
      simp only [Block.braced?, closingFrom?_same, Option.bind_eq_bind, Option.bind_none,
        Option.bind_fun_none] at found
      cases found

section Blocks

variable {t : Text} {start : Nat} {opening closing : Char}

/-- What a block closes with is what the scan behind its opening finds: the body can always be
cut. -/
theorem Block.close_braced? {n : Nat} {inner : Text}
    (found : openingFrom? opening start 0 t = some (n, inner)) :
    (Block.braced? t start opening closing).map (·.close) =
      closingFrom? opening closing 1 (n + opening.utf8Size) inner := by
  simp only [Block.braced?, found, Option.bind_eq_bind, Option.bind_some]
  cases closed : closingFrom? opening closing 1 (n + opening.utf8Size) inner with
  | none => rfl
  | some close =>
      obtain ⟨q, s, rfl, rfl⟩ := closingFrom?_spec closed
      simp only [Option.bind_some]
      rw [Nat.add_sub_cancel_left, Text.upTo?_append]
      rfl

theorem drop_encode (p s : Text) : (Utf8.encode (p ++ s)).drop p.size = Utf8.encode s := by
  rw [Utf8.encode_append, ← Utf8.length_encode]
  exact List.drop_left

/-- The byte scan that starts at the opening character with a depth of zero does not underflow, and
ends where the block does. -/
theorem scanBytes_of_firstAt (asciiO : IsAscii opening) (asciiC : IsAscii closing)
    (differ : opening ≠ closing) {n : Nat}
    (first : FirstAt (asciiByte opening) start (Utf8.encode t) n) :
    scanBytes (asciiByte opening) (asciiByte closing) 0 n ((Utf8.encode t).drop n) =
      .ofOffset? ((Block.braced? t start opening closing).map (·.close)) := by
  cases found : openingFrom? opening start 0 t with
  | none => exact absurd first (not_firstAt_of_openingFrom? asciiO found)
  | some result =>
      obtain ⟨n', inner⟩ := result
      obtain ⟨p, rfl, rfl, first'⟩ := firstAt_of_openingFrom? asciiO found
      obtain rfl := first.unique first'
      rw [Block.close_braced? found, drop_encode, Utf8.encode_cons, encodeChar_of_isAscii asciiO,
        List.singleton_append, scanBytes, if_pos rfl, scanBytes_encode asciiO asciiC differ
          Nat.zero_lt_one, utf8Size_of_isAscii asciiO, Nat.zero_add]

/-- Behind an opening character that something inside closes, the depth is one more than inside. -/
theorem depthBehind_of_opening (differ : opening ≠ closing) (asciiO : IsAscii opening)
    (asciiC : IsAscii closing) (p inner : Text) (k : Nat) :
    depthBehind (asciiByte opening) (asciiByte closing) (Utf8.encode (p ++ opening :: inner)) p.size
        (p.size + k) =
      1 + ((Utf8.encode inner).take k).count (asciiByte opening) -
        ((Utf8.encode inner).take k).count (asciiByte closing) := by
  have width : p.size + k + 1 - p.size = k + 1 := by omega
  rw [depthBehind, drop_encode, Utf8.encode_cons, encodeChar_of_isAscii asciiO,
    List.singleton_append, width, List.take_succ_cons, List.count_cons_self,
    List.count_cons_of_ne (asciiByte_ne asciiO asciiC differ)]
  omega

/-- The scan behind the opening character of a block covers the body, in which something is open all
the time. -/
theorem Block.exists_scanned (asciiO : IsAscii opening) (asciiC : IsAscii closing)
    (differ : opening ≠ closing) {b : Block}
    (found : Block.braced? t start opening closing = some b) :
    ∃ p s, t = p ++ opening :: (b.body ++ closing :: s) ∧ b.opening = p.size ∧
      b.bodyStart = p.size + 1 ∧ b.close = p.size + 1 + Text.size b.body ∧ b.stop = b.close + 1 ∧
      FirstAt (asciiByte opening) start (Utf8.encode t) p.size ∧
      b.body.count opening = b.body.count closing ∧
      ∀ front, front <+: Utf8.encode b.body →
        front.count (asciiByte closing) < 1 + front.count (asciiByte opening) := by
  simp only [Block.braced?, Option.bind_eq_bind, Option.bind_eq_some_iff] at found
  obtain ⟨⟨openAt, inner⟩, opened, close, closed, body, cut, made⟩ := found
  obtain ⟨p, rfl, rfl, first⟩ := firstAt_of_openingFrom? asciiO opened
  rw [utf8Size_of_isAscii asciiO, Nat.zero_add] at closed
  -- the bytes that the scan has passed are those of the body
  have scans := scanBytes_scansTo (asciiByte_ne asciiO asciiC differ) Nat.zero_lt_one (p.size + 1)
    (Utf8.encode inner)
  rw [scanBytes_encode asciiO asciiC differ Nat.zero_lt_one, closed] at scans
  obtain ⟨front, rest, split, place, even, isOpen⟩ := scans.of_closed
  obtain ⟨q, s, rfl, rfl⟩ := closingFrom?_spec closed
  rw [Nat.zero_add, utf8Size_of_isAscii asciiO, Nat.add_sub_cancel_left, Text.upTo?_append,
    Option.some.injEq] at cut
  subst cut
  obtain rfl := Option.some.inj made
  rw [Utf8.encode_append, Utf8.encode_cons, encodeChar_of_isAscii asciiC] at split
  obtain ⟨rfl, _⟩ := List.append_inj split (by rw [Utf8.length_encode]; omega)
  refine ⟨p, s, rfl, Nat.zero_add _, ?_, rfl, ?_, first, ?_, isOpen⟩
  · dsimp only
    rw [utf8Size_of_isAscii asciiO, Nat.zero_add]
  · dsimp only
    rw [utf8Size_of_isAscii asciiC]
  · rw [count_encode asciiO, count_encode asciiC] at even
    dsimp only
    omega

/-- Every block that is found is a matching one. -/
theorem Block.braced?_matching (asciiO : IsAscii opening) (asciiC : IsAscii closing)
    (differ : opening ≠ closing) {b : Block}
    (found : Block.braced? t start opening closing = some b) :
    b.Matching t start opening closing := by
  obtain ⟨p, s, split, opens, bodyStart, close, stop, first, even, isOpen⟩ :=
    Block.exists_scanned asciiO asciiC differ found
  have encoded : Utf8.encode (b.body ++ closing :: s) =
      Utf8.encode b.body ++ asciiByte closing :: Utf8.encode s := by
    rw [Utf8.encode_append, Utf8.encode_cons, encodeChar_of_isAscii asciiC]
    rfl
  have width : (Utf8.encode b.body).length = Text.size b.body := Utf8.length_encode b.body
  refine
    { opens := opens ▸ first
      opensBefore := by omega
      closes := ?_
      isOpen := ?_
      bodyStart := by omega
      stop := stop
      inside := ?_
      body := ?_
      even := even
      nested := ?_ }
  · have through : (Utf8.encode b.body ++ asciiByte closing :: Utf8.encode s).take
        (Text.size b.body + 1) = Utf8.encode b.body ++ [asciiByte closing] := by
      rw [← width, List.take_length_add_append]
      rfl
    have place : b.close = p.size + (Text.size b.body + 1) := by omega
    rw [opens, place, split, depthBehind_of_opening differ asciiO asciiC, encoded, through,
      List.count_append, List.count_append, count_encode asciiO, count_encode asciiC,
      List.count_singleton_self, List.count_singleton, even]
    have other : (asciiByte closing == asciiByte opening) = false :=
      beq_eq_false_iff_ne.2 (asciiByte_ne asciiC asciiO differ.symm)
    simp [other]
    omega
  · intro n behind before
    obtain ⟨k, rfl⟩ := Nat.exists_eq_add_of_le (opens ▸ behind)
    have within : k ≤ (Utf8.encode b.body).length := by omega
    have held := isOpen _ (List.take_prefix k (Utf8.encode b.body))
    rw [opens, split, depthBehind_of_opening differ asciiO asciiC, encoded,
      List.take_append_of_le_length within]
    omega
  · rw [split]
    simp [utf8Size_of_isAscii asciiO, utf8Size_of_isAscii asciiC]
    omega
  · refine Text.slice?_eq_some_iff.2 ⟨p ++ [opening], closing :: s, by rw [split]; simp, ?_⟩
    simp [Block.bodySpan, bodyStart, close, utf8Size_of_isAscii asciiO]
  · intro front isFront
    have held := isOpen (Utf8.encode front) (by
      obtain ⟨rest, whole⟩ := isFront
      exact ⟨Utf8.encode rest, by rw [← Utf8.encode_append, whole]⟩)
    rw [count_encode asciiO, count_encode asciiC] at held
    omega

/-- What a block covers has as many closing as opening delimiters. -/
theorem Block.Matching.exists_balanced {b : Block} (matching : b.Matching t start opening closing) :
    ∃ n, FirstAt (asciiByte opening) start (Utf8.encode t) n ∧
      ∃ front, front <+: (Utf8.encode t).drop n ∧ front ≠ [] ∧
        front.count (asciiByte opening) = front.count (asciiByte closing) := by
  refine ⟨b.opening, matching.opens, _, List.take_prefix (b.close + 1 - b.opening) _, ?_, ?_⟩
  · have covered := matching.opensBefore
    rw [matching.opens.drop_eq, Nat.sub_add_comm (by omega), List.take_succ_cons]
    exact List.cons_ne_nil _ _
  · have level := matching.closes
    unfold depthBehind at level
    omega

/-- Where something open is closed again, there is a block. -/
theorem Block.exists_braced? (asciiO : IsAscii opening) (asciiC : IsAscii closing)
    (differ : opening ≠ closing) {n : Nat}
    (first : FirstAt (asciiByte opening) start (Utf8.encode t) n)
    (balanced : ∃ front, front <+: (Utf8.encode t).drop n ∧ front ≠ [] ∧
      front.count (asciiByte opening) = front.count (asciiByte closing)) :
    ∃ b, Block.braced? t start opening closing = some b := by
  have differBytes := asciiByte_ne asciiO asciiC differ
  cases found : Block.braced? t start opening closing with
  | some b => exact ⟨b, rfl⟩
  | none =>
      exfalso
      -- the scan has met the end, so every front has something open
      have scanned := scanBytes_of_firstAt asciiO asciiC differ first
      have scans := scanBytes_scansTo differBytes Nat.zero_lt_one (n + 1)
        ((Utf8.encode t).drop (n + 1))
      rw [found, first.drop_eq, scanBytes, if_pos rfl, Nat.zero_add] at scanned
      rw [scanned] at scans
      obtain ⟨front, isFront, someBytes, even⟩ := balanced
      rw [first.drop_eq] at isFront
      rcases List.prefix_cons_iff.1 isFront with rfl | ⟨p, rfl, behind⟩
      · exact someBytes rfl
      · cases scans with
        | unclosed isOpen =>
            have held := isOpen p behind
            rw [List.count_cons_self, List.count_cons_of_ne differBytes] at even
            omega

end Blocks

/-- For any text, any offset to start from and any two different ASCII delimiters, a block is found
exactly if there is an opening delimiter at or behind the offset and the text from the first one on
has a front with as many closing as opening delimiters.  The block then begins at that delimiter and
ends where the depth counted from it first returns to zero; its body is the text between, with its
delimiters nested.  The counter of the scan never falls below zero.  With equal delimiters there is
no block. -/
theorem braced_block_is_least_balanced (t : Text) (start : Nat) (opening closing : Char)
    (asciiO : IsAscii opening) (asciiC : IsAscii closing) (differ : opening ≠ closing) :
    ((∃ b, Block.braced? t start opening closing = some b) ↔
      ∃ n, FirstAt (asciiByte opening) start (Utf8.encode t) n ∧
        ∃ front, front <+: (Utf8.encode t).drop n ∧ front ≠ [] ∧
          front.count (asciiByte opening) = front.count (asciiByte closing)) ∧
    (∀ b, Block.braced? t start opening closing = some b → b.Matching t start opening closing) ∧
    (∀ n, FirstAt (asciiByte opening) start (Utf8.encode t) n →
      scanBytes (asciiByte opening) (asciiByte closing) 0 n ((Utf8.encode t).drop n) =
        .ofOffset? ((Block.braced? t start opening closing).map (·.close))) ∧
    ∀ delimiter, Block.braced? t start delimiter delimiter = none := by
  refine ⟨⟨?_, ?_⟩, ?_, ?_, Block.braced?_same t start⟩
  · rintro ⟨b, found⟩
    exact (Block.braced?_matching asciiO asciiC differ found).exists_balanced
  · rintro ⟨n, first, balanced⟩
    exact Block.exists_braced? asciiO asciiC differ first balanced
  · intro b found
    exact Block.braced?_matching asciiO asciiC differ found
  · intro n first
    exact scanBytes_of_firstAt asciiO asciiC differ first

/-- The block is searched for from inside a character, and one delimiter too many follows it. -/
theorem braced_block_is_least_balanced_nested :
    Block.braced? "é\x7ba\x7bb\x7d\x7d\x7d".toList 1 '{' '}' =
        some ⟨2, 3, 7, 8, "a\x7bb\x7d".toList⟩ ∧
      Block.Matching "é\x7ba\x7bb\x7d\x7d\x7d".toList 1 '{' '}'
        ⟨2, 3, 7, 8, "a\x7bb\x7d".toList⟩ := by
  have found : Block.braced? "é\x7ba\x7bb\x7d\x7d\x7d".toList 1 '{' '}' =
      some ⟨2, 3, 7, 8, "a\x7bb\x7d".toList⟩ := by
    decide
  have matching := braced_block_is_least_balanced "é\x7ba\x7bb\x7d\x7d\x7d".toList 1 '{' '}'
    (by decide) (by decide) (by decide)
  exact ⟨found, matching.2.1 _ found⟩

end CallAtlas
