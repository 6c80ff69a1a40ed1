/-
Module: CallAtlas.Proofs.CheckedExtraction
Purpose: Extraction that stops at the first offset that cannot be used.  Comments and strings are
  blanked by byte ranges, declarations, calls and constructs are read with cuts, and a body is cut
  out of the views with the declarations in it blanked.  Here every difference of offsets and every
  range is checked, and bytes are read as text only if they are UTF-8.  Where the declarations stand
  at positions of both views nothing is refused.
Main definitions: Checked.blank, Checked.views, Checked.blankRange, Checked.cutBlanked,
  Grammar.findingsChecked, Grammar.extractChecked
Main results: Checked.views_eq, Checked.foldlM_blanked, Checked.cutBlanked_eq,
  Language.extractChecked_eq
-/
import CallAtlas.Proofs.CheckedBodies
import CallAtlas.Proofs.CheckedDeclarations

namespace CallAtlas

/-! ### Checked operations -/

/-- A byte, or a space in its place unless it is a line feed. -/
def blankByte (b : UInt8) : UInt8 := if b != 0x0a then 0x20 else b

namespace Checked

/-- The text of some bytes. -/
def text (bytes : List UInt8) : Checked Text :=
  match Utf8.decode? bytes with
  | some t => .ok t
  | none => .error (.unreadable bytes)

/-- Blanks a range of some bytes. -/
def blank (bytes : List UInt8) (range : Span) : Checked (List UInt8) := do
  let part ← slice bytes range
  return bytes.take range.start ++ (part.map blankByte ++ bytes.drop range.stop)

/-- A text with the given byte ranges blanked one after the other. -/
def view (t : Text) (ranges : List Span) : Checked Text := do
  let bytes ← ranges.foldlM blank (Utf8.encode t)
  text bytes

/-- The views of a text in a language. -/
def views (lang : Language) (t : Text) : Checked Views := do
  let code ← view t (hiddenRanges lang t)
  let literal ← view t (commentRanges lang t)
  return ⟨t, code, literal⟩

/-- Blanks the part of a range that lies in a window of bytes from `base` to `stop`. -/
def blankRange (base stop : Nat) (window : List UInt8) (range : Span) : Checked (List UInt8) :=
  let first := max range.start base
  let last := min range.stop stop
  if first < last then do
    let i ← subtract first base
    let j ← subtract last base
    blank window ⟨i, j⟩
  else return window

/-- The `length` bytes of a text from offset `base` on, with the given ranges of the text blanked
one after the other. -/
def cutBlanked (t : Text) (base length : Nat) (ranges : List Span) : Checked Text := do
  let window ← slice (Utf8.encode t) ⟨base, base + length⟩
  let bytes ← ranges.foldlM (blankRange base (base + length)) window
  text bytes

/-- The body of a declaration without the declarations in it. -/
def ownText (views : Views) (nested : List Span) (body : Span) : Checked OwnText := do
  let length ← subtract body.stop body.start
  let code ← cutBlanked views.code body.start length nested
  let literal ← cutBlanked views.literal body.start length nested
  return ⟨code, literal⟩

end Checked

/-- What the body of a declaration holds, with all cuts checked. -/
def Grammar.findingsChecked (g : Grammar) (views : Views) (declarations : List Declaration)
    (index : Nat) (d : Declaration) : Checked Findings :=
  match d.body with
  | none => return ⟨0, 1, [], []⟩
  | some body => do
    let own ← Checked.ownText views (nestedRanges declarations index d) body
    let calls ← Checked.findCalls g own
    let constructs ← Checked.findConstructs g own
    return ⟨body.start, g.complexityOf own.code, calls, constructs⟩

/-- The records of a source file, with all cuts checked. -/
def Grammar.extractChecked (g : Grammar) (file : SourceFile) (limit : Nat) :
    Checked FileRecords := do
  let views ← Checked.views g.language file.text
  let containers ← Checked.findContainers g views.code
  let declarations ← Checked.findDeclarations g views containers
  declarations.zipIdx.foldlM
    (fun records (d, index) => do
      let found ← g.findingsChecked views declarations index d
      return records.addDeclaration file limit d found)
    ⟨file.path, file.moduleName, [], [], [], []⟩

/-! ### Blanking -/

theorem length_maskBytes (covered : Nat → Bool) (offset : Nat) (bytes : List UInt8) :
    (maskBytes covered offset bytes).length = bytes.length := by
  induction bytes generalizing offset with
  | nil => rfl
  | cons b bytes ih => rw [maskBytes, List.length_cons, ih, List.length_cons]

theorem maskBytes_eq_map {covered : Nat → Bool} {offset : Nat} {bytes : List UInt8}
    (hidden : ∀ i, i < bytes.length → covered (offset + i) = true) :
    maskBytes covered offset bytes = bytes.map blankByte := by
  apply List.ext_getElem?
  intro i
  rw [getElem?_maskBytes, List.getElem?_map]
  cases at_i : bytes[i]? with
  | none => rfl
  | some b =>
      obtain ⟨bound, _⟩ := List.getElem?_eq_some_iff.1 at_i
      rw [Option.map_some, Option.map_some, hidden i bound, Bool.true_and, blankByte]

/-- To blank twice is to blank what either covers. -/
theorem maskBytes_maskBytes (first second : Nat → Bool) (offset : Nat) (bytes : List UInt8) :
    maskBytes second offset (maskBytes first offset bytes) =
      maskBytes (fun n => first n || second n) offset bytes := by
  induction bytes generalizing offset with
  | nil => rfl
  | cons b bytes ih =>
      simp only [maskBytes, ih]
      congr 1
      by_cases lineFeed : b = 0x0a
      · simp [lineFeed]
      · rcases Bool.eq_false_or_eq_true (first offset) with hidden | free
        · simp [lineFeed, hidden]
        · simp [lineFeed, free]

/-- Two offsets cut bytes in three. -/
theorem exists_middle {bytes : List UInt8} {i j : Nat} (ordered : i ≤ j)
    (inside : j ≤ bytes.length) : ∃ front part back, bytes = front ++ (part ++ back) ∧
      i = front.length ∧ j = front.length + part.length := by
  refine ⟨bytes.take i, (bytes.drop i).take (j - i), (bytes.drop i).drop (j - i), ?_, ?_, ?_⟩
  · rw [List.take_append_drop, List.take_append_drop]
  · rw [List.length_take]
    omega
  · rw [List.length_take, List.length_take, List.length_drop]
    omega

/-- Where the middle of some bytes is covered, it alone is blanked. -/
theorem maskBytes_middle {covered : Nat → Bool} {base : Nat} {front part back : List UInt8}
    (hidden : ∀ k, k < (front ++ (part ++ back)).length →
      covered (base + k) = decide (front.length ≤ k ∧ k < front.length + part.length)) :
    maskBytes covered base (front ++ (part ++ back)) = front ++ (part.map blankByte ++ back) := by
  simp only [List.length_append] at hidden
  rw [maskBytes_append, maskBytes_append]
  congr 1
  · refine maskBytes_of_uncovered fun k bound => ?_
    rw [hidden k (by omega), decide_eq_false_iff_not]
    omega
  congr 1
  · refine maskBytes_eq_map fun k bound => ?_
    rw [Nat.add_assoc, hidden _ (by omega), decide_eq_true_eq]
    omega
  · refine maskBytes_of_uncovered fun k bound => ?_
    rw [Nat.add_assoc, Nat.add_assoc, hidden _ (by omega), decide_eq_false_iff_not]
    omega

theorem Pattern.FoundIn.group_ordered {p : Pattern} {t : Text} {m : Match} {group : Group}
    {span : Span} (found : p.FoundIn t m) (isMarked : m.group? group = some span) :
    span.start ≤ span.stop := by
  obtain ⟨_, _, c₁, c₂, _, _, _, inner, rfl, _⟩ := found.exists_group isMarked
  exact inner.le

theorem commentRanges_ordered {lang : Language} {t : Text} {r : Span}
    (listed : r ∈ commentRanges lang t) : r.start ≤ r.stop := by
  obtain ⟨m, found, isMarked⟩ := List.mem_filterMap.1 listed
  exact (Pattern.mem_findAll found).group_ordered isMarked

theorem hiddenRanges_ordered {lang : Language} {t : Text} {r : Span}
    (listed : r ∈ hiddenRanges lang t) : r.start ≤ r.stop := by
  obtain ⟨m, found, chosen⟩ := List.mem_filterMap.1 listed
  rcases Option.or_eq_some_iff.1 chosen with comment | ⟨_, quoted⟩
  · exact (Pattern.mem_findAll found).group_ordered comment
  · exact (Pattern.mem_findAll found).group_ordered quoted

namespace Checked

theorem text_encode (t : Text) : text (Utf8.encode t) = .ok t := by
  rw [text, Utf8.decode?_encode]

/-- A range inside some bytes is blanked where it covers them, from whatever offset the bytes are
counted. -/
theorem blank_eq {covered : Nat → Bool} {base : Nat} {bytes : List UInt8} {range : Span}
    (ordered : range.start ≤ range.stop) (inside : range.stop ≤ bytes.length)
    (same : ∀ k, k < bytes.length → covered (base + k) = range.contains k) :
    blank bytes range = .ok (maskBytes covered base bytes) := by
  obtain ⟨start, stop⟩ := range
  obtain ⟨front, part, back, rfl, rfl, rfl⟩ := exists_middle ordered inside
  have hidden : ∀ k, k < (front ++ (part ++ back)).length →
      covered (base + k) = decide (front.length ≤ k ∧ k < front.length + part.length) := by
    intro k bound
    rw [same k bound, Span.contains, ← Bool.decide_and]
  rw [blank, slice_middle, maskBytes_middle hidden, List.take_left, ← List.length_append,
    ← List.append_assoc front part back, List.drop_left]
  rfl

/-- One range is blanked where it covers the window, and no cut fails. -/
theorem blankRange_eq (base : Nat) (window : List UInt8) (range : Span) :
    blankRange base (base + window.length) window range =
      .ok (maskBytes range.contains base window) := by
  rw [blankRange]
  split
  · next overlaps =>
      rw [subtract_eq (by omega), subtract_eq (by omega)]
      refine blank_eq (by dsimp only; omega) (by dsimp only; omega) fun k bound => ?_
      rw [Span.contains, Span.contains, ← Bool.decide_and, ← Bool.decide_and, decide_eq_decide]
      dsimp only
      omega
  · next apart =>
      have free : ∀ i, i < window.length → range.contains (base + i) = false := by
        intro i bound
        simp only [Span.contains, Bool.and_eq_false_iff, decide_eq_false_iff_not]
        omega
      rw [maskBytes_of_uncovered free]
      rfl

/-- Ranges that are blanked one after the other are blanked where one of them covers.  A step that
blanks one range may rely on the number of bytes, which never changes. -/
theorem foldlM_blanked {step : List UInt8 → Span → Checked (List UInt8)} {base length : Nat}
    {ranges : List Span}
    (blanked : ∀ bytes : List UInt8, bytes.length = length → ∀ range ∈ ranges,
      step bytes range = .ok (maskBytes range.contains base bytes))
    {bytes : List UInt8} (counted : bytes.length = length) :
    ranges.foldlM step bytes = .ok (maskBytes (covers ranges) base bytes) := by
  induction ranges generalizing bytes with
  | nil =>
      rw [maskBytes_of_uncovered fun _ _ => rfl]
      rfl
  | cons range ranges ih =>
      have same : (maskBytes range.contains base bytes).length = length := by
        rw [length_maskBytes, counted]
      have later := ih (fun bytes counted r listed =>
        blanked bytes counted r (List.mem_cons_of_mem range listed)) same
      rw [maskBytes_maskBytes] at later
      rw [List.foldlM_cons, blanked bytes counted range List.mem_cons_self]
      exact later

/-- Ranges between characters of a text are blanked without an error. -/
theorem view_eq {t : Text} {ranges : List Span} (bounded : Bounded ranges t)
    (ordered : ∀ r ∈ ranges, r.start ≤ r.stop) : view t ranges = .ok (mask ranges t) := by
  have blanked : ranges.foldlM blank (Utf8.encode t) =
      .ok (maskBytes (covers ranges) 0 (Utf8.encode t)) := by
    refine foldlM_blanked (fun bytes counted r listed => ?_) (Utf8.length_encode t)
    refine blank_eq (ordered r listed) ?_ fun k _ => by rw [Nat.zero_add]
    exact counted ▸ (bounded r listed).2.le_size
  rw [view, blanked, ← encode_mask bounded]
  exact text_encode _

theorem views_eq (lang : Language) (t : Text) : views lang t = .ok (Views.of lang t) := by
  rw [views, view_eq (hiddenRanges_bounded lang t) fun r => hiddenRanges_ordered,
    view_eq (commentRanges_bounded lang t) fun r => commentRanges_ordered]
  rfl

/-- A window that begins and ends between characters is cut out and blanked without an error. -/
theorem cutBlanked_eq {ranges : List Span} {p q s : Text}
    (bounded : Bounded ranges (p ++ (q ++ s))) :
    cutBlanked (p ++ (q ++ s)) p.size q.size ranges =
      .ok (blankRanges (p ++ (q ++ s)) p.size q.size ranges) := by
  have window : slice (Utf8.encode (p ++ (q ++ s))) ⟨p.size, p.size + q.size⟩ =
      .ok (Utf8.encode q) := by
    rw [Utf8.encode_append, Utf8.encode_append, ← Utf8.length_encode p, ← Utf8.length_encode q]
    exact slice_middle _ _ _
  have blanked : ranges.foldlM (blankRange p.size (p.size + q.size)) (Utf8.encode q) =
      .ok (maskBytes (covers ranges) p.size (Utf8.encode q)) :=
    foldlM_blanked (fun bytes counted range _ => counted ▸ blankRange_eq p.size bytes range)
      (Utf8.length_encode q)
  rw [maskBytes_encode (wholeCharacters_covers bounded)] at blanked
  simp only [cutBlanked, window, bind, Except.bind, blanked]
  rw [text_encode, blankRanges_eq bounded]

end Checked

/-! ### Extraction -/

section Extraction

variable {lang : Language} {g : Grammar} {views : Views} {declarations : List Declaration}
  {d : Declaration} {body : Span}

theorem Checked.cutBlanked_body {view : Text} (index : Nat)
    (placed : ∀ e ∈ declarations, e.Placed view.IsBoundary) (listed : d ∈ declarations)
    (isBody : d.body = some body) :
    Checked.cutBlanked view body.start (body.stop - body.start)
        (nestedRanges declarations index d) =
      .ok (blankRanges view body.start (body.stop - body.start)
        (nestedRanges declarations index d)) := by
  have known := (placed d listed).body
  obtain ⟨p, q, s, rfl, atStart, width⟩ := (known.bodyStart body isBody).between
    (known.bodyStop body isBody) (known.ordered body isBody).2.1
  rw [← width, ← atStart]
  exact Checked.cutBlanked_eq (nestedRanges_bounded index d placed)

theorem Checked.ownText_eq (index : Nat)
    (inCode : ∀ e ∈ declarations, e.Placed views.code.IsBoundary)
    (inLiteral : ∀ e ∈ declarations, e.Placed views.literal.IsBoundary) (listed : d ∈ declarations)
    (isBody : d.body = some body) :
    Checked.ownText views (nestedRanges declarations index d) body =
      .ok (ownTextOf views (nestedRanges declarations index d) body) := by
  have ordered := ((inCode d listed).body.ordered body isBody).2.1
  rw [Checked.ownText, Checked.subtract_eq ordered]
  simp only [bind, Except.bind, Checked.cutBlanked_body index inCode listed isBody,
    Checked.cutBlanked_body index inLiteral listed isBody]
  rfl

theorem Language.findingsChecked_eq (scanned : lang.grammar? = some g) (index : Nat)
    (inCode : ∀ e ∈ declarations, e.Placed views.code.IsBoundary)
    (inLiteral : ∀ e ∈ declarations, e.Placed views.literal.IsBoundary)
    (listed : d ∈ declarations) :
    g.findingsChecked views declarations index d =
      .ok (g.findings views declarations index d) := by
  cases isBody : d.body with
  | none =>
      rw [Grammar.findingsChecked, Grammar.findings, isBody]
      rfl
  | some body =>
      rw [Grammar.findingsChecked, Grammar.findings, isBody]
      simp only [Checked.ownText_eq index inCode inLiteral listed isBody, bind, Except.bind,
        Checked.findCalls_eq, Language.constructs_checked scanned]
      rfl

/-- Where all declarations stand at positions of both views, extraction meets no error. -/
theorem Language.extractChecked_eq {file : SourceFile} (scanned : lang.grammar? = some g)
    (inCode : ∀ d ∈ g.declared file.text, d.Placed (codeView g.language file.text).IsBoundary)
    (inLiteral : ∀ d ∈ g.declared file.text,
      d.Placed (literalView g.language file.text).IsBoundary) (limit : Nat) :
    g.extractChecked file limit = .ok (g.extract file limit) := by
  rw [Grammar.extractChecked, Checked.views_eq]
  simp only [bind, Except.bind, Language.containers_checked scanned,
    Language.declarations_checked scanned]
  refine Checked.foldlM_eq ?_ _
  rintro records ⟨d, index⟩ listed
  have known : d ∈ g.declared file.text := List.fst_mem_of_mem_zipIdx listed
  have found : g.findingsChecked (Views.of g.language file.text) (g.declared file.text) index d =
      .ok (g.found file.text index d) :=
    Language.findingsChecked_eq scanned index inCode inLiteral known
  exact congrArg (· >>= fun found => pure (records.addDeclaration file limit d found)) found

end Extraction

end CallAtlas
