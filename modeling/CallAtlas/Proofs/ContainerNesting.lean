/-
Module: CallAtlas.Proofs.ContainerNesting
Purpose: How the classes of a file lie in each other.  Headers are apart and in order, and the body
  of a later class lies in the body of an earlier one or behind it.  A header in braces may run on
  over the end of the class in which it starts; then its body is behind that class.
Main definitions: Container.Before, NestedContainers, Container.Leaves, Container.OfBlock
Main results: ContainerForm.braced_nested, ContainerForm.brace_of_leaves,
  Pattern.matchesFrom_unmarked, ContainerForm.keywords_nested,
  ContainerForm.keywords_pairwise_not_leaves
-/
import CallAtlas.Proofs.BlockNesting
import CallAtlas.Proofs.KeywordBlocks
import CallAtlas.Proofs.RecordPositions

namespace CallAtlas

open Pattern

/-- A container before another one: the header of the second starts behind the header of the first,
and the body of the second ends inside the body of the first or begins behind it. -/
structure Container.Before (c d : Container) : Prop where
  header : c.bodyStart ≤ d.start
  body : d.bodyEnd ≤ c.bodyEnd ∨ c.bodyEnd ≤ d.bodyStart

/-- Containers whose headers are not empty and which lie in each other or apart, in order. -/
structure NestedContainers (containers : List Container) : Prop where
  opens : ∀ c ∈ containers, c.start < c.bodyStart
  before : containers.Pairwise Container.Before

/-- The header of a container starts in the body of another one that ends before the body of the
first begins. -/
structure Container.Leaves (c d : Container) : Prop where
  starts : d.holds c.start = true
  ends : d.bodyEnd ≤ c.bodyStart

theorem Container.holds_iff {c : Container} {n : Nat} :
    c.holds n = true ↔ c.bodyStart ≤ n ∧ n < c.bodyEnd := by
  simp [Container.holds]

/-- A container whose body is the body of a block. -/
structure Container.OfBlock (c : Container) (m : Match) (b : Block) : Prop where
  start : c.start = m.start
  header : c.bodyStart = m.stop
  bodyStart : c.bodyStart = b.bodyStart
  bodyEnd : c.bodyEnd = b.close

/-! ### Bodies in braces -/

/-- The character at an offset between the ends of a part is in the part. -/
theorem Text.mem_of_between {x : Char} {p s r q u : Text} (same : p ++ (s ++ r) = q ++ x :: u)
    (behind : p.size ≤ q.size) (before : q.size < p.size + s.size) : x ∈ s := by
  obtain ⟨a, rfl, inner⟩ : ∃ a, q = p ++ a ∧ s ++ r = a ++ x :: u := by
    rcases List.append_eq_append_iff.1 same with ⟨a, split, inner⟩ | ⟨a, rfl, inner⟩
    · exact ⟨a, split, inner⟩
    · rw [Text.size_append] at behind
      obtain rfl : a = [] := Text.eq_nil_of_size_eq_zero (by omega)
      exact ⟨[], by simp, inner.symm⟩
  rw [Text.size_append] at before
  rcases List.append_eq_append_iff.1 inner with ⟨b, rfl, _⟩ | ⟨b, rfl, rest⟩
  · rw [Text.size_append] at before
    omega
  · cases b with
    | nil => simp at before
    | cons y b =>
        obtain ⟨rfl, _⟩ := List.cons.inj rest
        simp

/-- A header that ends with a brace ends just behind it. -/
theorem Pattern.FoundIn.exists_last {front : Pattern} {x : Char} {t : Text} {m : Match}
    (found : (front ++ char x).FoundIn t m) :
    ∃ p s r, t = p ++ (s ++ x :: r) ∧ p.size = m.start ∧ m.stop = m.start + s.size + x.utf8Size ∧
      t.slice ⟨m.start, m.stop⟩ = s ++ [x] := by
  obtain ⟨c, inside, start, whole⟩ := found.exists_matches
  generalize after : m.after = c', m.marks = marks at whole
  cases whole with
  | seq first second =>
      obtain ⟨s, reads⟩ := first.reads
      cases second with
      | @one _ before offset y rest accepted =>
          obtain rfl := beq_iff_eq.1 accepted
          have both := reads.trans (Cursor.Reads.single _ _ _ _)
          obtain ⟨p, r, split, place, slice⟩ := inside.slice both
          have stop : m.stop = m.start + s.size + y.utf8Size := by
            rw [Match.stop, after, start, both.offset, Text.size_append, Nat.add_assoc]
            simp
          refine ⟨p, s, r, by simpa using split, place.trans start.symm, stop, ?_⟩
          rw [start, Match.stop, after]
          exact slice

namespace ContainerForm

variable {front : Pattern} {code : Text} {m m' : Match} {c d : Container}

/-- The block of a header that ends with a brace opens with that brace. -/
theorem exists_braced (found : (front ++ char '{').FoundIn code m)
    (read : ContainerForm.read? ⟨front ++ char '{', .braces⟩ code m = some c) :
    ∃ b, Block.braced? code (m.stop - 1) '{' '}' = some b ∧
      b.Matching code (m.stop - 1) '{' '}' ∧ b.opening + 1 = m.stop ∧ c.OfBlock m b := by
  simp only [read?, BodyForm.bodyOf?, Option.bind_eq_bind, Option.bind_eq_some_iff] at read
  obtain ⟨_, _, body, cut, made⟩ := read
  obtain ⟨b, braced, rfl⟩ := Option.map_eq_some_iff.1 cut
  obtain rfl := Option.some.inj made
  have matching := Block.braced?_matching (by decide) (by decide) (by decide) braced
  have opening : b.opening + 1 = m.stop := by
    obtain ⟨p, s, r, split, start, stop, _⟩ := found.exists_last
    have width : Char.utf8Size '{' = 1 := rfl
    have here : FirstAt (asciiByte '{') (m.stop - 1) (Utf8.encode code) (m.stop - 1) := by
      refine ⟨Nat.le_refl _, ?_, fun n late early => absurd late (Nat.not_le_of_lt early)⟩
      have place : m.stop - 1 = (Utf8.encode (p ++ s)).length := by
        rw [Utf8.length_encode, Text.size_append]
        omega
      rw [split, ← List.append_assoc, Utf8.encode_append, Utf8.encode_cons, place,
        List.getElem?_append_right (Nat.le_refl _), Nat.sub_self]
      rfl
    have same := matching.opens.unique here
    omega
  refine ⟨b, braced, matching, opening, rfl, ?_, rfl, rfl⟩
  exact matching.bodyStart.trans opening

/-- A header that ends with a brace is not empty. -/
theorem start_lt_stop (found : (front ++ char '{').FoundIn code m) : m.start < m.stop := by
  obtain ⟨_, _, _, _, _, stop, _⟩ := found.exists_last
  have width := Char.utf8Size_pos '{'
  omega

theorem braced_before (found : (front ++ char '{').FoundIn code m)
    (found' : (front ++ char '{').FoundIn code m')
    (read : ContainerForm.read? ⟨front ++ char '{', .braces⟩ code m = some c)
    (read' : ContainerForm.read? ⟨front ++ char '{', .braces⟩ code m' = some d)
    (order : m.stop ≤ m'.start) : c.Before d := by
  obtain ⟨b, _, matching, opening, ofBlock⟩ := exists_braced found read
  obtain ⟨b', _, matching', opening', ofBlock'⟩ := exists_braced found' read'
  have moves := start_lt_stop found'
  refine ⟨?_, ?_⟩
  · rw [ofBlock.header, ofBlock'.start]
    exact order
  · rw [ofBlock.bodyEnd, ofBlock'.bodyEnd, ofBlock'.bodyStart]
    have stop := matching.stop
    have stop' := matching'.stop
    have bodyStart' := matching'.bodyStart
    rcases matching.behind_or_inside matching' (by omega) with behind | inside
    · exact Or.inr (by omega)
    · have closes := inside.closes
      exact Or.inl (by omega)

/-- Classes in braces are nested. -/
theorem braced_nested (front : Pattern) (code : Text) :
    NestedContainers (ContainerForm.findAll ⟨front ++ char '{', .braces⟩ code) where
  opens c listed := by
    obtain ⟨m, isHeader, read⟩ := List.mem_filterMap.1 listed
    have found := mem_findAll isHeader
    obtain ⟨b, _, _, _, ofBlock⟩ := exists_braced found read
    rw [ofBlock.start, ofBlock.header]
    exact start_lt_stop found
  before := by
    apply List.pairwise_filterMap.2
    apply (findAll_pairwise (front ++ char '{') code).imp_of_mem
    intro m m' isHeader isHeader' order c read d read'
    exact braced_before (mem_findAll isHeader) (mem_findAll isHeader') read read' order

/-- A block that ends inside a header has its closing brace in the header. -/
theorem closing_mem_header {start : Nat} {b : Block} (found : (front ++ char '{').FoundIn code m)
    (braced : Block.braced? code start '{' '}' = some b) (behind : m.start ≤ b.close)
    (before : b.close + 1 < m.stop) : '}' ∈ code.slice ⟨m.start, m.stop⟩ := by
  obtain ⟨p, s, r, split, begins, ends, slice⟩ := found.exists_last
  obtain ⟨q, s', split', _, _, close, _⟩ :=
    Block.exists_scanned (by decide) (by decide) (by decide) braced
  have width : Char.utf8Size '{' = 1 := rfl
  have place : Text.size (q ++ '{' :: b.body) = b.close := by
    rw [Text.size_append, Text.size_cons]
    omega
  have same : p ++ (s ++ '{' :: r) = (q ++ '{' :: b.body) ++ '}' :: s' := by
    rw [← split, split', List.append_assoc, List.cons_append]
  rw [slice]
  apply List.mem_append_left
  exact Text.mem_of_between same (by omega) (by omega)

/-- A header that leaves a class in braces runs over the brace that closes the class. -/
theorem brace_of_leaves
    (listed : c ∈ ContainerForm.findAll ⟨front ++ char '{', .braces⟩ code)
    (listed' : d ∈ ContainerForm.findAll ⟨front ++ char '{', .braces⟩ code)
    (leaves : c.Leaves d) : '}' ∈ code.slice ⟨c.start, c.bodyStart⟩ := by
  obtain ⟨m, isHeader, read⟩ := List.mem_filterMap.1 listed
  obtain ⟨m', isHeader', read'⟩ := List.mem_filterMap.1 listed'
  have found := mem_findAll isHeader
  obtain ⟨b, _, matching, opening, ofBlock⟩ := exists_braced found read
  obtain ⟨b', braced', matching', opening', ofBlock'⟩ :=
    exists_braced (mem_findAll isHeader') read'
  have moves := start_lt_stop found
  obtain ⟨holdsFrom, holdsTo⟩ := Container.holds_iff.1 leaves.starts
  have ends := leaves.ends
  rw [ofBlock.start, ofBlock'.header] at holdsFrom
  rw [ofBlock.start, ofBlock'.bodyEnd] at holdsTo
  rw [ofBlock.header, ofBlock'.bodyEnd] at ends
  -- the class that is left ends before the brace at the end of the header
  have closesFirst : b'.stop ≤ b.opening := by
    have opensBefore := matching.opensBefore
    have stop := matching.stop
    rcases matching'.behind_or_inside matching (by omega) with behind | inside
    · exact behind
    · have closes := inside.closes
      omega
  have stop' := matching'.stop
  rw [ofBlock.start, ofBlock.header]
  exact closing_mem_header found braced' (by omega) (by omega)

end ContainerForm

/-! ### Bodies between keywords -/

namespace Pattern

variable {p q : Pattern} {c : Cursor} {m : Match}

theorem search?_unmarked {before : Option Char} {offset : Nat} {t : Text}
    (alike : p.unmarked = q.unmarked) (found : p.search? before offset t = some m) :
    ∃ m', q.search? before offset t = some m' ∧ m'.start = m.start ∧ m'.after = m.after := by
  induction t generalizing before offset with
  | nil => exact matchAt?_unmarked alike found
  | cons x t ih =>
      rw [search?] at found ⊢
      cases here : p.matchAt? ⟨before, offset, x :: t⟩ with
      | some first =>
          rw [here] at found
          obtain rfl := Option.some.inj found
          obtain ⟨m', there, same⟩ := matchAt?_unmarked alike here
          rw [there]
          exact ⟨m', rfl, same⟩
      | none =>
          rw [here] at found
          have nowhere : q.matchAt? ⟨before, offset, x :: t⟩ = none := by
            apply Option.eq_none_iff_forall_ne_some.2
            intro m' there
            obtain ⟨_, here', _⟩ := matchAt?_unmarked alike.symm there
            rw [here] at here'
            cases here'
          rw [nowhere]
          exact ih found

theorem matchesFrom_unmarked {fuel : Text} (alike : p.unmarked = q.unmarked)
    (listed : m ∈ p.matchesFrom fuel c) :
    ∃ m' ∈ q.matchesFrom fuel c, m'.start = m.start ∧ m'.after = m.after := by
  induction fuel generalizing c with
  | nil =>
      rw [matchesFrom, Option.mem_toList] at listed
      obtain ⟨m', found, same⟩ := search?_unmarked alike listed
      exact ⟨m', by rw [matchesFrom, Option.mem_toList]; exact found, same⟩
  | cons x fuel ih =>
      rw [matchesFrom] at listed ⊢
      split at listed
      · cases listed
      · next first found =>
          obtain ⟨first', found', start, after⟩ := search?_unmarked alike found
          have resume : first'.resume = first.resume := by
            simp only [Match.resume, start, after]
          rw [searchFrom?, found']
          rcases List.mem_cons.1 listed with rfl | later
          · exact ⟨first', List.mem_cons_self, start, after⟩
          · obtain ⟨m', later', same⟩ := ih later
            exact ⟨m', List.mem_cons_of_mem _ (resume ▸ later'), same⟩

end Pattern

namespace ContainerForm

open KeywordScan

variable {header : Pattern} {pair : KeywordPair} {code : Text} {m m' : Match} {c d : Container}

/-- The body of a header of keywords runs from the header to the statement that closes it. -/
theorem exists_closing (alike : header.unmarked = pair.opener.unmarked) (separated : pair.Separated)
    (found : header.FoundIn code m)
    (read : ContainerForm.read? ⟨header, .keywords pair⟩ code m = some c) :
    ∃ o e, pair.opener.FoundIn code o ∧ o.start = m.start ∧ o.after = m.after ∧
      EndsAt pair ⟨1, o.after⟩ e ∧ c.OfBlock m (Block.between code o e) := by
  simp only [read?, BodyForm.bodyOf?, Option.bind_eq_bind, Option.bind_eq_some_iff] at read
  obtain ⟨_, _, body, cut, made⟩ := read
  obtain ⟨b, opened, rfl⟩ := Option.map_eq_some_iff.1 cut
  obtain rfl := Option.some.inj made
  obtain ⟨place, inside, there⟩ := found
  obtain ⟨o, there', start, after⟩ := matchAt?_unmarked alike there
  have opens : pair.opener.FoundIn code o := ⟨place, inside, there'⟩
  rw [← start] at opened
  obtain ⟨e, ends, rfl⟩ := separated.endsAt_of_foundIn opens opened
  refine ⟨o, e, opens, start, after, ends, rfl, ?_, rfl, rfl⟩
  exact congrArg Cursor.offset after

/-- A later class between keywords lies behind the earlier one, header included, or in its body. -/
theorem behind_or_inside {fuel : Text} (alike : header.unmarked = pair.opener.unmarked)
    (separated : pair.Separated) (found : header.FoundIn code m)
    (listed : m' ∈ header.matchesFrom fuel m.resume)
    (read : ContainerForm.read? ⟨header, .keywords pair⟩ code m = some c)
    (read' : ContainerForm.read? ⟨header, .keywords pair⟩ code m' = some d) :
    c.bodyEnd ≤ d.start ∨ d.bodyStart < c.bodyEnd ∧ d.bodyEnd ≤ c.bodyEnd := by
  obtain ⟨o, e, opens, start, after, ends, ofBlock⟩ := exists_closing alike separated found read
  obtain ⟨o', e', opens', start', after', ends', ofBlock'⟩ :=
    exists_closing alike separated (matchesFrom_sound found.resume_in listed) read'
  have closer := ends.found opens.after_in
  have closer' := ends'.found opens'.after_in
  -- the opening statement of the later class is listed behind the one of the earlier class
  obtain ⟨o'', listed', start'', after''⟩ := matchesFrom_unmarked alike listed
  have resume : o.resume = m.resume := by
    simp only [Match.resume, start, after]
  rw [after', ← after''] at ends'
  rw [← resume] at listed'
  have apart := separated.behind_or_inside opens listed' ends ends'
  rw [start''] at apart
  have bodyEnd : c.bodyEnd = e.start := ofBlock.bodyEnd
  have bodyEnd' : d.bodyEnd = e'.start := ofBlock'.bodyEnd
  have bodyStart' : d.bodyStart = o'.stop := ofBlock'.bodyStart
  have inOrder : o'.stop ≤ e'.start := by
    rw [after'', ← after'] at ends'
    exact ends'.place_le opens'.after_in
  have moves := separated.start_lt_stop_of_closer closer
  have moves' := separated.start_lt_stop_of_closer closer'
  rw [ofBlock'.start, bodyEnd, bodyEnd', bodyStart']
  omega

/-- Classes between keywords are nested. -/
theorem keywords_nested (alike : header.unmarked = pair.opener.unmarked)
    (separated : pair.Separated) (code : Text) :
    NestedContainers (ContainerForm.findAll ⟨header, .keywords pair⟩ code) where
  opens c listed := by
    obtain ⟨m, isHeader, read⟩ := List.mem_filterMap.1 listed
    have found := mem_findAll isHeader
    obtain ⟨o, _, opens, start, _, _, ofBlock⟩ := exists_closing alike separated found read
    rw [ofBlock.start, ofBlock.bodyStart, ← start]
    exact separated.start_lt_stop_of_opener opens
  before := by
    apply List.pairwise_filterMap.2
    have both := (findAll_pairwise header code).and
      (matchesFrom_pairwise_listed header code (.ofText code))
    apply both.imp_of_mem
    rintro m m' isHeader isHeader' ⟨order, fuel, listed⟩ c read d read'
    have found := mem_findAll isHeader
    have found' := mem_findAll isHeader'
    obtain ⟨_, _, _, _, _, _, ofBlock⟩ := exists_closing alike separated found read
    obtain ⟨_, _, _, _, _, _, ofBlock'⟩ := exists_closing alike separated found' read'
    have start := ofBlock'.start
    have header := ofBlock'.header
    have ordered := found'.start_le_stop
    refine ⟨by rw [ofBlock.header, start]; exact order, ?_⟩
    rcases behind_or_inside alike separated found listed read read' with behind | inside
    · exact Or.inr (by omega)
    · exact Or.inl inside.2

/-- A header of keywords ends in the class in which it starts. -/
theorem keywords_pairwise_not_leaves (alike : header.unmarked = pair.opener.unmarked)
    (separated : pair.Separated) (code : Text) :
    (ContainerForm.findAll ⟨header, .keywords pair⟩ code).Pairwise fun c d => ¬ d.Leaves c := by
  apply List.pairwise_filterMap.2
  apply (matchesFrom_pairwise_listed header code (.ofText code)).imp_of_mem
  rintro m m' isHeader _ ⟨fuel, listed⟩ c read d read' leaves
  have starts := (Container.holds_iff.1 leaves.starts).2
  have ends := leaves.ends
  rcases behind_or_inside alike separated (mem_findAll isHeader) listed read read' with
    behind | inside
  · omega
  · omega

end ContainerForm

end CallAtlas
