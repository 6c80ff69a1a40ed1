/-
Module: CallAtlas.Proofs.ElseOwners
Purpose: Which `if` an `else` belongs to.  The clauses of an `if` are a chain: each one is looked
  for behind the body before it.  Read backwards, an `else` tells the body before it and the body
  tells its keyword, so two chains that meet in an `else` are one chain.  This fails where a body
  does not tell its keyword: before an `else` behind a semicolon, and where two keywords share a
  brace.
Main definitions: OwnText.clausesOf, OwnText.Reaches, OwnText.ChainsMeet, OwnText.IfsApart
Main results: OwnText.keyword_unique, OwnText.IfBehind.elseAt_unique, OwnText.Reaches.chainsMeet,
  OwnText.IfsApart.foldl, Language.ifElse_perm, shared_else_means_meeting
-/
import CallAtlas.Proofs.BodyEnds
import CallAtlas.Proofs.CalledNames
import CallAtlas.Proofs.ConstructForms

namespace CallAtlas

open Pattern

/-! ### Reading an `else` -/

/-- A match from the start of a text is one at its first cursor. -/
theorem Pattern.Matches.at_textStart {t : Text} {c c' : Cursor} {m : Marks}
    (found : textStart.Matches c c' m) (inside : c.In t) : c = Cursor.ofText t ∧ c' = c := by
  cases found with
  | here held =>
      obtain ⟨s, reads⟩ := inside
      have start : s = [] := by
        have before := reads.before
        rw [Option.isNone_iff_eq_none.1 held] at before
        cases s using List.reverseRecOn with
        | nil => rfl
        | append_singleton s x => simp at before
      rw [start] at reads
      exact ⟨reads.unique (.refl _), rfl⟩

/-- The word `else` behind the blanks at the start of a text. -/
theorem Pattern.Matches.reads_else {t : Text} {c c' : Cursor} {m : Marks}
    (found : (textStart ++ gap ++ lit "else").Matches c c' m) (inside : c.In t) :
    ∃ b, t = b ++ ("else".toList ++ c'.rest) ∧ c'.offset = Text.size b + 4 ∧
      ∀ y ∈ b, isBlank y = true := by
  cases found with
  | seq front word =>
      cases front with
      | seq start blanks =>
          obtain ⟨rfl, rfl⟩ := start.at_textStart inside
          obtain ⟨b, first, blank⟩ := (Denotes.manyOne isBlank true).sound blanks
          obtain ⟨_, second, rfl⟩ := (Denotes.lit "else").sound word
          refine ⟨b, first.rest.trans (congrArg (b ++ ·) second.rest), ?_, blank⟩
          rw [second.offset, first.offset]
          exact congrArg (· + 4) (Nat.zero_add _)

theorem OwnText.elsePart_reads {t : Text} {m : Match} (found : elsePart.FoundIn t m) :
    ∃ b s, t = b ++ ("else".toList ++ s) ∧ ∀ y ∈ b, isBlank y = true := by
  obtain ⟨c, inside, -, found⟩ := found.exists_matches
  generalize m.marks = marks at found
  cases found with
  | seq word _ =>
      obtain ⟨b, split, -, blank⟩ := word.reads_else inside
      exact ⟨b, _, split, blank⟩

/-- An `else if` has blanks between its words, and its `if` is marked. -/
theorem OwnText.elseIf_reads {t : Text} {m : Match} (found : elseIf.FoundIn t m) :
    ∃ b b' s keyword, t = b ++ ("else".toList ++ (b' ++ ("if".toList ++ s))) ∧
      m.group? .keyword = some keyword ∧ keyword.start = Text.size b + 4 + Text.size b' ∧
      (∀ y ∈ b, isBlank y = true) ∧ ∀ y ∈ b', isBlank y = true := by
  obtain ⟨c, inside, -, found⟩ := found.exists_matches
  generalize marked : m.marks = marks at found
  cases found with
  | seq front after =>
      cases after with
      | here _ =>
      cases front with
      | seq front keyword =>
          cases keyword with
          | mark letters =>
          cases front with
          | seq word blanks =>
              obtain ⟨b, split, place, blank⟩ := word.reads_else inside
              obtain ⟨_, between, _, b', rfl, ⟨x, rfl, first⟩, others⟩ :=
                ((Denotes.one isBlank).seq (Denotes.manyOne isBlank true)).sound blanks
              obtain ⟨_, second, rfl⟩ := (Denotes.lit "if").sound letters
              refine ⟨b, [x] ++ b', m.after.rest, _, ?_, by rw [Match.group?, marked]; rfl, ?_,
                blank, ?_⟩
              · rw [split, between.rest, second.rest]
              · exact between.offset.trans (congrArg (· + _) place)
              · exact List.forall_mem_cons.2 ⟨first, others⟩

/-! ### The clauses of an `if` -/

/-- A clause behind the body of an `if`: where its `else` stands, and its label. -/
structure ElseClause where
  elseAt : Nat
  label : String
deriving Repr, DecidableEq, Inhabited

namespace OwnText

/-- Where the `if` of an `else if` behind an offset stands. -/
def elseIf? (own : OwnText) (stop : Nat) : Option Nat :=
  (elseIf.find? (own.code.rest stop)).bind fun m =>
    (m.group? .keyword).map fun keyword => stop + keyword.start

/-- Whether there is an `else` with a body behind an offset. -/
def hasElse (own : OwnText) (stop : Nat) : Bool :=
  ((elsePart.find? (own.code.rest stop)).bind fun m => own.bodyEnd? (stop + m.stop)).isSome

/-- Where the blanks behind an offset end. -/
def pastBlanks (own : OwnText) (stop : Nat) : Nat :=
  stop + Text.size ((own.code.rest stop).takeWhile isBlank)

/-- The clauses behind a body that ends at `stop`. -/
def elseClauses (own : OwnText) (form : ConditionForm) : Text → Nat → List ElseClause
  | fuel, stop =>
    match own.elseIf? stop with
    | some ifAt =>
      match own.ifBodyEnd? form ifAt with
      | none => []
      | some next =>
        match fuel with
        | [] => [⟨own.pastBlanks stop, "else if"⟩]
        | _ :: fuel => ⟨own.pastBlanks stop, "else if"⟩ :: elseClauses own form fuel next
    | none => if own.hasElse stop then [⟨own.pastBlanks stop, "else"⟩] else []

/-- The clauses of the `if` at an offset. -/
def clausesOf (own : OwnText) (form : ConditionForm) (ifAt : Nat) : List ElseClause :=
  ((own.ifBodyEnd? form ifAt).map (own.elseClauses form own.code)).getD []

/-- Where the `else` keywords of an `if` stand. -/
def elsesOf (own : OwnText) (form : ConditionForm) (ifAt : Nat) : List Nat :=
  (own.clausesOf form ifAt).map (·.elseAt)

/-- The further keywords of the `if` at an offset. -/
def takenOf (own : OwnText) (form : ConditionForm) (ifAt : Nat) : List Nat :=
  ((own.ifBodyEnd? form ifAt).map fun first => (own.elseParts form own.code first).2.2).getD []

variable {own : OwnText} {form : ConditionForm} {stop stop' ifAt ifAt' elseAt : Nat} {fuel : Text}

section Rest

variable {b s : Text} (rest : own.code.rest stop = b ++ ("else".toList ++ s))
  (blank : ∀ y ∈ b, isBlank y = true)

include rest

theorem split_of_rest :
    ∃ p, own.code = p ++ (b ++ ("else".toList ++ s)) ∧ Text.size p = stop := by
  have filled : own.code.rest stop ≠ [] := by
    rw [rest]
    simp
  rw [← rest]
  exact Text.split_of_rest_ne_nil filled

include blank

theorem pastBlanks_of_rest : own.pastBlanks stop = stop + Text.size b := by
  rw [pastBlanks, rest, List.takeWhile_append_of_pos blank]
  exact congrArg (stop + Text.size ·) (List.append_nil b)

theorem elseBehind_of_rest : own.ElseBehind stop (own.pastBlanks stop) := by
  obtain ⟨p, split, place⟩ := split_of_rest rest
  exact ⟨p, b, s, split, place, (pastBlanks_of_rest rest blank).symm, blank⟩

end Rest

theorem elseBehind_of_hasElse (has : own.hasElse stop = true) :
    own.ElseBehind stop (own.pastBlanks stop) := by
  obtain ⟨next, found⟩ := Option.isSome_iff_exists.1 has
  obtain ⟨m, found, -⟩ := Option.bind_eq_some_iff.1 found
  obtain ⟨b, s, rest, blank⟩ := elsePart_reads (find?_sound found)
  exact elseBehind_of_rest rest blank

theorem ElseBehind.hasAt (behind : own.ElseBehind stop elseAt) :
    own.code.HasAt elseAt "else".toList := by
  obtain ⟨p, b, s, split, place, reached, -⟩ := behind
  refine ⟨p ++ b, s, by rw [split, List.append_assoc], ?_⟩
  rw [Text.size_append, place, reached]

/-- The `if` of an `else if` behind a body: blanks, the `else`, and blanks again stand before it. -/
structure IfBehind (own : OwnText) (stop elseAt ifAt : Nat) : Prop where
  isElse : own.ElseBehind stop elseAt
  isIf : own.IfAt ifAt
  gap : own.code.GapBehind 'e' (elseAt + 4) ifAt

theorem ifBehind_of_elseIf? (behind : own.elseIf? stop = some ifAt) :
    own.IfBehind stop (own.pastBlanks stop) ifAt := by
  obtain ⟨m, found, marked⟩ := Option.bind_eq_some_iff.1 behind
  obtain ⟨keyword, isMarked, rfl⟩ := Option.map_eq_some_iff.1 marked
  obtain ⟨b, b', s, keyword', rest, isMarked', start, blank, blank'⟩ :=
    elseIf_reads (find?_sound found)
  obtain rfl := Option.some.inj (isMarked.symm.trans isMarked')
  obtain ⟨p, split, place⟩ := split_of_rest rest
  have blanks := pastBlanks_of_rest rest blank
  refine ⟨elseBehind_of_rest rest blank, ⟨p ++ (b ++ ("else".toList ++ b')), s, ?_, ?_⟩,
    p ++ (b ++ "els".toList), b', "if".toList ++ s, ?_, ?_, ?_, by decide, blank'⟩
  · rw [split]
    simp
  · have word : Text.size "else".toList = 4 := rfl
    simp only [Text.size_append, word]
    omega
  · rw [split]
    simp
  · have word : Text.size "els".toList = 3 := rfl
    have letter : Char.utf8Size 'e' = 1 := rfl
    simp only [Text.size_append, word]
    omega
  · omega

theorem IfBehind.elseAt_lt (behind : own.IfBehind stop elseAt ifAt) : elseAt < ifAt := by
  obtain ⟨_, b, _, -, -, reached, -, -⟩ := behind.gap
  omega

theorem IfBehind.lt (behind : own.IfBehind stop elseAt ifAt) : stop < ifAt := by
  obtain ⟨_, b, _, -, -, reached, -⟩ := behind.isElse
  have word := behind.elseAt_lt
  omega

/-- An `if` tells the `else` before it. -/
theorem IfBehind.elseAt_unique {elseAt' : Nat} (behind : own.IfBehind stop elseAt ifAt)
    (behind' : own.IfBehind stop' elseAt' ifAt) : elseAt = elseAt' :=
  Nat.add_right_cancel (behind.gap.unique behind'.gap).2

/-- The parts of an `if`, read through what can stand behind a body. -/
theorem elseParts_eq (fuel : Text) (stop : Nat) : own.elseParts form fuel stop =
    match own.elseIf? stop with
    | some ifAt =>
      match own.ifBodyEnd? form ifAt with
      | none => (stop, [], [ifAt])
      | some next =>
        match fuel with
        | [] => (next, ["else if"], [ifAt])
        | _ :: fuel =>
          let (last, labels, taken) := own.elseParts form fuel next
          (last, "else if" :: labels, ifAt :: taken)
    | none =>
      match (elsePart.find? (own.code.rest stop)).bind fun m => own.bodyEnd? (stop + m.stop) with
      | some next => (next, ["else"], [])
      | none => (stop, [], []) := by
  rw [elseParts.eq_def]
  dsimp only
  cases found : elseIf.find? (own.code.rest stop) with
  | none =>
      have missing : own.elseIf? stop = none := by rw [elseIf?, found]; rfl
      rw [missing]
      cases elsePart.find? (own.code.rest stop) with
      | none => rfl
      | some m => cases ends : own.bodyEnd? (stop + m.stop) <;> simp only [Option.bind_some, ends]
  | some m =>
      obtain ⟨_, _, _, keyword, _, isMarked, _⟩ := elseIf_reads (find?_sound found)
      have behind : own.elseIf? stop = some (stop + keyword.start) := by
        rw [elseIf?, found, Option.bind_some, isMarked]
        rfl
      rw [behind]
      dsimp only
      rw [isMarked]
      rfl

/-- The labels of the parts are those of the clauses. -/
theorem elseParts_labels (fuel : Text) (stop : Nat) :
    (own.elseParts form fuel stop).2.1 = (own.elseClauses form fuel stop).map (·.label) := by
  rw [elseParts_eq]
  fun_induction elseClauses own form fuel stop with
  | case1 fuel stop ifAt behind bodyless => simp only [behind, bodyless, List.map_nil]
  | case2 stop ifAt behind next ends => simp only [behind, ends, List.map_cons, List.map_nil]
  | case3 stop ifAt behind next ends x fuel ih =>
      rw [← elseParts_eq] at ih
      simp only [behind, ends, List.map_cons, ih]
  | case4 fuel stop other has =>
      obtain ⟨next, found⟩ := Option.isSome_iff_exists.1 has
      simp only [other, found, List.map_cons, List.map_nil]
  | case5 fuel stop other hasNone =>
      simp only [other, Option.not_isSome_iff_eq_none.1 hasNone, List.map_nil]

/-- Further keywords stand behind the body. -/
theorem lt_of_mem_taken {k : Nat} (listed : k ∈ (own.elseParts form fuel stop).2.2) : stop < k := by
  rw [elseParts_eq] at listed
  fun_induction elseClauses own form fuel stop with
  | case1 fuel stop ifAt behind bodyless =>
      simp only [behind, bodyless, List.mem_singleton] at listed
      exact listed ▸ (ifBehind_of_elseIf? behind).lt
  | case2 stop ifAt behind next ends =>
      simp only [behind, ends, List.mem_singleton] at listed
      exact listed ▸ (ifBehind_of_elseIf? behind).lt
  | case3 stop ifAt behind next ends x fuel ih =>
      simp only [behind, ends, List.mem_cons] at listed
      have first := (ifBehind_of_elseIf? behind).lt
      rcases listed with rfl | later
      · exact first
      · rw [elseParts_eq] at later
        have second := lt_of_ifBodyEnd? ends
        have third := ih later
        omega
  | case4 fuel stop other has =>
      simp only [other] at listed
      split at listed <;> cases listed
  | case5 fuel stop other hasNone =>
      simp only [other] at listed
      split at listed <;> cases listed

theorem lt_of_mem_takenOf {k : Nat} (listed : k ∈ own.takenOf form ifAt) : ifAt < k := by
  rw [takenOf] at listed
  cases ends : own.ifBodyEnd? form ifAt with
  | none =>
      rw [ends] at listed
      cases listed
  | some stop =>
      rw [ends] at listed
      exact Nat.lt_trans (lt_of_ifBodyEnd? ends) (lt_of_mem_taken listed)

/-- The clauses stand behind the body, one behind the other. -/
theorem elseClauses_increasing (own : OwnText) (form : ConditionForm) (fuel : Text) (stop : Nat) :
    (∀ clause ∈ own.elseClauses form fuel stop, stop ≤ clause.elseAt) ∧
      (own.elseClauses form fuel stop).Pairwise fun clause clause' =>
        clause.elseAt < clause'.elseAt := by
  have here : ∀ {stop label}, ∀ clause ∈ [(⟨own.pastBlanks stop, label⟩ : ElseClause)],
      stop ≤ clause.elseAt := by
    intro stop label clause listed
    rw [List.mem_singleton.1 listed]
    exact Nat.le_add_right _ _
  fun_induction elseClauses own form fuel stop with
  | case1 fuel stop ifAt behind bodyless => exact ⟨by simp, .nil⟩
  | case2 stop ifAt behind next ends => exact ⟨here, List.pairwise_singleton _ _⟩
  | case3 stop ifAt behind next ends x fuel ih =>
      obtain ⟨behindNext, increasing⟩ := ih
      have word := (ifBehind_of_elseIf? behind).elseAt_lt
      have body := lt_of_ifBodyEnd? ends
      refine ⟨List.forall_mem_cons.2 ⟨Nat.le_add_right _ _, ?_⟩,
        List.pairwise_cons.2 ⟨?_, increasing⟩⟩
      · intro clause later
        have after := behindNext clause later
        have first := (ifBehind_of_elseIf? behind).lt
        omega
      · intro clause later
        have after := behindNext clause later
        exact Nat.lt_of_lt_of_le (Nat.lt_trans word body) after
  | case4 fuel stop other has => exact ⟨here, List.pairwise_singleton _ _⟩
  | case5 fuel stop other hasNone => exact ⟨by simp, .nil⟩

theorem elsesOf_increasing (own : OwnText) (form : ConditionForm) (ifAt : Nat) :
    (own.elsesOf form ifAt).Pairwise (· < ·) := by
  rw [elsesOf, List.pairwise_map, clausesOf]
  cases own.ifBodyEnd? form ifAt with
  | none => exact .nil
  | some stop => exact (own.elseClauses_increasing form own.code stop).2

/-! ### Chains -/

/-- The chain of an `if` comes to a keyword whose body ends at an offset. -/
inductive Reaches (own : OwnText) (form : ConditionForm) (ifAt : Nat) :
    Nat → Nat → Text → Prop where
  | first {stop : Nat} (ends : own.ifBodyEnd? form ifAt = some stop) :
      Reaches own form ifAt ifAt stop own.code
  | next {k k' stop stop' : Nat} {x : Char} {fuel : Text}
      (reached : Reaches own form ifAt k stop (x :: fuel)) (behind : own.elseIf? stop = some k')
      (ends : own.ifBodyEnd? form k' = some stop') : Reaches own form ifAt k' stop' fuel

namespace Reaches

variable {k k' : Nat} {x : Char} {fuel' : Text}

theorem ends (reached : own.Reaches form ifAt k stop fuel) : own.ifBodyEnd? form k = some stop := by
  cases reached with
  | first ends => exact ends
  | next _ _ ends => exact ends

theorem isIf (reached : own.Reaches form ifAt k stop fuel) (isIf : own.IfAt ifAt) : own.IfAt k := by
  cases reached with
  | first _ => exact isIf
  | next _ behind _ => exact (ifBehind_of_elseIf? behind).isIf

/-- From every keyword of a chain on, the clauses are clauses of the whole chain. -/
theorem clauses_subset (reached : own.Reaches form ifAt k stop fuel) :
    own.elseClauses form fuel stop ⊆ own.clausesOf form ifAt := by
  induction reached with
  | first ends =>
      rw [clausesOf, ends]
      exact List.Subset.refl _
  | @next k k' stop stop' x fuel _ behind ends ih =>
      rw [elseClauses.eq_def] at ih
      simp only [behind, ends] at ih
      exact List.Subset.trans (List.subset_cons_self _ _) ih

theorem taken_subset (reached : own.Reaches form ifAt k stop fuel) :
    (own.elseParts form fuel stop).2.2 ⊆ own.takenOf form ifAt := by
  induction reached with
  | first ends =>
      rw [takenOf, ends]
      exact List.Subset.refl _
  | @next k k' stop stop' x fuel _ behind ends ih =>
      rw [elseParts_eq] at ih
      simp only [behind, ends] at ih
      exact List.Subset.trans (List.subset_cons_self _ _) ih

/-- The next keyword of a chain belongs to it, and so does the `else` before that keyword. -/
theorem mem_of_next (reached : own.Reaches form ifAt k stop (x :: fuel))
    (behind : own.elseIf? stop = some k') (ends : own.ifBodyEnd? form k' = some stop') :
    k' ∈ own.takenOf form ifAt ∧ own.pastBlanks stop ∈ own.elsesOf form ifAt := by
  constructor
  · apply reached.taken_subset
    rw [elseParts_eq]
    simp only [behind, ends]
    exact List.mem_cons_self
  · refine List.mem_map.2 ⟨⟨own.pastBlanks stop, "else if"⟩, reached.clauses_subset ?_, rfl⟩
    rw [elseClauses.eq_def]
    simp only [behind, ends]
    exact List.mem_cons_self

theorem mem_keywords (reached : own.Reaches form ifAt k stop fuel) :
    k ∈ ifAt :: own.takenOf form ifAt := by
  cases reached with
  | first _ => exact List.mem_cons_self
  | next before behind ends => exact List.mem_cons_of_mem _ (before.mem_of_next behind ends).1

/-- Every clause stands behind the body of a keyword of the chain. -/
theorem exists_of_clause {clause : ElseClause} (reached : own.Reaches form ifAt k stop fuel)
    (listed : clause ∈ own.elseClauses form fuel stop) :
    ∃ k' stop' fuel', own.Reaches form ifAt k' stop' fuel' ∧
      own.ElseBehind stop' clause.elseAt := by
  fun_induction elseClauses own form fuel stop generalizing k with
  | case1 fuel stop ifAt behind bodyless => cases listed
  | case2 stop k' behind next ends =>
      obtain rfl := List.mem_singleton.1 listed
      exact ⟨k, stop, [], reached, (ifBehind_of_elseIf? behind).isElse⟩
  | case3 stop k' behind next ends x fuel ih =>
      rcases List.mem_cons.1 listed with rfl | later
      · exact ⟨k, stop, x :: fuel, reached, (ifBehind_of_elseIf? behind).isElse⟩
      · exact ih (reached.next behind ends) later
  | case4 fuel stop other has =>
      obtain rfl := List.mem_singleton.1 listed
      exact ⟨k, stop, fuel, reached, elseBehind_of_hasElse has⟩
  | case5 fuel stop other hasNone => cases listed

end Reaches

end OwnText

/-! ### Where chains meet -/

/-- Why the end of a body does not tell which of two keywords it belongs to.  With conditions in
parentheses the `else` behind it follows a semicolon; with conditions up to a brace the two keywords
have the same next brace. -/
def ConditionForm.EndsAlike (own : OwnText) (ifAt ifAt' stop elseAt : Nat) : ConditionForm → Prop
  | .parentheses => own.code.GapBehind ';' stop elseAt
  | .upToBrace => own.next? (ifAt + 2) (· == '{') = own.next? (ifAt' + 2) (· == '{')

namespace OwnText

variable {own : OwnText} {form : ConditionForm} {stop stop' ifAt ifAt' elseAt : Nat}
  {fuel fuel' : Text}

/-- Two keywords whose bodies end at one place, before an `else`. -/
structure Meet (own : OwnText) (form : ConditionForm) (ifAt ifAt' elseAt : Nat) : Prop where
  ne : ifAt ≠ ifAt'
  isIf : own.IfAt ifAt
  isIf' : own.IfAt ifAt'
  ends : ∃ stop, own.ifBodyEnd? form ifAt = some stop ∧ own.ifBodyEnd? form ifAt' = some stop ∧
    own.ElseBehind stop elseAt ∧ form.EndsAlike own ifAt ifAt' stop elseAt

theorem Meet.symm (meet : own.Meet form ifAt ifAt' elseAt) : own.Meet form ifAt' ifAt elseAt := by
  obtain ⟨stop, ends, ends', behind, alike⟩ := meet.ends
  refine ⟨meet.ne.symm, meet.isIf', meet.isIf, stop, ends', ends, behind, ?_⟩
  cases form with
  | parentheses => exact alike
  | upToBrace => exact Eq.symm alike

/-- An `else` tells the keyword of the body before it, unless two keywords meet there. -/
theorem keyword_unique (isIf : own.IfAt ifAt) (isIf' : own.IfAt ifAt')
    (ends : own.ifBodyEnd? form ifAt = some stop) (ends' : own.ifBodyEnd? form ifAt' = some stop')
    (behind : own.ElseBehind stop elseAt) (behind' : own.ElseBehind stop' elseAt) :
    ifAt = ifAt' ∨ own.Meet form ifAt ifAt' elseAt := by
  obtain rfl := stop_unique ends ends' behind behind'
  by_cases same : ifAt = ifAt'
  · exact .inl same
  · refine .inr ⟨same, isIf, isIf', stop, ends, ends', behind, ?_⟩
    cases form with
    | parentheses =>
        exact (keyword_unique_of_parentheses isIf isIf' ends ends' behind).resolve_left same
    | upToBrace => exact brace_unique_of_upToBrace ends ends'

/-- Two `if` keywords of which neither is a further keyword of the other. -/
structure Apart (own : OwnText) (form : ConditionForm) (ifAt ifAt' : Nat) : Prop where
  ne : ifAt ≠ ifAt'
  right : ifAt' ∉ own.takenOf form ifAt
  left : ifAt ∉ own.takenOf form ifAt'

/-- The chains of two `if` keywords meet: they have an `else` in common where two of their keywords
meet. -/
def ChainsMeet (own : OwnText) (form : ConditionForm) (ifAt ifAt' : Nat) : Prop :=
  ∃ elseAt ∈ own.elsesOf form ifAt, elseAt ∈ own.elsesOf form ifAt' ∧
    ∃ k ∈ ifAt :: own.takenOf form ifAt, ∃ k' ∈ ifAt' :: own.takenOf form ifAt',
      own.Meet form k k' elseAt

theorem ChainsMeet.symm (chains : own.ChainsMeet form ifAt ifAt') :
    own.ChainsMeet form ifAt' ifAt := by
  obtain ⟨elseAt, listed, listed', k, isKeyword, k', isKeyword', meet⟩ := chains
  exact ⟨elseAt, listed', listed, k', isKeyword', k, isKeyword, meet.symm⟩

/-- Two chains that come to bodies before one `else` have met, there or earlier.  The induction goes
backwards: from the `else` to the keyword, and from the keyword to the `else` before it. -/
theorem Reaches.chainsMeet {k k' : Nat} (apart : own.Apart form ifAt ifAt')
    (isIf : own.IfAt ifAt) (isIf' : own.IfAt ifAt') (reached : own.Reaches form ifAt k stop fuel)
    (reached' : own.Reaches form ifAt' k' stop' fuel') (behind : own.ElseBehind stop elseAt)
    (behind' : own.ElseBehind stop' elseAt) (listed : elseAt ∈ own.elsesOf form ifAt)
    (listed' : elseAt ∈ own.elsesOf form ifAt') : own.ChainsMeet form ifAt ifAt' := by
  induction reached generalizing k' stop' fuel' elseAt with
  | first ends =>
      rcases keyword_unique isIf (reached'.isIf isIf') ends reached'.ends behind behind' with
        rfl | meet
      · cases reached' with
        | first _ => exact absurd rfl apart.ne
        | next before isElseIf ends' =>
            exact absurd (before.mem_of_next isElseIf ends').1 apart.left
      · exact ⟨elseAt, listed, listed', ifAt, List.mem_cons_self, k', reached'.mem_keywords, meet⟩
  | @next k₀ k stop₀ stop x fuel before isElseIf ends ih =>
      have here := before.next isElseIf ends
      rcases keyword_unique (here.isIf isIf) (reached'.isIf isIf') ends reached'.ends behind behind'
        with rfl | meet
      · have owned := before.mem_of_next isElseIf ends
        cases reached' with
        | first _ => exact absurd owned.1 apart.right
        | @next k₀' _ stop₀' _ _ _ before' isElseIf' ends' =>
            have owned' := before'.mem_of_next isElseIf' ends'
            have ifBehind := ifBehind_of_elseIf? isElseIf
            have ifBehind' := ifBehind_of_elseIf? isElseIf'
            have same : own.pastBlanks stop₀ = own.pastBlanks stop₀' :=
              ifBehind.elseAt_unique ifBehind'
            exact ih before' ifBehind.isElse (same ▸ ifBehind'.isElse) owned.2 (same ▸ owned'.2)
      · exact ⟨elseAt, listed, listed', k, here.mem_keywords, k', reached'.mem_keywords, meet⟩

/-- An `if` with clauses has a body, and its chain comes to each of them. -/
theorem exists_reaches_of_mem_elsesOf (listed : elseAt ∈ own.elsesOf form ifAt) :
    ∃ k stop fuel, own.Reaches form ifAt k stop fuel ∧ own.ElseBehind stop elseAt := by
  obtain ⟨clause, inClauses, rfl⟩ := List.mem_map.1 listed
  rw [clausesOf] at inClauses
  cases ends : own.ifBodyEnd? form ifAt with
  | none =>
      rw [ends] at inClauses
      cases inClauses
  | some stop =>
      rw [ends] at inClauses
      exact (Reaches.first ends).exists_of_clause inClauses

theorem chainsMeet_of_shared (apart : own.Apart form ifAt ifAt') (isIf : own.IfAt ifAt)
    (isIf' : own.IfAt ifAt') (listed : elseAt ∈ own.elsesOf form ifAt)
    (listed' : elseAt ∈ own.elsesOf form ifAt') : own.ChainsMeet form ifAt ifAt' := by
  obtain ⟨k, stop, fuel, reached, behind⟩ := exists_reaches_of_mem_elsesOf listed
  obtain ⟨k', stop', fuel', reached', behind'⟩ := exists_reaches_of_mem_elsesOf listed'
  exact reached.chainsMeet apart isIf isIf' reached' behind behind' listed listed'

end OwnText

/-! ### Headers -/

/-- What introduces an `if` with a form of condition. -/
def ConditionForm.ifHeader : ConditionForm → Pattern
  | .parentheses => BraceFamily.headed "if"
  | .upToBrace => boundary ++ lit "if" ++ boundary

/-- How the conditions of a language are written. -/
def Language.conditionForm : Language → ConditionForm
  | .go => .upToBrace
  | _ => .parentheses

/-- The first form of a language with braces is that of `if`, and no other form makes constructs of
that kind. -/
theorem Language.ifElse_form_of_brace {lang : Language} {g : Grammar}
    (brace : lang ∈ braceLanguages) (scanned : lang.grammar? = some g) :
    ∃ others, g.constructs = .ifElse lang.conditionForm.ifHeader lang.conditionForm :: others ∧
      ∀ form ∈ others, .ifElse ∉ form.kinds := by
  cases lang with
  | java => cases scanned; exact ⟨_, rfl, by decide⟩
  | javascript => cases scanned; exact ⟨_, rfl, by decide⟩
  | typescript => cases scanned; exact ⟨_, rfl, by decide⟩
  | csharp => cases scanned; exact ⟨_, rfl, by decide⟩
  | go => cases scanned; exact ⟨_, rfl, by decide⟩
  | abap => exact absurd brace (by decide)
  | python => cases scanned

theorem Pattern.Matches.reads_if {c c' : Cursor} {m : Marks}
    (found : (boundary ++ lit "if").Matches c c' m) : c.Reads "if".toList c' := by
  cases found with
  | seq before letters =>
      obtain rfl := before.eq_of_silent rfl
      obtain ⟨_, reads, rfl⟩ := (Denotes.lit "if").sound letters
      exact reads

namespace OwnText

variable {own : OwnText} {form : ConditionForm} {m : Match} {c : Construct}

theorem headed_if_reads (found : (BraceFamily.headed "if").FoundIn own.code m) :
    ∃ p b s, own.code = p ++ ("if".toList ++ (b ++ '(' :: s)) ∧ m.start = Text.size p ∧
      m.stop = m.start + 2 + Text.size b + 1 ∧ ∀ y ∈ b, isBlank y = true := by
  obtain ⟨c, inside, start, found⟩ := found.exists_matches
  obtain ⟨p, split, place, -⟩ := inside.split
  generalize m.marks = marks at found
  cases found with
  | seq front last =>
      cases front with
      | seq word blanks =>
          have letters := word.reads_if
          obtain ⟨b, between, blank⟩ := (Denotes.manyOne isBlank true).sound blanks
          obtain ⟨_, parenthesis, x, rfl, isOpening⟩ := (Denotes.one (· == '(')).sound last
          obtain rfl : x = '(' := by simpa using isOpening
          refine ⟨p, b, m.after.rest, ?_, start.trans place, ?_, blank⟩
          · rw [split, letters.rest, between.rest, parenthesis.rest]
            rfl
          · rw [start, Match.stop, parenthesis.offset, between.offset, letters.offset]
            rfl

theorem bounded_if_reads (found : (boundary ++ lit "if" ++ boundary).FoundIn own.code m) :
    ∃ p s, own.code = p ++ ("if".toList ++ s) ∧ m.start = Text.size p ∧ m.stop = m.start + 2 := by
  obtain ⟨c, inside, start, found⟩ := found.exists_matches
  obtain ⟨p, split, place, -⟩ := inside.split
  generalize m.marks = marks at found
  cases found with
  | seq word after =>
      have letters := word.reads_if
      rw [← after.eq_of_silent rfl] at letters
      refine ⟨p, m.after.rest, ?_, start.trans place, ?_⟩
      · rw [split, letters.rest]
      · rw [start, Match.stop, letters.offset]
        rfl

/-- A header begins with its keyword, and its condition is the one behind the keyword. -/
theorem conditionAt?_of_ifHeader (found : form.ifHeader.FoundIn own.code m) :
    own.IfAt m.start ∧ m.start < m.stop ∧
      own.conditionAt? (conditionStart m.stop form) form = own.conditionAt? (m.start + 2) form := by
  cases form with
  | parentheses =>
      obtain ⟨p, b, s, split, start, stop, blank⟩ := headed_if_reads found
      refine ⟨⟨p, b ++ '(' :: s, split, start.symm⟩, by omega, ?_⟩
      have keyword : Text.size (p ++ "if".toList) = m.start + 2 := by
        rw [Text.size_append, start]
        rfl
      have before : Text.size ((p ++ "if".toList) ++ b) = m.stop - 1 := by
        rw [Text.size_append]
        omega
      -- the parenthesis is the next character behind the keyword, and behind the blanks
      have first : own.nextIs? (m.start + 2) '(' = some (m.start + 2 + Text.size b) := by
        rw [← keyword]
        exact nextIs?_of_split (by rw [split, List.append_assoc]) (by decide) blank
      have second : own.nextIs? (m.stop - 1) '(' = some (m.start + 2 + Text.size b) := by
        have whole : own.code = ((p ++ "if".toList) ++ b) ++ ([] ++ '(' :: s) := by
          rw [split]
          simp
        have here := nextIs?_of_split whole (by decide) (by simp)
        rw [before, Text.size_nil] at here
        rw [here]
        exact congrArg some (by omega)
      rw [conditionStart, conditionAt?, conditionAt?, first, second]
  | upToBrace =>
      obtain ⟨p, s, split, start, stop⟩ := bounded_if_reads found
      refine ⟨⟨p, s, split, start.symm⟩, by omega, ?_⟩
      rw [conditionStart, stop]

/-- An `if` of an own text, with the labels of its clauses. -/
structure ReadsIf (own : OwnText) (form : ConditionForm) (c : Construct) : Prop where
  kind : c.kind = .ifElse
  isIf : own.IfAt c.start
  branches : c.branches = "if" :: (own.clausesOf form c.start).map (·.label)

theorem readsIf_of_ifElse? {taken : List Nat} (found : form.ifHeader.FoundIn own.code m)
    (read : own.ifElse? form m = some (c, taken)) :
    own.ReadsIf form c ∧ c.start = m.start ∧ taken = own.takenOf form m.start := by
  obtain ⟨isIf, -, condition⟩ := conditionAt?_of_ifHeader found
  simp only [ifElse?, Option.bind_eq_bind, Option.bind_eq_some_iff] at read
  obtain ⟨⟨text, after⟩, isCondition, first, ends, made⟩ := read
  obtain ⟨rfl, rfl⟩ := Prod.mk.inj (Option.some.inj made)
  have ends : own.ifBodyEnd? form m.start = some first := by
    rw [ifBodyEnd?, ← condition, isCondition]
    exact ends
  refine ⟨⟨rfl, isIf, ?_⟩, rfl, ?_⟩
  · rw [clausesOf, ends]
    exact congrArg ("if" :: ·) (elseParts_labels own.code first)
  · rw [takenOf, ends]
    rfl

/-- The constructs of the form of `if` found so far. -/
structure IfsApart (own : OwnText) (form : ConditionForm) (sites : Constructs) : Prop where
  reads : ∀ c ∈ sites.found, own.ReadsIf form c
  apart : sites.found.Pairwise fun c c' => own.Apart form c.start c'.start
  taken : ∀ c ∈ sites.found, own.takenOf form c.start ⊆ sites.taken

/-- A header behind the constructs found so far, whose keyword is not one of theirs. -/
theorem IfsApart.add? {sites : Constructs} (found : form.ifHeader.FoundIn own.code m)
    (ifs : own.IfsApart form sites) (behind : ∀ c ∈ sites.found, c.start < m.start)
    (free : m.start ∉ sites.taken) : own.IfsApart form (sites.add? (own.ifElse? form m)) := by
  cases read : own.ifElse? form m with
  | none => exact ifs
  | some made =>
      obtain ⟨c, taken⟩ := made
      obtain ⟨reads, start, rfl⟩ := readsIf_of_ifElse? found read
      refine ⟨?_, ?_, ?_⟩
      · intro c' listed
        rcases List.mem_append.1 listed with earlier | last
        · exact ifs.reads c' earlier
        · exact List.mem_singleton.1 last ▸ reads
      · refine List.pairwise_append.2 ⟨ifs.apart, List.pairwise_singleton _ _, ?_⟩
        intro c' earlier _ last
        obtain rfl := List.mem_singleton.1 last
        rw [start]
        have before := behind c' earlier
        refine ⟨Nat.ne_of_lt before, fun isTaken => free (ifs.taken c' earlier isTaken), ?_⟩
        intro isTaken
        exact Nat.lt_asymm before (lt_of_mem_takenOf isTaken)
      · intro c' listed
        rcases List.mem_append.1 listed with earlier | last
        · exact List.Subset.trans (ifs.taken c' earlier) (List.subset_append_left _ _)
        · rw [List.mem_singleton.1 last, start]
          exact List.subset_append_right _ _

/-- The form of `if` adds its constructs in the order of their headers. -/
theorem IfsApart.foldl {headers : List Match}
    (found : ∀ m ∈ headers, form.ifHeader.FoundIn own.code m)
    (ordered : headers.Pairwise fun m m' => m.stop ≤ m'.start) {sites : Constructs}
    (ifs : own.IfsApart form sites)
    (behind : ∀ c ∈ sites.found, ∀ m ∈ headers, c.start < m.start) :
    own.IfsApart form (headers.foldl (fun sites m =>
      if sites.taken.contains m.start then sites else sites.add? (own.ifElse? form m)) sites) := by
  induction headers generalizing sites with
  | nil => exact ifs
  | cons m headers ih =>
      obtain ⟨first, ordered⟩ := List.pairwise_cons.1 ordered
      obtain ⟨isHeader, found⟩ := List.forall_mem_cons.1 found
      have behind' : ∀ c ∈ sites.found, ∀ m ∈ headers, c.start < m.start :=
        fun c listed m' later => behind c listed m' (List.mem_cons_of_mem m later)
      rw [List.foldl_cons]
      split
      · exact ih found ordered ifs behind'
      · next free =>
          have atHead := fun c listed => behind c listed m List.mem_cons_self
          have added := ifs.add? isHeader atHead (by simpa using free)
          apply ih found ordered added
          have extended : Constructs.Extends (fun c => c.start = m.start) sites
              (sites.add? (own.ifElse? form m)) :=
            .add? fun c taken read => (readsIf_of_ifElse? isHeader read).2.1
          obtain ⟨made, sites', starts⟩ := extended
          intro c listed m' later
          rw [sites'] at listed
          rcases List.mem_append.1 listed with earlier | last
          · exact behind' c earlier m' later
          · rw [starts c last]
            exact Nat.lt_of_lt_of_le (conditionAt?_of_ifHeader isHeader).2.1 (first m' later)

theorem ifsApart_addForm (own : OwnText) (form : ConditionForm) :
    own.IfsApart form (Constructs.addForm own ⟨[], []⟩ (.ifElse form.ifHeader form)) := by
  refine IfsApart.foldl (fun m => mem_findAll) (findAll_pairwise _ _) ⟨?_, .nil, ?_⟩ ?_
  iterate 3 simp

end OwnText

/-- The constructs of the kind of `if`, in whatever order, are those that its form finds. -/
theorem Language.ifElse_perm {lang : Language} {g : Grammar} (brace : lang ∈ braceLanguages)
    (scanned : lang.grammar? = some g) (own : OwnText) :
    ((findConstructs g own).filter fun c => c.kind = .ifElse).Perm
      (Constructs.addForm own ⟨[], []⟩
        (.ifElse lang.conditionForm.ifHeader lang.conditionForm)).found := by
  obtain ⟨others, forms, otherKinds⟩ := ifElse_form_of_brace brace scanned
  have reads := (OwnText.ifsApart_addForm own lang.conditionForm).reads
  generalize isFirst : Constructs.addForm own ⟨[], []⟩
    (.ifElse lang.conditionForm.ifHeader lang.conditionForm) = first at reads ⊢
  have whole : Constructs.Extends (fun c => ∃ form ∈ others, form.Makes own c) first
      (g.constructs.foldl (Constructs.addForm own) ⟨[], []⟩) := by
    rw [forms, List.foldl_cons, isFirst]
    exact .addForms others first
  obtain ⟨made, found, makes⟩ := whole
  have kept : first.found.filter (fun c => c.kind = .ifElse) = first.found := by
    rw [List.filter_eq_self]
    intro c listed
    exact decide_eq_true (reads c listed).kind
  have dropped : made.filter (fun c => c.kind = .ifElse) = [] := by
    rw [List.filter_eq_nil_iff]
    intro c listed isIf
    obtain ⟨form, inOthers, made⟩ := makes c listed
    exact otherKinds form inOthers (of_decide_eq_true isIf ▸ made.kind_mem)
  have sorted := (List.mergeSort_perm (g.constructs.foldl (Constructs.addForm own) ⟨[], []⟩).found
    fun a b => a.start ≤ b.start).filter fun c => decide (c.kind = .ifElse)
  rw [found, List.filter_append, kept, dropped, List.append_nil] at sorted
  rw [findConstructs, found]
  exact sorted

/-- The branches of an `if` are its clauses, and their `else` keywords stand in the code, one behind
the other.  If two of these constructs have an `else` in common, their chains meet: two keywords
have bodies that end at one place, behind a semicolon or because they have the same next brace. -/
theorem shared_else_means_meeting {lang : Language} {g : Grammar} (brace : lang ∈ braceLanguages)
    (scanned : lang.grammar? = some g) (own : OwnText) :
    let form := lang.conditionForm
    let ifs := (findConstructs g own).filter fun c => c.kind = .ifElse
    (∀ c ∈ ifs, c.branches = "if" :: (own.clausesOf form c.start).map (·.label) ∧
      (own.elsesOf form c.start).Pairwise (· < ·) ∧
      ∀ elseAt ∈ own.elsesOf form c.start, own.code.HasAt elseAt "else".toList) ∧
    ifs.Pairwise fun c c' => ∀ elseAt ∈ own.elsesOf form c.start,
      elseAt ∈ own.elsesOf form c'.start → own.ChainsMeet form c.start c'.start := by
  intro form ifs
  have found := Language.ifElse_perm brace scanned own
  have apart := OwnText.ifsApart_addForm own form
  constructor
  · intro c listed
    refine ⟨(apart.reads c (found.mem_iff.1 listed)).branches,
      OwnText.elsesOf_increasing own form _, ?_⟩
    intro elseAt isElse
    obtain ⟨_, stop, _, -, behind⟩ := OwnText.exists_reaches_of_mem_elsesOf isElse
    exact behind.hasAt
  · rw [found.pairwise_iff]
    · refine apart.apart.imp_of_mem ?_
      intro c c' listed listed' between elseAt
      exact OwnText.chainsMeet_of_shared between (apart.reads c listed).isIf
        (apart.reads c' listed').isIf
    · intro c c' shared elseAt listed listed'
      exact (shared elseAt listed' listed).symm

/-- An `if` with all its bodies in braces, and another one in its first body. -/
def bracedChain : OwnText :=
  let t := "if(a)\x7bif(b)\x7b\x7delse\x7b\x7d\x7delse if(c)\x7b\x7delse\x7b\x7d".toList
  ⟨t, t⟩

theorem shared_else_means_meeting_braced :
    (findConstructs Grammar.javascript bracedChain).map (fun c => (c.kind, c.start, c.branches)) =
        [(.ifElse, 0, ["if", "else if", "else"]), (.ifElse, 6, ["if", "else"])] ∧
      ((findConstructs Grammar.javascript bracedChain).filter fun c => c.kind = .ifElse).Pairwise
        fun c c' => ∀ elseAt ∈ bracedChain.elsesOf .parentheses c.start,
          elseAt ∉ bracedChain.elsesOf .parentheses c'.start := by
  constructor
  · rw [findConstructs, mergeSort_by_key Construct.start]
    decide +kernel
  have brace : Language.javascript ∈ braceLanguages := by decide
  have meet := (shared_else_means_meeting brace rfl bracedChain).2
  refine meet.imp ?_
  intro c c' shared elseAt listed listed'
  obtain ⟨_, -, -, _, -, _, -, meet⟩ := shared elseAt listed listed'
  obtain ⟨_, -, -, -, p, b, s, split, -⟩ := meet.ends
  have semicolon : ';' ∈ bracedChain.code := by
    rw [split]
    simp
  exact absurd semicolon (by decide)

/-- An `if` without braces in an `if` without braces. -/
def danglingElse : Text := "function f()\x7bif(a)if(b)g();else h()\x7d".toList

/-- One `else` is a branch of two constructs. -/
theorem dangling_else_has_two_owners :
    (Grammar.javascript.owned danglingElse).map (fun o => (o.1.body, o.2.constructs.map fun c =>
        (c.kind, c.start, c.branches))) =
      [(some ⟨13, 35⟩, [(.ifElse, 0, ["if", "else"]), (.ifElse, 5, ["if", "else"])])] ∧
    (let own := ownTextOf (Views.of .javascript danglingElse) [] ⟨13, 35⟩
     [0, 5].map (own.elsesOf .parentheses) = [[14], [14]]) := by
  constructor
  · simp only [Grammar.owned, Grammar.found, Grammar.findings, findConstructs,
      mergeSort_by_key Construct.start]
    decide +kernel
  · decide +kernel

end CallAtlas
