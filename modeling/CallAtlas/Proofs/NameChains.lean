/-
Module: CallAtlas.Proofs.NameChains
Purpose: Chains of names as texts.  A chain is any number of names, each with a joint behind it;
  what is called is the name behind a chain.  A name is a run of characters that no joint ends in,
  so a chain and the name behind it can be told apart, and the last part of the two, written
  without blanks, is the name.
Main definitions: isPlainName, IsJoint, IsChain, LongestChain
Main results: append_run_inj, IsChain.lastSegment_eq, exists_longestChain,
  LongestChain.eq_of_reaches
-/
import CallAtlas.Proofs.NameResolution
import CallAtlas.Proofs.PatternCompleteness

namespace CallAtlas

open Text

/-! ### Names -/

/-- Whether a plain name can start with a character: an ASCII letter, `_` or `$`. -/
def startsName (c : Char) : Bool := c.isAlpha || c == '_' || c == '$'

/-- Whether a character can stand in a name: a word character or `$`. -/
def inName (c : Char) : Bool := isWordChar c || "$".toList.contains c

/-- Whether a text is a plain name. -/
def isPlainName : Text → Bool
  | [] => false
  | x :: rest => startsName x && rest.all inName

theorem inName_of_startsName {c : Char} (starts : startsName c = true) : inName c = true := by
  simp only [startsName, Bool.or_eq_true, beq_iff_eq] at starts
  rcases starts with (letter | rfl) | rfl
  · have ascii : c.toNat < 0x80 := by
      rw [Char.toNat]
      rcases Bool.or_eq_true_iff.1 letter with upper | lower
      · exact Nat.lt_of_le_of_lt (of_decide_eq_true upper).2 (by decide)
      · exact Nat.lt_of_le_of_lt (of_decide_eq_true (Bool.and_eq_true_iff.1 lower).2) (by decide)
    simp [inName, isWordChar, ascii, Char.isAlphanum, letter]
  · decide
  · decide

theorem visible_of_inName {c : Char} (within : inName c = true) : isBlank c = false := by
  have check : Pattern.onlyVisible inName = true := by decide +kernel
  exact Pattern.visible_of_onlyVisible check within

theorem not_inName_of_isBlank {c : Char} (blank : isBlank c = true) : inName c = false := by
  rw [← Bool.not_eq_true]
  intro within
  rw [visible_of_inName within] at blank
  cases blank

theorem ne_nil_of_isPlainName {name : Text} (named : isPlainName name = true) : name ≠ [] := by
  rintro rfl
  cases named

theorem inName_of_isPlainName {name : Text} (named : isPlainName name = true) :
    ∀ c ∈ name, inName c = true := by
  cases name with
  | nil => cases named
  | cons x rest =>
      rw [isPlainName, Bool.and_eq_true, List.all_eq_true] at named
      intro c listed
      rcases List.mem_cons.1 listed with rfl | later
      · exact inName_of_startsName named.1
      · exact named.2 c later

/-- A text that ends in a run of characters of a class is cut before that run in one way. -/
theorem append_run_inj {p : Char → Bool} {front front' run run' : Text}
    (ends : ∀ b ∈ front.getLast?, p b = false) (ends' : ∀ b ∈ front'.getLast?, p b = false)
    (all : ∀ c ∈ run, p c = true) (all' : ∀ c ∈ run', p c = true)
    (same : front ++ run = front' ++ run') : front = front' ∧ run = run' := by
  have backwards : ∀ {front run : Text}, (∀ b ∈ front.getLast?, p b = false) →
      (∀ c ∈ run, p c = true) → (front ++ run).reverse.takeWhile p = run.reverse := by
    intro front run ends all
    have stops : front.reverse.takeWhile p = [] := by
      rcases List.eq_nil_or_concat front with rfl | ⟨init, b, rfl⟩
      · rfl
      · simp [ends b (by simp)]
    rw [List.reverse_append, List.takeWhile_append_of_pos (by simpa using all), stops,
      List.append_nil]
  have sameRun : run = run' := by
    have same := congrArg (·.reverse.takeWhile p) same
    rw [backwards ends all, backwards ends' all'] at same
    exact List.reverse_inj.1 same
  subst sameRun
  exact ⟨List.append_cancel_right same, rfl⟩

/-! ### Chains -/

/-- What can stand between two names of a chain, without the blanks around it. -/
def joints : List String := ["?.", ".", "->", "::"]

theorem joints_ne_nil : ∀ word ∈ joints, word.toList ≠ [] := by decide

/-- Nothing but blanks. -/
def IsPad (t : Text) : Prop := ∀ x ∈ t, isBlank x = true

/-- A joint with blanks around it. -/
def IsJoint : Text → Prop :=
  Then (Then IsPad fun t => ∃ word ∈ joints, t = word.toList) IsPad

/-- Any number of names, each with a joint behind it. -/
def IsChain : Text → Prop := Repeated (Then (isPlainName · = true) IsJoint)

section Joints

variable {t : Text}

/-- Only the word of a joint is visible. -/
theorem IsJoint.exists_word (joint : IsJoint t) :
    ∃ word ∈ joints, t.filter (!isBlank ·) = word.toList ∧
      ∀ x ∈ t, isBlank x = true ∨ x ∈ word.toList := by
  obtain ⟨_, pad', rfl, ⟨pad, _, rfl, blank, word, listed, rfl⟩, blank'⟩ := joint
  have visible : ∀ word ∈ joints, word.toList.filter (!isBlank ·) = word.toList := by decide
  have empty : ∀ {pad : Text}, IsPad pad → pad.filter (!isBlank ·) = [] := by
    intro pad blank
    rw [List.filter_eq_nil_iff]
    intro x inside
    simp [blank x inside]
  refine ⟨word, listed, ?_, ?_⟩
  · rw [List.filter_append, List.filter_append, empty blank, empty blank', visible word listed,
      List.nil_append, List.append_nil]
  · intro x inside
    rw [List.mem_append, List.mem_append] at inside
    rcases inside with (before | within) | behind
    · exact .inl (blank x before)
    · exact .inr within
    · exact .inl (blank' x behind)

/-- No character of a joint can stand in a name. -/
theorem IsJoint.not_inName (joint : IsJoint t) : ∀ x ∈ t, inName x = false := by
  intro x inside
  obtain ⟨word, listed, _, made⟩ := joint.exists_word
  rcases made x inside with blank | within
  · exact not_inName_of_isBlank blank
  · have apart : (joints.all fun word => word.toList.all (!inName ·)) = true := by decide +kernel
    simp only [List.all_eq_true, Bool.not_eq_true'] at apart
    exact apart word listed x within

theorem IsJoint.ne_nil (joint : IsJoint t) : t ≠ [] := by
  rintro rfl
  obtain ⟨word, listed, shown, _⟩ := joint.exists_word
  exact joints_ne_nil word listed shown.symm

/-- A joint without its blanks ends in a separator of names. -/
theorem IsJoint.endsWithSeparator (joint : IsJoint t) (front : Text) :
    EndsWithSeparator (front ++ t.filter (!isBlank ·)) := by
  obtain ⟨word, listed, shown, _⟩ := joint.exists_word
  have separated : ∀ word ∈ joints, ∃ separator ∈ chainSeparators, separator <:+ word.toList := by
    decide
  obtain ⟨separator, known, ends⟩ := separated word listed
  rw [shown]
  exact ⟨separator, known, ends.trans (List.suffix_append front word.toList)⟩

end Joints

namespace IsChain

variable {chain : Text}

/-- What a chain is made of: characters of names and of joints. -/
theorem forall_mem {P : Char → Prop} (chained : IsChain chain)
    (inNames : ∀ x, inName x = true → P x) (inJoints : ∀ t, IsJoint t → ∀ x ∈ t, P x) :
    ∀ x ∈ chain, P x := by
  induction chained with
  | nil => simp
  | cons link _ ih =>
      obtain ⟨name, joint, rfl, named, joins⟩ := link
      intro x inside
      rw [List.mem_append, List.mem_append] at inside
      rcases inside with (within | between) | later
      · exact inNames x (inName_of_isPlainName named x within)
      · exact inJoints joint joins x between
      · exact ih x later

theorem ne_parenthesis (chained : IsChain chain) : ∀ x ∈ chain, x ≠ '(' := by
  refine chained.forall_mem ?_ ?_
  · rintro x named rfl
    exact absurd named (by decide)
  · rintro t joint x inside rfl
    obtain ⟨word, listed, _, made⟩ := joint.exists_word
    have absent : ∀ word ∈ joints, '(' ∉ word.toList := by decide
    exact (made '(' inside).elim (by decide) (absent word listed)

/-- A chain does not end in a character of a name. -/
theorem getLast (chained : IsChain chain) : ∀ b ∈ chain.getLast?, inName b = false := by
  induction chained with
  | nil => simp
  | cons link _ ih =>
      obtain ⟨name, joint, rfl, _, joins⟩ := link
      intro b last
      rw [List.getLast?_append, Option.mem_def, Option.or_eq_some_iff] at last
      rcases last with later | ⟨_, here⟩
      · exact ih b later
      · rw [List.getLast?_append_of_ne_nil _ joins.ne_nil] at here
        exact joins.not_inName b (List.mem_of_getLast? here)

/-- A chain that is not empty has the word of a joint in it. -/
theorem exists_joint (chained : IsChain chain) (someText : chain ≠ []) :
    ∃ word ∈ joints, ∃ x ∈ word.toList, x ∈ chain := by
  cases chained with
  | nil => exact absurd rfl someText
  | cons link _ =>
      obtain ⟨name, joint, rfl, _, joins⟩ := link
      obtain ⟨word, listed, shown, _⟩ := joins.exists_word
      obtain ⟨x, inWord⟩ := List.exists_mem_of_ne_nil _ (joints_ne_nil word listed)
      refine ⟨word, listed, x, inWord, ?_⟩
      rw [← shown] at inWord
      simp [(List.mem_filter.1 inWord).1]

/-- Without its blanks, a chain is empty or ends in a separator of names. -/
theorem squeezed (chained : IsChain chain) :
    chain = [] ∨ EndsWithSeparator (chain.filter (!isBlank ·)) := by
  induction chained with
  | nil => exact .inl rfl
  | cons link _ ih =>
      obtain ⟨name, joint, rfl, _, joins⟩ := link
      refine .inr ?_
      rw [List.filter_append]
      rcases ih with rfl | ⟨separator, known, ends⟩
      · rw [List.filter_append, List.filter_nil, List.append_nil]
        exact joins.endsWithSeparator _
      · exact ⟨separator, known, ends.trans (List.suffix_append _ _)⟩

end IsChain

theorem EndsWithSeparator.getLast {front : Text} (ends : EndsWithSeparator front) :
    ∀ b ∈ front.getLast?, inName b = false := by
  obtain ⟨separator, known, init, rfl⟩ := ends
  have apart : (chainSeparators.all fun s => s.getLast?.any (!inName ·)) = true := by
    decide +kernel
  obtain ⟨last, isLast, noName⟩ :=
    (Option.any_eq_true _ _).1 (List.all_eq_true.1 apart separator known)
  intro b listed
  rw [List.getLast?_append, isLast, Option.some_or, Option.mem_some_iff] at listed
  rw [← listed]
  simpa using noName

/-- Behind a separator, the last part of a chain of names is the run of characters of a name. -/
theorem IsLastSegment.eq_run {front run segment : Text}
    (isLast : IsLastSegment (front ++ run) segment) (ends : front = [] ∨ EndsWithSeparator front)
    (all : ∀ c ∈ run, inName c = true) : segment = run := by
  have noName : ∀ {front : Text}, front = [] ∨ EndsWithSeparator front →
      ∀ b ∈ front.getLast?, inName b = false := by
    rintro front (rfl | ends)
    · simp
    · exact ends.getLast
  obtain ⟨front', split, stands⟩ := isLast.stands
  have inside : segment <:+ run := by
    rcases ends with rfl | ends
    · exact ⟨front', split.symm⟩
    · exact isLast.last front run rfl ends
  have all' : ∀ c ∈ segment, inName c = true := fun c listed => all c (inside.subset listed)
  exact (append_run_inj (noName ends) (noName stands) all all' split).2.symm

/-- The last part of a chain and a name, written without blanks, is the name. -/
theorem IsChain.lastSegment_eq {chain name : Text} (chained : IsChain chain)
    (named : ∀ c ∈ name, inName c = true) {callee : String}
    (spelled : callee.toList = chain.squeeze ++ name) :
    lastSegment callee = String.ofList name := by
  have isLast := lastSegment_isLastSegment callee
  rw [spelled, squeeze_eq_filter] at isLast
  have ends : chain.filter (!isBlank ·) = [] ∨ EndsWithSeparator (chain.filter (!isBlank ·)) := by
    rcases chained.squeezed with rfl | ends
    · exact .inl rfl
    · exact .inr ends
  rw [← isLast.eq_run ends named, String.ofList_toList]

/-! ### The longest chain at the end of a text -/

/-- A text is cut before the longest chain that it ends in. -/
structure LongestChain (t front chain : Text) : Prop where
  split : t = front ++ chain
  chained : IsChain chain
  longest : ∀ front' chain', t = front' ++ chain' → IsChain chain' → chain'.length ≤ chain.length

theorem exists_longestChain (t : Text) : ∃ front chain, LongestChain t front chain := by
  induction t with
  | nil =>
      refine ⟨[], [], rfl, .nil, ?_⟩
      intro front' chain' split _
      rw [(List.append_eq_nil_iff.1 split.symm).2]
  | cons x t ih =>
      by_cases whole : IsChain (x :: t)
      · refine ⟨[], x :: t, rfl, whole, ?_⟩
        intro front' chain' split _
        rw [split, List.length_append]
        exact Nat.le_add_left _ _
      · obtain ⟨front, chain, split, chained, longest⟩ := ih
        refine ⟨x :: front, chain, by rw [split, List.cons_append], chained, ?_⟩
        intro front' chain' split' chained'
        cases front' with
        | nil => exact absurd (split' ▸ chained') whole
        | cons y front' => exact longest front' chain' (List.cons.inj split').2 chained'

namespace LongestChain

variable {t front chain name rest front' chain' name' pad rest' : Text}

/-- What is read from an earlier place up to a parenthesis is everything before it, if there is no
other parenthesis in between. -/
theorem exists_between (cut : LongestChain t front chain) (named : isPlainName name = true)
    (chained' : IsChain chain') (named' : isPlainName name' = true) (blank : IsPad pad)
    (same : t ++ (name ++ '(' :: rest) = front' ++ (chain' ++ name' ++ pad ++ '(' :: rest'))
    (starts : size front' ≤ size front)
    (reaches : size front ≤ size front' + size (chain' ++ name' ++ pad)) :
    ∃ between, front = front' ++ between ∧ chain' ++ name' ++ pad = between ++ (chain ++ name) := by
  have plain : ∀ {name : Text}, isPlainName name = true → ∀ x ∈ name, x ≠ '(' := by
    rintro name named x listed rfl
    exact absurd (inName_of_isPlainName named '(' listed) (by decide)
  have read : ∀ x ∈ chain' ++ name' ++ pad, x ≠ '(' := by
    intro x listed
    rw [List.mem_append, List.mem_append] at listed
    rcases listed with (inChain | inName) | inPad
    · exact chained'.ne_parenthesis x inChain
    · exact plain named' x inName
    · rintro rfl
      exact absurd (blank '(' inPad) (by decide)
  obtain ⟨between, isFront, tail⟩ : ∃ between, front = front' ++ between ∧
      chain' ++ name' ++ pad ++ '(' :: rest' = between ++ (chain ++ (name ++ '(' :: rest)) := by
    rw [cut.split, List.append_assoc] at same
    rcases List.append_eq_append_iff.1 same with ⟨d, rfl, tail⟩ | ⟨d, rfl, tail⟩
    · have empty : d = [] := by
        apply Text.eq_nil_of_size_eq_zero
        rw [size_append] at starts
        omega
      subst empty
      exact ⟨[], by simp, by simpa using tail.symm⟩
    · exact ⟨d, rfl, tail⟩
  refine ⟨between, isFront, ?_⟩
  have free : ∀ x ∈ between, x ≠ '(' := by
    rintro x listed rfl
    -- the first parenthesis would be the one that was read, and it is not behind the front
    obtain ⟨before, behind, rfl, first⟩ := List.eq_append_cons_of_mem listed
    rw [List.append_assoc before, List.cons_append] at tail
    obtain ⟨sameFront, _⟩ := append_cons_inj_of_all (p := (· ≠ '(')) read
      (fun x listed equal => first (equal ▸ listed)) (not_not_intro rfl) (not_not_intro rfl) tail
    rw [sameFront, isFront, size_append, size_append, size_cons] at reaches
    have width : '('.utf8Size = 1 := rfl
    omega
  have unread : ∀ x ∈ between ++ (chain ++ name), x ≠ '(' := by
    intro x listed
    rw [List.mem_append, List.mem_append] at listed
    rcases listed with before | inChain | inName
    · exact free x before
    · exact cut.chained.ne_parenthesis x inChain
    · exact plain named x inName
  have regrouped : between ++ (chain ++ (name ++ '(' :: rest)) =
      between ++ (chain ++ name) ++ '(' :: rest := by
    simp
  rw [regrouped] at tail
  exact (append_cons_inj_of_all (p := (· ≠ '(')) read unread (not_not_intro rfl)
    (not_not_intro rfl) tail).1

/-- Before a name that a parenthesis follows, a call that reaches the longest chain starts with it
and calls the name. -/
theorem eq_of_reaches (cut : LongestChain t front chain)
    (opens : ∀ b ∈ t.getLast?, inName b = false) (named : isPlainName name = true)
    (chained' : IsChain chain') (named' : isPlainName name' = true) (blank : IsPad pad)
    (same : t ++ (name ++ '(' :: rest) = front' ++ (chain' ++ name' ++ pad ++ '(' :: rest'))
    (starts : size front' ≤ size front)
    (reaches : size front ≤ size front' + size (chain' ++ name' ++ pad)) :
    front' = front ∧ chain' = chain ∧ name' = name := by
  obtain ⟨between, isFront, read⟩ :=
    cut.exists_between named chained' named' blank same starts reaches
  have unpadded : pad = [] := by
    rcases List.eq_nil_or_concat pad with rfl | ⟨init, b, rfl⟩
    · rfl
    · -- the name ends in a visible character
      rcases List.eq_nil_or_concat name with rfl | ⟨init', e, rfl⟩
      · cases named
      · have last := congrArg List.getLast? read
        simp only [List.concat_eq_append, ← List.append_assoc, List.getLast?_append,
          List.getLast?_singleton, Option.some_or, Option.some.injEq] at last
        have visible := visible_of_inName (inName_of_isPlainName named e (by simp))
        rw [← last, blank b (by simp)] at visible
        cases visible
  rw [unpadded, List.append_nil, ← List.append_assoc] at read
  have whole : t = front' ++ (between ++ chain) := by
    rw [cut.split, isFront, List.append_assoc]
  have ends : ∀ b ∈ (between ++ chain).getLast?, inName b = false := by
    intro b last
    refine opens b ?_
    rw [whole, List.getLast?_append, last, Option.some_or]
    rfl
  obtain ⟨sameChain, sameName⟩ := append_run_inj chained'.getLast ends
    (inName_of_isPlainName named') (inName_of_isPlainName named) read
  have bound := cut.longest front' (between ++ chain) whole (sameChain ▸ chained')
  have empty : between = [] := by
    apply List.eq_nil_of_length_eq_zero
    rw [List.length_append] at bound
    omega
  subst empty
  exact ⟨by rw [isFront, List.append_nil], sameChain, sameName⟩

end LongestChain

end CallAtlas
