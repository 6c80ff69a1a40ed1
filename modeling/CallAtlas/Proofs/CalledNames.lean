/-
Module: CallAtlas.Proofs.CalledNames
Purpose: Which names are found where they are called.  The languages with braces have one form of
  call: a chain of names, then an opening parenthesis.  Before a plain name and a parenthesis the
  form finds the longest chain and the name, so the call can be resolved to a function of that name.
  Declarations capture more names than the form reads; a name that starts otherwise is the last part
  of no callee.
Main definitions: Match.ReadsCall, Grammar.CapturesName, Grammar.CallsByChain, CallSite.Calls
Main results: exists_readsCall, mem_findCalls_of_readsCall, Language.callsByChain_of_brace,
  plain_names_are_called
-/
import Mathlib.Data.List.Infix
import CallAtlas.Proofs.NameChains

namespace CallAtlas

open Text Pattern

/-! ### The form of calls -/

namespace BraceFamily

/-- The part of a call that is called: a name behind a chain. -/
def calledChain : Pattern :=
  plainName ++ (gap ++ words "?." [".", "->", "::"] ++ gap ++ plainName).star

theorem chainCall_pattern : chainCall.pattern = mark .callee calledChain ++ gap ++ char '(' := rfl

theorem denotes_plainName : plainName.Denotes (isPlainName · = true) := by
  refine ((Denotes.one _).seq (Denotes.manyOne _ true)).congr ?_
  intro s
  constructor
  · rintro ⟨_, rest, rfl, ⟨x, rfl, starts⟩, within⟩
    rw [List.singleton_append, isPlainName, Bool.and_eq_true, List.all_eq_true]
    exact ⟨starts, within⟩
  · intro named
    cases s with
    | nil => cases named
    | cons x rest =>
        rw [isPlainName, Bool.and_eq_true, List.all_eq_true] at named
        exact ⟨[x], rest, rfl, ⟨x, rfl, named.1⟩, named.2⟩

theorem denotes_calledChain : calledChain.Denotes (Then IsChain (isPlainName · = true)) := by
  have joint : (gap ++ words "?." [".", "->", "::"] ++ gap).Denotes IsJoint :=
    ((Denotes.manyOne isBlank true).seq (Denotes.words _ _)).seq (Denotes.manyOne isBlank true)
  exact (denotes_plainName.seq ((joint.seq denotes_plainName).many true)).congr
    fun s => then_repeated_iff

theorem chainCall_matches_of_reads {c c' : Cursor} {chain name : Text} (chained : IsChain chain)
    (named : isPlainName name = true) (reads : c.Reads (chain ++ name ++ ['(']) c') :
    ∃ m, chainCall.pattern.Matches c c' m := by
  have denotes := ((denotes_calledChain.mark .callee).seq (Denotes.manyOne isBlank true)).seq
    (Denotes.one (· == '('))
  refine denotes.complete reads ⟨chain ++ name, ['('], rfl, ?_, '(', rfl, rfl⟩
  exact ⟨chain ++ name, [], by simp, ⟨chain, name, rfl, chained, named⟩, by simp⟩

end BraceFamily

open BraceFamily (chainCall)

/-- A match reads a call in a text: behind a front, a chain and the name that is called, then blanks
and a parenthesis.  The chain and the name are the callee. -/
structure Match.ReadsCall (m : Match) (t front chain name : Text) : Prop where
  chained : IsChain chain
  named : isPlainName name = true
  start : m.start = size front
  stands : ∃ pad rest, IsPad pad ∧ t = front ++ (chain ++ name ++ pad ++ '(' :: rest) ∧
    m.stop = size front + size (chain ++ name ++ pad) + 1
  callee : m.group? .callee = some ⟨size front, size front + size (chain ++ name)⟩

/-- Every match of the form reads a call. -/
theorem exists_readsCall {t : Text} {m : Match} (found : chainCall.pattern.FoundIn t m) :
    ∃ front chain name, m.ReadsCall t front chain name := by
  obtain ⟨c, inside, start, whole⟩ := found.exists_matches
  obtain ⟨front, split, offset, _⟩ := inside.split
  obtain ⟨begin, after, marks⟩ := m
  dsimp only at start whole
  rw [BraceFamily.chainCall_pattern] at whole
  cases whole with
  | seq first closing =>
  cases first with
  | seq marked padded =>
  cases marked with
  | @mark _ _ _ c₂ _ inner =>
      obtain ⟨_, readsCallee, chain, name, rfl, chained, named⟩ :=
        BraceFamily.denotes_calledChain.sound inner
      obtain ⟨pad, readsPad, blank⟩ := (Denotes.manyOne isBlank true).sound padded
      obtain ⟨_, readsClosing, x, rfl, same⟩ := (Denotes.one (· == '(')).sound closing
      obtain rfl := beq_iff_eq.1 same
      have reads := (readsCallee.trans readsPad).trans readsClosing
      obtain rfl := closing.marks_eq_nil fun _ => rfl
      obtain rfl := padded.marks_eq_nil fun _ => rfl
      obtain rfl := inner.marks_eq_nil fun _ => rfl
      refine ⟨front, chain, name, chained, named, start.trans offset,
        ⟨pad, after.rest, blank, ?_, ?_⟩, ?_⟩
      · rw [split, reads.rest]
        simp
      · rw [Match.stop, reads.offset, offset, size_append]
        rfl
      · rw [← offset, ← readsCallee.offset]
        rfl

namespace Match.ReadsCall

variable {m : Match} {t front chain name : Text}

theorem start_lt_stop (reads : m.ReadsCall t front chain name) : m.start < m.stop := by
  obtain ⟨pad, rest, _, _, stop⟩ := reads.stands
  rw [reads.start, stop]
  omega

/-- A call is taken if what stands before it allows it. -/
theorem read?_eq (reads : m.ReadsCall t front chain name) (g : Grammar) :
    chainCall.read? g t m =
      if g.accepts front (chain ++ name) then some (size front, squeeze (chain ++ name))
      else none := by
  obtain ⟨pad, rest, _, split, _⟩ := reads.stands
  have callee : t.slice ⟨size front, size front + size (chain ++ name)⟩ = chain ++ name := by
    rw [split, List.append_assoc (chain ++ name)]
    exact slice_eq
  have before : t.slice ⟨0, size front⟩ = front := by
    have whole : t = [] ++ (front ++ (chain ++ name ++ pad ++ '(' :: rest)) := by simpa using split
    have sliced : slice ([] ++ (front ++ (chain ++ name ++ pad ++ '(' :: rest)))
        ⟨size [], size [] + size front⟩ = front := slice_eq
    rw [whole]
    simpa using sliced
  simp only [CallForm.read?, reads.callee, Option.bind_eq_bind, Option.bind_some, callee, before]
  cases accepted : g.accepts front (chain ++ name) <;> simp [chainCall]

end Match.ReadsCall

theorem squeeze_append_name {chain name : Text} (named : isPlainName name = true) :
    squeeze (chain ++ name) = squeeze chain ++ name := by
  have kept : name.filter (!isBlank ·) = name := by
    rw [List.filter_eq_self]
    intro c listed
    simp [visible_of_inName (inName_of_isPlainName named c listed)]
  rw [squeeze_eq_filter, squeeze_eq_filter, List.filter_append, kept]

/-! ### Calls that are found -/

/-- Of two matches that start in one place there is one. -/
theorem Pattern.FoundIn.eq_of_start_eq {p : Pattern} {t : Text} {m m' : Match}
    (found : p.FoundIn t m) (found' : p.FoundIn t m') (same : m.start = m'.start) : m = m' := by
  obtain ⟨c, inside, there⟩ := found
  obtain ⟨c', inside', there'⟩ := found'
  have place : c = c' := by
    have first := inside.ofOffset?
    rw [← (matches_of_matchAt? there).1, same, (matches_of_matchAt? there').1,
      inside'.ofOffset?] at first
    exact (Option.some.inj first).symm
  subst place
  exact Option.some.inj (there.symm.trans there')

/-- A callee is kept if no other one has its offset. -/
theorem mem_firstByOffset {found : List (Nat × Text)} {offset : Nat} {callee : Text}
    (listed : (offset, callee) ∈ found)
    (only : ∀ callee', (offset, callee') ∈ found → callee' = callee) (someText : callee ≠ [])
    {seen : List Nat} (unseen : offset ∉ seen) :
    ⟨String.ofList callee, offset⟩ ∈ firstByOffset seen found := by
  induction found generalizing seen with
  | nil => cases listed
  | cons first more ih =>
      obtain ⟨offset', callee'⟩ := first
      have later : offset' ≠ offset → ∀ {seen}, offset ∉ seen →
          ⟨String.ofList callee, offset⟩ ∈ firstByOffset seen more := by
        intro other seen unseen
        refine ih ?_ (fun k inMore => only k (List.mem_cons_of_mem _ inMore)) unseen
        rcases List.mem_cons.1 listed with same | inMore
        · exact absurd (Prod.mk.inj same).1.symm other
        · exact inMore
      rw [firstByOffset]
      by_cases here : offset' = offset
      · subst here
        obtain rfl := only callee' List.mem_cons_self
        rw [if_neg (by simpa using unseen), if_neg (by simpa using someText)]
        exact List.mem_cons_self
      · have unseen' : offset ∉ offset' :: seen := by
          rw [List.mem_cons, not_or]
          exact ⟨Ne.symm here, unseen⟩
        split
        · exact later here unseen
        · split
          · exact later here unseen'
          · exact List.mem_cons_of_mem _ (later here unseen')

section Calls

variable {g : Grammar} {own : OwnText}

theorem findCalls_eq (calls : g.calls = [chainCall]) :
    findCalls g own =
      (firstByOffset [] ((chainCall.pattern.findAll own.code).filterMap
        (chainCall.read? g own.code))).mergeSort fun a b => a.offset ≤ b.offset := by
  simp only [findCalls, calls, List.flatMap_cons, List.flatMap_nil, List.append_nil]
  rfl

/-- A call that is read and taken is found. -/
theorem mem_findCalls_of_readsCall (calls : g.calls = [chainCall]) {m : Match}
    {front chain name : Text} (listed : m ∈ chainCall.pattern.findAll own.code)
    (reads : m.ReadsCall own.code front chain name)
    (accepted : g.accepts front (chain ++ name) = true) :
    ⟨String.ofList (squeeze (chain ++ name)), size front⟩ ∈ findCalls g own := by
  rw [findCalls_eq calls, List.mem_mergeSort]
  have read : chainCall.read? g own.code m = some (size front, squeeze (chain ++ name)) := by
    rw [reads.read?_eq, if_pos accepted]
  refine mem_firstByOffset (List.mem_filterMap.2 ⟨m, listed, read⟩) ?_ ?_ (by simp)
  · intro callee' listed'
    obtain ⟨m', inText, read'⟩ := List.mem_filterMap.1 listed'
    obtain ⟨front', chain', name', reads'⟩ := exists_readsCall (mem_findAll inText)
    -- the offset of a callee is where its match starts
    have start : m.start = m'.start := by
      rw [reads'.read?_eq] at read'
      split at read'
      · rw [reads.start, reads'.start]
        exact (Prod.mk.inj (Option.some.inj read')).1.symm
      · cases read'
    obtain rfl := (mem_findAll listed).eq_of_start_eq (mem_findAll inText) start
    rw [read] at read'
    exact (Prod.mk.inj (Option.some.inj read')).2.symm
  · rw [squeeze_append_name reads.named]
    exact List.append_ne_nil_of_right_ne_nil _ (ne_nil_of_isPlainName reads.named)

/-- What is called is a plain name. -/
theorem isPlainName_of_mem_findCalls (calls : g.calls = [chainCall]) {site : CallSite}
    (listed : site ∈ findCalls g own) : isPlainName (lastSegment site.callee).toList = true := by
  rw [findCalls_eq calls, List.mem_mergeSort] at listed
  obtain ⟨m, inText, read⟩ := List.mem_filterMap.1 (mem_of_mem_firstByOffset listed)
  obtain ⟨front, chain, name, reads⟩ := exists_readsCall (mem_findAll inText)
  rw [reads.read?_eq] at read
  split at read
  · have spelled := (Prod.mk.inj (Option.some.inj read)).2.symm
    rw [squeeze_append_name reads.named] at spelled
    rw [reads.chained.lastSegment_eq (inName_of_isPlainName reads.named) spelled,
      String.toList_ofList]
    exact reads.named
  · cases read

/-- Before a plain name and a parenthesis, a match reads the longest chain and the name. -/
theorem exists_readsCall_of_cut {t before front chain name rest : Text}
    (cut : LongestChain before front chain) (named : isPlainName name = true)
    (opens : ∀ b ∈ before.getLast?, inName b = false)
    (split : t = before ++ (name ++ '(' :: rest)) :
    ∃ m ∈ chainCall.pattern.findAll t, m.ReadsCall t front chain name := by
  have moves : ∀ m, chainCall.pattern.FoundIn t m → m.start < m.stop := by
    intro m found
    obtain ⟨_, _, _, reads⟩ := exists_readsCall found
    exact reads.start_lt_stop
  have whole : t = front ++ (chain ++ name ++ ['('] ++ rest) := by
    rw [split, cut.split]
    simp
  obtain ⟨c, inside, offset⟩ : ∃ c : Cursor, c.In t ∧ c.offset = size front :=
    Cursor.exists_in_of_isBoundary (whole ▸ isBoundary_append front _)
  have follows : c.rest = chain ++ name ++ ['('] ++ rest := by
    obtain ⟨front', split', offset', _⟩ := inside.split
    rw [whole] at split'
    exact (append_inj_of_size split' (offset.symm.trans offset')).2.symm
  obtain ⟨c', reads⟩ : ∃ c', c.Reads (chain ++ name ++ ['(']) c' :=
    ⟨⟨_, _, rest⟩, follows, rfl, rfl⟩
  obtain ⟨marks, there⟩ := BraceFamily.chainCall_matches_of_reads cut.chained named reads
  obtain ⟨m, listed, starts, reaches⟩ := exists_mem_findAll moves inside there
  obtain ⟨front', chain', name', read⟩ := exists_readsCall (mem_findAll listed)
  obtain ⟨pad, rest', blank, split', stop⟩ := read.stands
  rw [offset, read.start] at starts
  rw [offset, stop] at reaches
  obtain ⟨rfl, rfl, rfl⟩ := cut.eq_of_reaches opens named read.chained read.named blank
    (split.symm.trans split') starts (Nat.le_of_lt_succ reaches)
  exact ⟨m, listed, read⟩

end Calls

/-! ### Names that are declared -/

/-- A form of declaration can capture a name. -/
def Grammar.CapturesName (g : Grammar) (name : Text) : Prop :=
  ∃ form ∈ g.declarations, ∃ t m span, form.header.FoundIn t m ∧ m.group? .name = some span ∧
    t.slice span = name

theorem Grammar.capturesName_of_find? {g : Grammar} {form : DeclarationForm} {t : Text}
    {span : Span} (inTable : form ∈ g.declarations)
    (found : (form.header.find? t).bind (·.group? .name) = some span) :
    g.CapturesName (t.slice span) := by
  obtain ⟨m, there, isMarked⟩ := Option.bind_eq_some_iff.1 found
  exact ⟨form, inTable, t, m, span, find?_sound there, isMarked, rfl⟩

/-- Every match has characters of names behind its first character. -/
def Pattern.ReadsName (p : Pattern) : Prop :=
  ∀ {c c' : Cursor} {m : Marks}, p.Matches c c' m →
    ∃ s, c.Reads s c' ∧ ∀ x ∈ s.tail, inName x = true

namespace Pattern

theorem Denotes.readsName {p : Pattern} {A : Text → Prop} (denotes : p.Denotes A)
    (within : ∀ s, A s → ∀ x ∈ s.tail, inName x = true) : p.ReadsName := by
  intro c c' m found
  obtain ⟨s, reads, kind⟩ := denotes.sound found
  exact ⟨s, reads, within s kind⟩

theorem readsName_plainName : BraceFamily.plainName.ReadsName := by
  refine BraceFamily.denotes_plainName.readsName ?_
  intro s named x listed
  exact inName_of_isPlainName named x (List.mem_of_mem_tail listed)

/-- Any character, then word characters. -/
theorem readsName_word (accepts : Char → Bool) : (one accepts ++ word.star).ReadsName := by
  refine ((Denotes.one accepts).seq (Denotes.manyOne isWordChar true)).readsName ?_
  rintro _ ⟨_, rest, rfl, ⟨first, rfl, _⟩, words⟩ x listed
  simp [inName, words x (by simpa using listed)]

theorem readsName_private : ((char '#').opt ++ BraceFamily.plainName).ReadsName := by
  refine (((Denotes.one (· == '#')).either .empty).seq
    BraceFamily.denotes_plainName).readsName ?_
  rintro _ ⟨_, name, rfl, ⟨_, rfl, _⟩ | rfl, named⟩ x listed
  · exact inName_of_isPlainName named x (by simpa using listed)
  · exact inName_of_isPlainName named x (List.mem_of_mem_tail listed)

theorem readsName_constructor : (lit "constructor").ReadsName := by
  refine (Denotes.lit "constructor").readsName ?_
  rintro _ rfl
  have plain : isPlainName "constructor".toList = true := by decide +kernel
  intro x listed
  exact inName_of_isPlainName plain x (List.mem_of_mem_tail listed)

end Pattern

/-- A grammar with one form of call, in which only `new` makes an instantiation of a call and names
have characters of names behind the first one. -/
structure Grammar.CallsByChain (g : Grammar) : Prop where
  calls : g.calls = [chainCall]
  constructorWord : ∀ word, g.isConstructorWord word = true → word = "new".toList
  names : ∀ q ∈ g.declarations.flatMap (·.header.marked .name), q.ReadsName

/-- The languages with braces. -/
def braceLanguages : List Language := [.java, .javascript, .typescript, .csharp, .go]

section Languages

open Pattern BraceFamily

theorem eq_new_of_isConstructorWord {g : Grammar} (only : g.constructorWords ⊆ ["new"])
    (caseMatters : g.ignoresCase = false) (word : Text)
    (constructs : g.isConstructorWord word = true) : word = "new".toList := by
  simp only [Grammar.isConstructorWord, caseMatters, Bool.false_eq_true, if_false,
    List.any_eq_true, beq_iff_eq] at constructs
  obtain ⟨listedWord, listed, same⟩ := constructs
  rw [← same, List.mem_singleton.1 (only listed)]

theorem Language.callsByChain_of_brace {lang : Language} {g : Grammar}
    (brace : lang ∈ braceLanguages) (scanned : lang.grammar? = some g) : g.CallsByChain := by
  have types : ∀ q ∈ [one Char.isUpper ++ word.star, word.plus], q.ReadsName :=
    List.forall_mem_cons.2 ⟨readsName_word _, List.forall_mem_singleton.2 (readsName_word _)⟩
  have script : ∀ q ∈ [lit "constructor", plainName, plainName, plainName, plainName,
      (char '#').opt ++ plainName, (char '#').opt ++ plainName], q.ReadsName := by
    simp [readsName_constructor, readsName_plainName, readsName_private]
  cases lang with
  | java => cases scanned; exact ⟨rfl, eq_new_of_isConstructorWord (by decide) rfl, types⟩
  | javascript => cases scanned; exact ⟨rfl, eq_new_of_isConstructorWord (by decide) rfl, script⟩
  | typescript => cases scanned; exact ⟨rfl, eq_new_of_isConstructorWord (by decide) rfl, script⟩
  | csharp => cases scanned; exact ⟨rfl, eq_new_of_isConstructorWord (by decide) rfl, types⟩
  | go =>
      cases scanned
      exact ⟨rfl, eq_new_of_isConstructorWord (by decide) rfl,
        List.forall_mem_singleton.2 (readsName_word _)⟩
  | abap => exact absurd brace (by decide)
  | python => cases scanned

end Languages

namespace Grammar.CallsByChain

variable {g : Grammar} {front chain name : Text}

/-- A name that is captured is plain if it starts like a plain name. -/
theorem isPlainName_eq (byChain : g.CallsByChain) (captured : g.CapturesName name) :
    isPlainName name = name.head?.any startsName := by
  obtain ⟨form, inTable, t, m, span, found, isMarked, rfl⟩ := captured
  obtain ⟨q, isPart, c₁, c₂, _, inside, _, inner, rfl, _, _⟩ := found.exists_group isMarked
  obtain ⟨s, reads, within⟩ :=
    byChain.names q (List.mem_flatMap.2 ⟨form, inTable, isPart⟩) inner
  obtain ⟨_, _, _, _, sliced⟩ := inside.slice reads
  rw [sliced]
  cases s with
  | nil => rfl
  | cons x rest =>
      have inside : rest.all inName = true := List.all_eq_true.2 within
      rw [isPlainName, inside, Bool.and_true]
      rfl

/-- A chain and a name are called unless the name is reserved, or `new` or `@` stands before the
chain. -/
theorem accepts_chain (byChain : g.CallsByChain) (chained : IsChain chain)
    (unreserved : g.isKeyword name = false) (noSign : front.trimEnd.getLast? ≠ some '@')
    (noNew : lastWord front.trimEnd ≠ "new".toList) : g.accepts front (chain ++ name) = true := by
  simp only [Grammar.accepts, Bool.and_eq_true, Bool.or_eq_true, Bool.not_eq_true', bne_iff_ne]
  refine ⟨⟨?_, noSign⟩, Or.inr ?_⟩
  · by_cases empty : chain = []
    · rw [empty, List.nil_append, unreserved, Bool.and_false]
    · -- a joint is no part of a reserved word
      obtain ⟨word, listed, x, inWord, inChain⟩ := chained.exists_joint empty
      have apart : (joints.all fun word => word.toList.all fun c =>
          !(isNameChar c || c == '_' || c == '$' || c == '/')) = true := by
        decide +kernel
      have mixed : ((chain ++ name).all fun c =>
          isNameChar c || c == '_' || c == '$' || c == '/') = false := by
        rw [List.all_eq_false]
        have other := List.all_eq_true.1 (List.all_eq_true.1 apart word listed) x inWord
        exact ⟨x, List.mem_append_left _ inChain, by simpa using other⟩
      rw [mixed, Bool.false_and]
  · cases constructs : g.isConstructorWord (lastWord front.trimEnd) with
    | false => rfl
    | true => exact absurd (byChain.constructorWord _ constructs) noNew

end Grammar.CallsByChain

/-! ### Declared names and called names -/

/-- Where a function has the last part of a callee as its name, the callee is resolved to a
function. -/
theorem Resolver.exists_direct {functions : List Function} {callee : String}
    (named : ∃ f ∈ functions, f.name = lastSegment callee) :
    ∃ f ∈ functions, (ofFunctions functions).resolve callee = .direct f.id ∧
      (f.qualifiedName = callee ∨ f.name = lastSegment callee) := by
  have declared : ∀ {nameOf : Function → String} {name : String} {f : Function},
      LastNamed nameOf functions name f → f ∈ functions ∧ nameOf f = name := by
    rintro nameOf name f ⟨before, after, rfl, isNamed, _⟩
    exact ⟨by simp, isNamed⟩
  have resolves : ResolvesTo functions callee ((ofFunctions functions).resolve callee) :=
    resolve_resolvesTo
  generalize (ofFunctions functions).resolve callee = resolution at resolves
  cases resolves with
  | qualified last => exact ⟨_, (declared last).1, rfl, .inl (declared last).2⟩
  | short _ last => exact ⟨_, (declared last).1, rfl, .inr (declared last).2⟩
  | unknown _ unnamed =>
      obtain ⟨f, listed, isNamed⟩ := named
      exact absurd isNamed (unnamed f listed)

/-- A call of a name behind a chain, which starts behind a front: the callee is the chain without
its blanks and the name, the name is its last part, and it is resolved to a function where a
function has that name. -/
structure CallSite.Calls (site : CallSite) (front chain name : Text) : Prop where
  offset : site.offset = size front
  callee : site.callee.toList = chain.squeeze ++ name
  last : lastSegment site.callee = String.ofList name
  resolves : ∀ functions : List Function, (∃ f ∈ functions, f.name = String.ofList name) →
    ∃ f ∈ functions, (Resolver.ofFunctions functions).resolve site.callee = .direct f.id ∧
      (f.qualifiedName = site.callee ∨ f.name = String.ofList name)

theorem CallSite.calls_of_chain {front chain name : Text} (chained : IsChain chain)
    (named : isPlainName name = true) :
    (CallSite.mk (String.ofList (squeeze (chain ++ name))) (size front)).Calls front chain
      name := by
  have spelled : (String.ofList (squeeze (chain ++ name))).toList = chain.squeeze ++ name := by
    rw [String.toList_ofList, squeeze_append_name named]
  have last := chained.lastSegment_eq (inName_of_isPlainName named) spelled
  refine ⟨rfl, spelled, last, ?_⟩
  rw [← last]
  exact fun functions isNamed => Resolver.exists_direct isNamed

theorem not_inName_of_opens {b : Char} (opens : isBlank b = true ∨ b ∈ [';', '{', '(', '.']) :
    inName b = false := by
  rcases opens with blank | listed
  · exact not_inName_of_isBlank blank
  · have apart : ([';', '{', '(', '.'].all (!inName ·)) = true := by decide +kernel
    simpa using List.all_eq_true.1 apart b listed

/-- In the languages with braces, a captured name that is not reserved and starts with an ASCII
letter, `_` or `$` is found wherever it is called: before the name and a parenthesis, behind the
start of the text, a blank, `;`, `{`, `(` or `.`, a call is found at the longest chain that ends
there, unless `new` or `@` stands before the chain.  A captured name that starts otherwise is never
the last part of a callee. -/
theorem plain_names_are_called {lang : Language} {g : Grammar} (brace : lang ∈ braceLanguages)
    (scanned : lang.grammar? = some g) {name : Text} (captured : g.CapturesName name)
    (unreserved : g.isKeyword name = false) :
    (name.head?.any startsName = true → ∀ (own : OwnText) (before rest : Text),
      own.code = before ++ (name ++ '(' :: rest) →
      (∀ b ∈ before.getLast?, isBlank b = true ∨ b ∈ [';', '{', '(', '.']) →
      ∃ front chain, LongestChain before front chain ∧
        (front.trimEnd.getLast? ≠ some '@' → lastWord front.trimEnd ≠ "new".toList →
          ∃ site ∈ findCalls g own, site.Calls front chain name)) ∧
    (name.head?.any startsName = false → ∀ (own : OwnText), ∀ site ∈ findCalls g own,
      lastSegment site.callee ≠ String.ofList name) := by
  have byChain := Language.callsByChain_of_brace brace scanned
  constructor
  · intro starts own before rest split opens
    have named : isPlainName name = true := (byChain.isPlainName_eq captured).trans starts
    have apart : ∀ b ∈ before.getLast?, inName b = false := fun b last =>
      not_inName_of_opens (opens b last)
    obtain ⟨front, chain, cut⟩ := exists_longestChain before
    refine ⟨front, chain, cut, ?_⟩
    intro noSign noNew
    obtain ⟨m, listed, reads⟩ := exists_readsCall_of_cut cut named apart split
    exact ⟨_, mem_findCalls_of_readsCall byChain.calls listed reads
      (byChain.accepts_chain cut.chained unreserved noSign noNew),
      CallSite.calls_of_chain cut.chained named⟩
  · intro starts own site listed same
    have plain := isPlainName_of_mem_findCalls byChain.calls listed
    rw [same, String.toList_ofList, byChain.isPlainName_eq captured, starts] at plain
    cases plain

/-- What stands before a call over two lines.  The chain starts behind a letter that cannot start a
name. -/
def beforeGreen : Text := "; ünit -> b\n.".toList

/-- A text with the call. -/
def greenCall : OwnText := ⟨beforeGreen ++ "grün()".toList, beforeGreen ++ "grün()".toList⟩

theorem plain_names_are_called_over_lines :
    Grammar.java.CapturesName "grün".toList ∧ Grammar.java.isKeyword "grün".toList = false ∧
      findCalls Grammar.java greenCall = [⟨"nit->b.grün", 4⟩] ∧
      ∃ front chain, LongestChain beforeGreen front chain ∧
        ∃ site ∈ findCalls Grammar.java greenCall, site.Calls front chain "grün".toList := by
  have captured : Grammar.java.CapturesName (slice "void grün(".toList ⟨5, 10⟩) :=
    Grammar.capturesName_of_find? (List.mem_cons_of_mem _ List.mem_cons_self) (by decide +kernel)
  have unreserved : Grammar.java.isKeyword "grün".toList = false := by decide +kernel
  have brace : Language.java ∈ braceLanguages := by decide
  have starts : "grün".toList.head?.any startsName = true := by decide +kernel
  have opens : ∀ b ∈ beforeGreen.getLast?, isBlank b = true ∨ b ∈ [';', '{', '(', '.'] := by
    have last : beforeGreen.getLast? = some '.' := by decide
    simp [last]
  have allowed : ∀ front : Text, front ∈ beforeGreen.inits → front.trimEnd.getLast? ≠ some '@' ∧
      lastWord front.trimEnd ≠ "new".toList := by
    decide +kernel
  refine ⟨captured, unreserved, by decide +kernel, ?_⟩
  obtain ⟨front, chain, cut, called⟩ :=
    (plain_names_are_called brace rfl captured unreserved).1 starts
      greenCall beforeGreen [')'] rfl opens
  obtain ⟨noSign, noNew⟩ := allowed front ((List.mem_inits _ _).2 ⟨chain, cut.split.symm⟩)
  exact ⟨front, chain, cut, called noSign noNew⟩

/-- A captured name whose first letter is not an ASCII letter: where it is called, the callee is the
name without the letter. -/
theorem wide_name_is_not_called :
    Grammar.java.CapturesName "über".toList ∧ Grammar.java.isKeyword "über".toList = false ∧
      findCalls Grammar.java ⟨"über()".toList, "über()".toList⟩ = [⟨"ber", 2⟩] ∧
      lastSegment "ber" ≠ "über" := by
  have captured : Grammar.java.CapturesName (slice "void über(".toList ⟨5, 10⟩) :=
    Grammar.capturesName_of_find? (List.mem_cons_of_mem _ List.mem_cons_self) (by decide +kernel)
  exact ⟨captured, by decide +kernel, by decide +kernel, by decide +kernel⟩

end CallAtlas
