/-
Module: CallAtlas.Proofs.DeclarationPlaces
Purpose: Where declarations stand.  A declaration is found in the view without comments and strings,
  and its ends are used in the other views as well.  The tables of forms are such that each end has
  something visible, or the end of a line, on one side, so it is a position of every view.
Main definitions: BodyPlaced, Declaration.Placed, DeclarationForm.Anchored
Main results: DeclarationForm.read?_placed, Grammar.declarationsOf_placed,
  Language.anchored_of_grammar?, Text.Firm.in_views, Declaration.Placed.in_views
-/
import CallAtlas.Extraction
import CallAtlas.Proofs.BlockPlaces

namespace CallAtlas

/-! ### Bodies behind headers -/

/-- A body, if there is one, begins behind an offset and ends at or before the end of its
declaration.  `here` says which offsets are positions. -/
structure BodyPlaced (here : Nat → Prop) (after : Nat) (body : Option Span) (stop : Nat) :
    Prop where
  ends : here stop
  bodyStart : ∀ b, body = some b → here b.start
  bodyStop : ∀ b, body = some b → here b.stop
  ordered : ∀ b, body = some b → after ≤ b.start ∧ b.start ≤ b.stop ∧ b.stop ≤ stop

namespace BodyPlaced

variable {here there : Nat → Prop} {after after' stop : Nat} {body : Option Span}

theorem none (ends : here stop) : BodyPlaced here after none stop :=
  ⟨ends, by simp, by simp, by simp⟩

theorem some {b : Span} (ends : here stop) (starts : here b.start) (stops : here b.stop)
    (behind : after ≤ b.start) (holds : b.start ≤ b.stop) (before : b.stop ≤ stop) :
    BodyPlaced here after (some b) stop := by
  refine ⟨ends, ?_, ?_, ?_⟩
  · rintro _ ⟨rfl⟩
    exact starts
  · rintro _ ⟨rfl⟩
    exact stops
  · rintro _ ⟨rfl⟩
    exact ⟨behind, holds, before⟩

theorem mono (placed : BodyPlaced here after body stop) (carries : ∀ n, here n → there n)
    (earlier : after' ≤ after) : BodyPlaced there after' body stop where
  ends := carries _ placed.ends
  bodyStart b isBody := carries _ (placed.bodyStart b isBody)
  bodyStop b isBody := carries _ (placed.bodyStop b isBody)
  ordered b isBody := by
    have ordered := placed.ordered b isBody
    omega

/-- The body of a block that opens behind an offset. -/
theorem of_block {t : Text} {b : Block} (stands : b.StandsIn t) (behind : after ≤ b.bodyStart) :
    BodyPlaced t.Firm after (Option.some b.bodySpan) b.stop :=
  .some stands.stop stands.bodyStart stands.close behind stands.holds stands.closes

end BodyPlaced

/-- A declaration stands at positions, in order: header, name, body. -/
structure Declaration.Placed (here : Nat → Prop) (d : Declaration) : Prop where
  start : here d.span.start
  name : d.span.start ≤ d.nameAt
  body : BodyPlaced here d.nameAt d.body d.span.stop

theorem Declaration.Placed.mono {here there : Nat → Prop} {d : Declaration}
    (placed : d.Placed here) (carries : ∀ n, here n → there n) : d.Placed there where
  start := carries _ placed.start
  name := placed.name
  body := placed.body.mono carries (Nat.le_refl _)

/-! ### Forms -/

/-- What stands after the parameters ends in something visible, and so do its marked parts where the
declaration begins or ends. -/
def tailAnchored (tail : Pattern) : Bool :=
  tail.endsVisible && (tail.marked .expression).all (·.startsVisible) &&
    (tail.marked .terminator).all (·.endsVisible)

/-- The ends of a body without a tail have something visible on one side. -/
def BodyForm.Anchored (header : Pattern) : BodyForm → Prop
  | .braces => True
  | .keywords pair =>
    header.unmarked = pair.opener.unmarked ∧ header.endsVisible = true ∧
      pair.closer.startsFirm = true ∧ pair.closer.endsVisible = true
  | .upTo boundary => header.endsVisible = true ∧ boundary.startsFirm = true

/-- The patterns of a form begin and end where all views have a position. -/
structure DeclarationForm.Anchored (form : DeclarationForm) : Prop where
  header : form.header.startsFirm = true
  tail : ∀ tail, form.tail = some tail → tailAnchored tail = true
  body : form.tail = none → form.body.Anchored form.header

theorem ParameterSource.stop_le_of_read? {source : ParameterSource} {code parameters : Text}
    {m : Match} {after : Nat} (read : source.read? code m = some (parameters, after)) :
    m.stop ≤ after := by
  cases source with
  | parentheses =>
      obtain ⟨b, found, same⟩ := Option.map_eq_some_iff.1 read
      obtain ⟨p, q, s, _, late, atOpening, atBody, atClose, atStop, _⟩ := Block.braced?_spec found
      obtain ⟨_, rfl⟩ := Prod.mk.inj same
      have width := Char.utf8Size_pos '('
      omega
  | header =>
      obtain ⟨_, rfl⟩ := Prod.mk.inj (Option.some.inj read)
      exact Nat.le_refl _
  | nowhere =>
      obtain ⟨_, rfl⟩ := Prod.mk.inj (Option.some.inj read)
      exact Nat.le_refl _

theorem bodyAfterTail?_placed {code : Text} {after stop : Nat} {tail : Pattern} {body : Option Span}
    (anchored : tailAnchored tail = true)
    (read : bodyAfterTail? code after tail = some (body, stop)) :
    BodyPlaced code.Firm after body stop := by
  simp only [tailAnchored, Bool.and_eq_true, List.all_eq_true] at anchored
  obtain ⟨⟨stopVisible, expressionVisible⟩, terminatorVisible⟩ := anchored
  simp only [bodyAfterTail?, Option.bind_eq_bind, Option.bind_eq_some_iff] at read
  obtain ⟨rest, cut, found, searched, read⟩ := read
  obtain ⟨front, rfl, rfl⟩ := Text.from?_eq_some_iff.1 cut
  have there := Pattern.find?_sound searched
  split at read
  · -- a body in braces
    obtain ⟨block, braced, made⟩ := Option.bind_eq_some_iff.1 read
    obtain ⟨rfl, rfl⟩ := Prod.mk.inj (Option.some.inj made)
    obtain ⟨stands, late⟩ := Block.braced?_standsIn braced (by decide) (by decide)
    have opens := stands.opens
    exact BodyPlaced.of_block stands (by omega)
  · split at read
    · -- an expression body
      next expression isMarked =>
        obtain ⟨rfl, rfl⟩ := Prod.mk.inj (Option.some.inj read)
        obtain ⟨q, listed, c₁, c₂, _, inside, _, inner, rfl, _, _⟩ := there.exists_group isMarked
        have starts := (inner.start_visibleAt inside (expressionVisible q listed)).append_left front
        obtain ⟨stops, behind⟩ := statementEndFrom_firm true 0 starts.firm.isBoundary
        exact .some stops starts.firm stops (Nat.le_add_right _ _) behind (Nat.le_refl _)
    · -- no body
      obtain ⟨rfl, rfl⟩ := Prod.mk.inj (Option.some.inj read)
      refine BodyPlaced.none ?_
      cases isMarked : found.group? .terminator with
      | none => exact ((there.stop_visibleBefore stopVisible).append_left front).firm
      | some terminator =>
          obtain ⟨q, listed, c₁, c₂, _, inside, _, inner, rfl, _, _⟩ := there.exists_group isMarked
          exact ((inner.stop_visibleBefore inside (terminatorVisible q listed)).append_left
            front).firm

theorem BodyForm.read?_placed {form : BodyForm} {header : Pattern} {code : Text} {m : Match}
    {after stop : Nat} {body : Option Span} (anchored : form.Anchored header)
    (found : header.FoundIn code m) (late : m.stop ≤ after)
    (read : form.read? code m after = some (body, stop)) :
    BodyPlaced code.Firm m.stop body stop := by
  cases form with
  | braces =>
      obtain ⟨b, braced, same⟩ := Option.map_eq_some_iff.1 read
      obtain ⟨rfl, rfl⟩ := Prod.mk.inj same
      obtain ⟨stands, behind⟩ := Block.braced?_standsIn braced (by decide) (by decide)
      have opens := stands.opens
      exact BodyPlaced.of_block stands (by omega)
  | keywords pair =>
      obtain ⟨alike, stopVisible, closerFirm, closerVisible⟩ := anchored
      obtain ⟨b, opened, same⟩ := Option.map_eq_some_iff.1 read
      obtain ⟨rfl, rfl⟩ := Prod.mk.inj same
      obtain ⟨stands, atStop⟩ :=
        Block.keyword?_standsIn found alike opened stopVisible closerFirm closerVisible
      exact BodyPlaced.of_block stands (Nat.le_of_eq atStop.symm)
  | upTo boundary =>
      obtain ⟨stopVisible, boundaryFirm⟩ := anchored
      obtain ⟨rfl, rfl⟩ := Prod.mk.inj (Option.some.inj read)
      have starts := (found.stop_visibleBefore stopVisible).firm
      cases searched : boundary.searchFrom? m.after with
      | none =>
          -- the body runs to the end of the text
          have ends : code.Firm code.size := ⟨code, [], by simp, rfl, Or.inr (by simp)⟩
          exact .some ends starts ends (Nat.le_refl _) found.stop_le_size (Nat.le_refl _)
      | some next =>
          obtain ⟨there, behind⟩ := Pattern.searchFrom?_sound found.after_in searched
          have ends := there.start_firm boundaryFirm
          exact .some ends starts ends (Nat.le_refl _) behind (Nat.le_refl _)

/-! ### Declarations -/

/-- What a header that was read as a declaration consists of. -/
theorem DeclarationForm.read?_cases {g : Grammar} {form : DeclarationForm} {views : Views}
    {containers : List Container} {m : Match} {d : Declaration}
    (read : form.read? g views containers m = some d) :
    ∃ name parameters after, m.group? .name = some name ∧
      form.parameters.read? views.code m = some (parameters, after) ∧
      (match form.tail with
        | some tail => bodyAfterTail? views.code after tail
        | none => form.body.read? views.code m after) = some (d.body, d.span.stop) ∧
      d.nameAt = name.start ∧ d.span.start = m.start ∧
      d.name = String.ofList (views.code.slice name).collapse := by
  simp only [DeclarationForm.read?, Option.bind_eq_bind, Option.bind_eq_some_iff] at read
  obtain ⟨name, isMarked, read⟩ := read
  split at read
  · cases read
  split at read
  · cases read
  split at read
  · cases read
  obtain ⟨⟨parameters, after⟩, listed, read⟩ := Option.bind_eq_some_iff.1 read
  refine ⟨name, parameters, after, isMarked, listed, ?_⟩
  cases isTail : form.tail with
  | some tail =>
      rw [isTail] at read
      obtain ⟨bounds, bounded, made⟩ := Option.bind_eq_some_iff.1 read
      obtain rfl := Option.some.inj made
      exact ⟨bounded, rfl, rfl, rfl⟩
  | none =>
      rw [isTail] at read
      obtain ⟨bounds, bounded, made⟩ := Option.bind_eq_some_iff.1 read
      obtain rfl := Option.some.inj made
      exact ⟨bounded, rfl, rfl, rfl⟩

section Read

variable {g : Grammar} {form : DeclarationForm} {views : Views} {containers : List Container}
  {m : Match} {d : Declaration}

/-- The body of a declaration begins behind the header. -/
theorem DeclarationForm.read?_bodyPlaced (anchored : form.Anchored)
    (found : form.header.FoundIn views.code m)
    (read : form.read? g views containers m = some d) :
    BodyPlaced views.code.Firm m.stop d.body d.span.stop := by
  obtain ⟨_, parameters, after, _, listed, bounded, _⟩ := read?_cases read
  have late := ParameterSource.stop_le_of_read? listed
  cases isTail : form.tail with
  | some tail =>
      rw [isTail] at bounded
      exact (bodyAfterTail?_placed (anchored.tail tail isTail) bounded).mono (fun _ => id) late
  | none =>
      rw [isTail] at bounded
      exact BodyForm.read?_placed (anchored.body isTail) found late bounded

/-- Every declaration that a form admits stands at positions of the text, its name before its
body. -/
theorem DeclarationForm.read?_placed (anchored : form.Anchored)
    (found : form.header.FoundIn views.code m)
    (read : form.read? g views containers m = some d) : d.Placed views.code.Firm := by
  obtain ⟨name, _, _, isMarked, _, _, nameAt, start, _⟩ := read?_cases read
  obtain ⟨_, _, c₁, c₂, _, _, _, inner, rfl, behind, inside⟩ := found.exists_group isMarked
  have nameBefore : d.nameAt ≤ m.stop := by
    have ordered := inner.le
    dsimp only at nameAt
    omega
  refine ⟨start ▸ found.start_firm anchored.header, by rw [start, nameAt]; exact behind, ?_⟩
  exact (read?_bodyPlaced anchored found read).mono (fun _ => id) nameBefore

end Read

theorem mem_of_mem_firstByName {d : Declaration} {seen : List Nat} {found : List Declaration}
    (listed : d ∈ firstByName seen found) : d ∈ found := by
  induction found generalizing seen with
  | nil => cases listed
  | cons e more ih =>
      rw [firstByName] at listed
      split at listed
      · exact List.mem_cons_of_mem e (ih listed)
      · rcases List.mem_cons.1 listed with rfl | later
        · exact List.mem_cons_self
        · exact List.mem_cons_of_mem e (ih later)

/-- A declaration is read from a match of one of the forms. -/
theorem Grammar.exists_header_of_mem_declarationsOf {g : Grammar} {views : Views} {d : Declaration}
    (listed : d ∈ g.declarationsOf views) :
    ∃ form ∈ g.declarations, ∃ m ∈ form.header.findAll views.code,
      form.read? g views (findContainers g views.code) m = some d := by
  have found := mem_of_mem_firstByName (List.mem_mergeSort.1 listed)
  obtain ⟨form, inTable, read⟩ := List.mem_flatMap.1 found
  obtain ⟨m, searched, read⟩ := List.mem_filterMap.1 read
  exact ⟨form, inTable, m, searched, read⟩

theorem Grammar.declarationsOf_placed {g : Grammar} {views : Views} {d : Declaration}
    (anchored : ∀ form ∈ g.declarations, form.Anchored) (listed : d ∈ g.declarationsOf views) :
    d.Placed views.code.Firm := by
  obtain ⟨form, inTable, m, searched, read⟩ := exists_header_of_mem_declarationsOf listed
  exact form.read?_placed (anchored form inTable) (Pattern.mem_findAll searched) read

/-! ### The tables of all languages -/

/-- A table in which every form has a tail is checked by computation. -/
theorem anchored_of_tails {forms : List DeclarationForm}
    (check : (forms.all fun form => form.header.startsFirm && form.tail.any tailAnchored) = true) :
    ∀ form ∈ forms, form.Anchored := by
  intro form listed
  have checked := List.all_eq_true.1 check form listed
  simp only [Bool.and_eq_true] at checked
  refine ⟨checked.1, ?_, ?_⟩
  · intro tail isTail
    simpa [isTail] using checked.2
  · intro isTail
    simp [isTail] at checked

theorem anchored_of_body {form : DeclarationForm} (header : form.header.startsFirm = true)
    (isTail : form.tail = none) (body : form.body.Anchored form.header) : form.Anchored := by
  refine ⟨header, ?_, fun _ => body⟩
  intro tail isTail'
  rw [isTail] at isTail'
  cases isTail'

theorem javaForms_anchored : ∀ form ∈ Grammar.java.declarations, form.Anchored :=
  anchored_of_tails (by decide +kernel)

theorem scriptForms_anchored : ∀ form ∈ ScriptForms.declarations, form.Anchored :=
  anchored_of_tails (by decide +kernel)

theorem csharpForms_anchored : ∀ form ∈ Grammar.csharp.declarations, form.Anchored :=
  anchored_of_tails (by decide +kernel)

theorem goForms_anchored : ∀ form ∈ Grammar.go.declarations, form.Anchored :=
  anchored_of_tails (by decide +kernel)

/-- A declaration between two statements: the header is the opening statement with its name
marked. -/
theorem between_anchored {pair : KeywordPair} {form : DeclarationForm} (isTail : form.tail = none)
    (isBody : form.body = .keywords pair) (alike : form.header.unmarked = pair.opener.unmarked)
    (check : (form.header.startsFirm && form.header.endsVisible && pair.closer.startsFirm &&
      pair.closer.endsVisible) = true) : form.Anchored := by
  simp only [Bool.and_eq_true] at check
  obtain ⟨⟨⟨headerFirm, headerVisible⟩, closerFirm⟩, closerVisible⟩ := check
  refine anchored_of_body headerFirm isTail ?_
  rw [isBody]
  exact ⟨alike, headerVisible, closerFirm, closerVisible⟩

theorem abapForms_anchored : ∀ form ∈ AbapForms.declarations, form.Anchored := by
  intro form listed
  simp only [AbapForms.declarations, List.mem_cons, List.not_mem_nil, or_false] at listed
  rcases listed with rfl | rfl | rfl | rfl | rfl
  · exact between_anchored rfl rfl rfl (by decide +kernel)
  · exact between_anchored rfl rfl rfl (by decide +kernel)
  · exact between_anchored rfl rfl rfl (by decide +kernel)
  · exact between_anchored rfl rfl rfl (by decide +kernel)
  · -- an event runs to the next one
    exact anchored_of_body (by decide +kernel) rfl ⟨by decide +kernel, by decide +kernel⟩

theorem Language.anchored_of_grammar? {lang : Language} {g : Grammar}
    (scanned : lang.grammar? = some g) : ∀ form ∈ g.declarations, form.Anchored := by
  cases lang with
  | python => cases scanned
  | java => cases scanned; exact javaForms_anchored
  | javascript => cases scanned; exact scriptForms_anchored
  | typescript => cases scanned; exact scriptForms_anchored
  | csharp => cases scanned; exact csharpForms_anchored
  | go => cases scanned; exact goForms_anchored
  | abap => cases scanned; exact abapForms_anchored

/-! ### All views -/

/-- A firm position of the view without comments and strings is a position of every view. -/
theorem Text.Firm.in_views {lang : Language} {t : Text} {n : Nat}
    (firm : (codeView lang t).Firm n) :
    t.IsBoundary n ∧ (codeView lang t).IsBoundary n ∧ (literalView lang t).IsBoundary n := by
  have inCode := firm.isBoundary
  rw [codeView_eq] at firm
  have inText := isBoundary_of_firm firm
  refine ⟨inText, inCode, ?_⟩
  rw [literalView_eq]
  exact isBoundary_maskCharacters inText

/-- A declaration of the view without comments and strings stands at positions of both views. -/
theorem Declaration.Placed.in_views {lang : Language} {t : Text} {d : Declaration}
    (placed : d.Placed (codeView lang t).Firm) :
    d.Placed (codeView lang t).IsBoundary ∧ d.Placed (literalView lang t).IsBoundary :=
  ⟨placed.mono fun _ firm => firm.in_views.2.1, placed.mono fun _ firm => firm.in_views.2.2⟩

end CallAtlas
