/-
Module: CallAtlas.Proofs.ConstructForms
Purpose: Where the constructs of an own text come from.  The forms of a grammar are looked for one
  after the other, and each of them only adds constructs that it reads at one of its headers.  So
  the kind of a construct tells its form.
Main definitions: ConstructForm.Makes, ConstructForm.kinds, Constructs.Extends
Main results: Constructs.Extends.addForms, exists_form_of_mem_findConstructs,
  ConstructForm.Makes.kind_mem
-/
import CallAtlas.Scan.Construct

namespace CallAtlas

/-- A form reads a construct at one of its headers. -/
def ConstructForm.Makes (own : OwnText) (c : Construct) : ConstructForm → Prop
  | .ifElse header condition =>
    ∃ m ∈ header.findAll own.code, ∃ taken, own.ifElse? condition m = some (c, taken)
  | .loop header kind condition bare =>
    ∃ m ∈ header.findAll own.code, own.loop? kind condition bare m = some c
  | .doWhile header => ∃ m ∈ header.findAll own.code, ∃ taken, own.doWhile? m = some (c, taken)
  | .tryCatch header => ∃ m ∈ header.findAll own.code, own.tryCatch? m = some c
  | .switch header condition labelled =>
    ∃ m ∈ header.findAll own.code, own.switch? condition labelled m = some c
  | .keywords kind pair clause first =>
    ∃ m ∈ pair.opener.findAll own.code, own.keywords? kind pair clause first m = some c

/-- The kinds of the constructs of a form. -/
def ConstructForm.kinds : ConstructForm → List FlowKind
  | .ifElse _ _ => [.ifElse]
  | .loop _ kind _ bare => kind :: bare.toList
  | .doWhile _ => [.doWhileLoop]
  | .tryCatch _ => [.tryCatch]
  | .switch _ _ _ => [.switch]
  | .keywords kind _ _ _ => [kind]

theorem ConstructForm.Makes.kind_mem {own : OwnText} {c : Construct} {form : ConstructForm}
    (made : form.Makes own c) : c.kind ∈ form.kinds := by
  cases form with
  | ifElse header condition =>
      obtain ⟨m, -, taken, read⟩ := made
      simp only [OwnText.ifElse?, Option.bind_eq_bind, Option.bind_eq_some_iff] at read
      obtain ⟨_, _, _, _, made⟩ := read
      obtain ⟨rfl, _⟩ := Prod.mk.inj (Option.some.inj made)
      exact List.mem_singleton_self _
  | loop header kind condition bare =>
      obtain ⟨m, -, read⟩ := made
      simp only [OwnText.loop?, Option.bind_eq_bind, Option.bind_eq_some_iff] at read
      obtain ⟨_, _, _, _, made⟩ := read
      obtain rfl := Option.some.inj made
      cases bare with
      | none => simp [kinds]
      | some bare =>
          dsimp only [Option.getD_some, kinds]
          split <;> simp
  | doWhile header =>
      obtain ⟨m, -, taken, read⟩ := made
      simp only [OwnText.doWhile?, Option.bind_eq_bind, Option.bind_eq_some_iff] at read
      obtain ⟨block, _, made⟩ := read
      have kind : c.kind = .doWhileLoop := by
        split at made
        · rw [← (Prod.mk.inj (Option.some.inj made)).1]
        · split at made <;> rw [← (Prod.mk.inj (Option.some.inj made)).1]
      rw [kind]
      exact List.mem_singleton_self _
  | tryCatch header =>
      obtain ⟨m, -, read⟩ := made
      simp only [OwnText.tryCatch?, Option.bind_eq_bind, Option.bind_eq_some_iff] at read
      obtain ⟨_, _, _, _, _, _, _, _, made⟩ := read
      obtain rfl := Option.some.inj made
      exact List.mem_singleton_self _
  | switch header condition labelled =>
      obtain ⟨m, -, read⟩ := made
      simp only [OwnText.switch?, Option.bind_eq_bind, Option.bind_eq_some_iff] at read
      obtain ⟨_, _, _, _, _, _, made⟩ := read
      obtain rfl := Option.some.inj made
      exact List.mem_singleton_self _
  | keywords kind pair clause first =>
      obtain ⟨m, -, read⟩ := made
      simp only [OwnText.keywords?, Option.bind_eq_bind, Option.bind_eq_some_iff] at read
      obtain ⟨_, _, made⟩ := read
      obtain rfl := Option.some.inj made
      exact List.mem_singleton_self _

namespace Constructs

/-- Constructs are added behind those that were there, all of them with a property. -/
def Extends (P : Construct → Prop) (sites sites' : Constructs) : Prop :=
  ∃ made, sites'.found = sites.found ++ made ∧ ∀ c ∈ made, P c

namespace Extends

variable {P Q : Construct → Prop} {sites sites' sites'' : Constructs} {own : OwnText}

theorem refl (sites : Constructs) : Extends P sites sites :=
  ⟨[], (List.append_nil _).symm, fun _ listed => absurd listed List.not_mem_nil⟩

theorem trans (first : Extends P sites sites') (second : Extends P sites' sites'') :
    Extends P sites sites'' := by
  obtain ⟨made, found, all⟩ := first
  obtain ⟨made', found', all'⟩ := second
  refine ⟨made ++ made', ?_, ?_⟩
  · rw [found', found, List.append_assoc]
  · intro c listed
    exact (List.mem_append.1 listed).elim (all c) (all' c)

theorem mono (imp : ∀ c, P c → Q c) (made : Extends P sites sites') : Extends Q sites sites' := by
  obtain ⟨made, found, all⟩ := made
  exact ⟨made, found, fun c listed => imp c (all c listed)⟩

theorem add? {read : Option (Construct × List Nat)}
    (has : ∀ c taken, read = some (c, taken) → P c) : Extends P sites (sites.add? read) := by
  cases read with
  | none => exact refl sites
  | some read =>
      refine ⟨[read.1], rfl, ?_⟩
      intro c listed
      rw [List.mem_singleton.1 listed]
      exact has read.1 read.2 rfl

/-- A construct without further keywords. -/
theorem addSole? {read : Option Construct} (has : ∀ c, read = some c → P c) :
    Extends P sites (sites.add? (read.map fun c => (c, []))) := by
  apply add?
  intro c taken made
  obtain ⟨c', isRead, same⟩ := Option.map_eq_some_iff.1 made
  obtain ⟨rfl, _⟩ := Prod.mk.inj same
  exact has c' isRead

theorem foldl {α : Type} {step : Constructs → α → Constructs} (inputs : List α)
    (each : ∀ sites, ∀ x ∈ inputs, Extends P sites (step sites x)) (sites : Constructs) :
    Extends P sites (inputs.foldl step sites) := by
  induction inputs generalizing sites with
  | nil => exact refl sites
  | cons x inputs ih =>
      have first := each sites x List.mem_cons_self
      exact first.trans (ih (fun sites y listed => each sites y (List.mem_cons_of_mem x listed)) _)

/-- A form adds what it reads at its headers. -/
theorem addForm (form : ConstructForm) (sites : Constructs) :
    Extends (form.Makes own) sites (addForm own sites form) := by
  cases form with
  | ifElse header condition =>
      apply foldl
      intro sites m listed
      split
      · exact refl sites
      · exact add? fun c taken read => ⟨m, listed, taken, read⟩
  | loop header kind condition bare =>
      apply foldl
      intro sites m listed
      split
      · exact refl sites
      · exact addSole? fun c read => ⟨m, listed, read⟩
  | doWhile header =>
      apply foldl
      intro sites m listed
      exact add? fun c taken read => ⟨m, listed, taken, read⟩
  | tryCatch header =>
      apply foldl
      intro sites m listed
      exact addSole? fun c read => ⟨m, listed, read⟩
  | switch header condition labelled =>
      apply foldl
      intro sites m listed
      exact addSole? fun c read => ⟨m, listed, read⟩
  | keywords kind pair clause first =>
      apply foldl
      intro sites m listed
      exact addSole? fun c read => ⟨m, listed, read⟩

theorem addForms (forms : List ConstructForm) (sites : Constructs) :
    Extends (fun c => ∃ form ∈ forms, form.Makes own c) sites
      (forms.foldl (Constructs.addForm own) sites) := by
  apply foldl
  intro sites form listed
  exact (addForm form sites).mono fun c made => ⟨form, listed, made⟩

end Extends

end Constructs

theorem exists_form_of_mem_findConstructs {g : Grammar} {own : OwnText} {c : Construct}
    (listed : c ∈ findConstructs g own) : ∃ form ∈ g.constructs, form.Makes own c := by
  obtain ⟨made, found, all⟩ := Constructs.Extends.addForms g.constructs ⟨[], []⟩
  have inFound := List.mem_mergeSort.1 listed
  rw [found, List.nil_append] at inFound
  exact all c inFound

end CallAtlas
