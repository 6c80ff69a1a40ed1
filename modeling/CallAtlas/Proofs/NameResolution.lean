/-
Module: CallAtlas.Proofs.NameResolution
Purpose: Which function a callee stands for.  Names are registered one function after the other, and
  a later function takes the place of an earlier one of the same name.  So a callee stands for the
  last function whose qualified name it is, else for the last one with the name behind its last
  separator, else for nothing known.
Main definitions: EndsWithSeparator, IsLastSegment, LastNamed, ResolvesTo
Main results: lastSegment_isLastSegment, NameTable.get?_eq_some_iff, Resolver.resolve_eq_iff,
  calls_resolve_to_last_registered
-/
import Mathlib.Data.List.Forall2
import Mathlib.Data.List.Induction
import CallAtlas.Proofs.AtlasReferences
import CallAtlas.Proofs.Encoding

namespace CallAtlas

/-! ### The last part of a chain of names -/

namespace Text

theorem afterLast?_spec {piece t : Text} {offset n : Nat}
    (found : afterLast? piece offset t = some n) :
    ∃ front rest, t = front ++ rest ∧ piece <:+ front ∧ n = offset + size front := by
  induction t generalizing offset with
  | nil => cases found
  | cons c t ih =>
      rw [afterLast?] at found
      split at found
      · next later =>
          rw [found] at later
          obtain ⟨front, rest, rfl, ends, rfl⟩ := ih later
          exact ⟨c :: front, rest, rfl, ends.trans (List.suffix_cons c front), by rw [size_cons]; omega⟩
      · split at found
        · next here =>
            obtain ⟨rest, whole⟩ := List.isPrefixOf_iff_prefix.1 here
            exact ⟨piece, rest, whole.symm, List.suffix_refl piece, (Option.some.inj found).symm⟩
        · cases found

/-- No occurrence of a piece ends behind the last one. -/
theorem le_afterLast? {piece front : Text} (someText : piece ≠ []) (ends : piece <:+ front)
    (rest : Text) (offset : Nat) :
    ∃ n, afterLast? piece offset (front ++ rest) = some n ∧ offset + size front ≤ n := by
  induction front generalizing offset with
  | nil => exact absurd (List.suffix_nil.1 ends) someText
  | cons c front ih =>
      rw [List.cons_append, afterLast?]
      rcases List.suffix_cons_iff.1 ends with rfl | later
      · -- the occurrence starts here; a later one ends behind it
        cases found : afterLast? (c :: front) (offset + c.utf8Size) (front ++ rest) with
        | none => exact ⟨offset + size (c :: front), by simp, Nat.le_refl _⟩
        | some n =>
            refine ⟨n, rfl, ?_⟩
            obtain ⟨upTo, _, _, covers, rfl⟩ := afterLast?_spec found
            obtain ⟨before, rfl⟩ := covers
            rw [size_append]
            omega
      · obtain ⟨n, found, bound⟩ := ih later (offset + c.utf8Size)
        refine ⟨n, by rw [found], ?_⟩
        rw [size_cons]
        omega

end Text

/-- A front of a chain of names that a separator ends. -/
def EndsWithSeparator (front : Text) : Prop := ∃ separator ∈ chainSeparators, separator <:+ front

/-- The last part of a chain of names: it is the whole chain or stands behind a separator, and no
separator ends later. -/
structure IsLastSegment (name segment : Text) : Prop where
  stands : ∃ front, name = front ++ segment ∧ (front = [] ∨ EndsWithSeparator front)
  last : ∀ front rest, name = front ++ rest → EndsWithSeparator front → segment <:+ rest

/-- The largest cut is the end of a separator, if there is one, and no separator ends behind it. -/
theorem exists_last_cut (t : Text) :
    ∃ front rest, t = front ++ rest ∧ (front = [] ∨ EndsWithSeparator front) ∧
      Text.size front =
        (chainSeparators.map fun s => (Text.afterLast? s 0 t).getD 0).foldl max 0 ∧
      ∀ front' rest', t = front' ++ rest' → EndsWithSeparator front' →
        Text.size front' ≤ Text.size front := by
  have greatest : (0 :: chainSeparators.map fun s => (Text.afterLast? s 0 t).getD 0).max? =
      some ((chainSeparators.map fun s => (Text.afterLast? s 0 t).getD 0).foldl max 0) :=
    List.max?_cons'
  generalize (chainSeparators.map fun s => (Text.afterLast? s 0 t).getD 0).foldl max 0 = cut
    at greatest
  obtain ⟨attained, covers⟩ := List.max?_eq_some_iff.1 greatest
  have bounded : ∀ front rest, t = front ++ rest → EndsWithSeparator front →
      Text.size front ≤ cut := by
    rintro front rest rfl ⟨separator, listed, ends⟩
    have someText : separator ≠ [] := by
      rintro rfl
      exact absurd listed (by decide)
    obtain ⟨n, found, bound⟩ := Text.le_afterLast? someText ends rest 0
    have counted : n ≤ cut := by
      apply covers
      apply List.mem_cons_of_mem
      exact List.mem_map.2 ⟨separator, listed, by rw [found]; rfl⟩
    omega
  rcases List.mem_cons.1 attained with rfl | isCut
  · exact ⟨[], t, rfl, Or.inl rfl, rfl, bounded⟩
  · obtain ⟨separator, listed, same⟩ := List.mem_map.1 isCut
    cases found : Text.afterLast? separator 0 t with
    | none =>
        rw [found] at same
        subst same
        exact ⟨[], t, rfl, Or.inl rfl, rfl, bounded⟩
    | some n =>
        rw [found, Option.getD_some] at same
        subst same
        obtain ⟨front, rest, split, ends, size⟩ := Text.afterLast?_spec found
        rw [Nat.zero_add] at size
        subst size
        exact ⟨front, rest, split, Or.inr ⟨separator, listed, ends⟩, rfl, bounded⟩

theorem lastSegment_isLastSegment (name : String) :
    IsLastSegment name.toList (lastSegment name).toList := by
  obtain ⟨front, rest, split, stands, size, bounded⟩ := exists_last_cut name.toList
  have segment : (lastSegment name).toList = rest := by
    simp only [lastSegment, String.toList_ofList]
    rw [← size, split, Text.rest_append]
  rw [segment]
  refine ⟨⟨front, split, stands⟩, ?_⟩
  intro front' rest' split' ends
  have short := bounded front' rest' split' ends
  rw [split] at split'
  rcases List.append_eq_append_iff.1 split' with ⟨between, rfl, rfl⟩ | ⟨between, _, rfl⟩
  · -- the other separator cannot end behind the last one
    rw [Text.size_append] at short
    have empty : between = [] := by
      apply Text.eq_nil_of_size_eq_zero
      omega
    rw [empty]
    exact List.suffix_refl rest'
  · exact List.suffix_append between rest

/-! ### Tables of names -/

/-- The last of several functions with a given name, where `nameOf` says which name counts. -/
def LastNamed (nameOf : Function → String) (functions : List Function) (name : String)
    (f : Function) : Prop :=
  ∃ before after, functions = before ++ f :: after ∧ nameOf f = name ∧
    ∀ g ∈ after, nameOf g ≠ name

/-- A function that is registered next is the last one of its name and changes no other name. -/
theorem lastNamed_concat {nameOf : Function → String} {functions : List Function} {name : String}
    {f g : Function} :
    LastNamed nameOf (functions ++ [f]) name g ↔
      nameOf f = name ∧ g = f ∨ nameOf f ≠ name ∧ LastNamed nameOf functions name g := by
  constructor
  · rintro ⟨before, after, split, named, noLater⟩
    rcases List.eq_nil_or_concat after with rfl | ⟨after, last, rfl⟩
    · obtain ⟨_, same⟩ := List.append_inj' split rfl
      obtain rfl : f = g := by simpa using same
      exact Or.inl ⟨named, rfl⟩
    · rw [List.concat_eq_append, ← List.cons_append, ← List.append_assoc] at split
      obtain ⟨rfl, same⟩ := List.append_inj' split rfl
      obtain rfl : f = last := by simpa using same
      refine Or.inr ⟨noLater f (by simp), before, after, rfl, named, ?_⟩
      intro h listed
      exact noLater h (by simp [listed])
  · rintro (⟨named, rfl⟩ | ⟨other, before, after, rfl, named, noLater⟩)
    · exact ⟨functions, [], rfl, named, by simp⟩
    · refine ⟨before, after ++ [f], by simp, named, ?_⟩
      intro h listed
      rcases List.mem_append.1 listed with later | last
      · exact noLater h later
      · rw [List.mem_singleton.1 last]
        exact other

namespace NameTable

variable {nameOf : Function → String} {functions : List Function} {name id : String}

/-- The table that functions are registered in holds the last one of each name. -/
theorem get?_eq_some_iff :
    get? (functions.reverse.map fun f => (nameOf f, f.id)) name = some id ↔
      ∃ f, LastNamed nameOf functions name f ∧ f.id = id := by
  induction functions using List.reverseRecOn with
  | nil => simp [get?, LastNamed]
  | append_singleton functions f ih =>
      simp only [lastNamed_concat]
      rw [List.reverse_append, List.reverse_singleton, List.singleton_append, List.map_cons, get?,
        List.lookup_cons]
      by_cases named : nameOf f = name
      · rw [beq_iff_eq.2 named.symm]
        simp [named]
      · rw [beq_eq_false_iff_ne.2 (Ne.symm named)]
        simpa [named, get?] using ih

theorem get?_eq_none_iff :
    get? (functions.reverse.map fun f => (nameOf f, f.id)) name = none ↔
      ∀ f ∈ functions, nameOf f ≠ name := by
  simp only [get?, List.lookup_eq_none_iff, List.mem_map, List.mem_reverse, forall_exists_index,
    and_imp, forall_apply_eq_imp_iff₂, bne_iff_ne, ne_comm]

end NameTable

/-! ### Callees -/

/-- What a callee stands for among functions that were registered in order. -/
inductive ResolvesTo (functions : List Function) (callee : String) : Resolution → Prop where
  /-- The last function with the callee as its qualified name. -/
  | qualified {f : Function} (last : LastNamed (·.qualifiedName) functions callee f) :
      ResolvesTo functions callee (.direct f.id)
  /-- If there is none, the last function with the last part of the callee as its name. -/
  | short {f : Function} (unqualified : ∀ g ∈ functions, g.qualifiedName ≠ callee)
      (last : LastNamed (·.name) functions (lastSegment callee) f) :
      ResolvesTo functions callee (.direct f.id)
  /-- If there is none either, nothing known. -/
  | unknown (unqualified : ∀ g ∈ functions, g.qualifiedName ≠ callee)
      (unnamed : ∀ g ∈ functions, g.name ≠ lastSegment callee) :
      ResolvesTo functions callee (.external callee)

namespace Resolver

variable {functions : List Function} {callee : String}

theorem resolve_resolvesTo : ResolvesTo functions callee ((ofFunctions functions).resolve callee) := by
  rw [ofFunctions_eq, resolve]
  split
  · next id found =>
      obtain ⟨f, last, rfl⟩ := NameTable.get?_eq_some_iff.1 found
      exact .qualified last
  · next missing =>
      have unqualified := NameTable.get?_eq_none_iff.1 missing
      split
      · next id found =>
          obtain ⟨f, last, rfl⟩ := NameTable.get?_eq_some_iff.1 found
          exact .short unqualified last
      · next missing => exact .unknown unqualified (NameTable.get?_eq_none_iff.1 missing)

/-- A callee is resolved to what it stands for and to nothing else. -/
theorem resolve_eq_iff {resolution : Resolution} :
    (ofFunctions functions).resolve callee = resolution ↔
      ResolvesTo functions callee resolution := by
  constructor
  · rintro rfl
    exact resolve_resolvesTo
  · intro resolves
    rw [ofFunctions_eq, resolve]
    cases resolves with
    | qualified last => rw [NameTable.get?_eq_some_iff.2 ⟨_, last, rfl⟩]
    | short unqualified last =>
        rw [NameTable.get?_eq_none_iff.2 unqualified, NameTable.get?_eq_some_iff.2 ⟨_, last, rfl⟩]
    | unknown unqualified unnamed =>
        rw [NameTable.get?_eq_none_iff.2 unqualified, NameTable.get?_eq_none_iff.2 unnamed]

/-- A call keeps its callee name, so it is resolved the same way again. -/
theorem applyTo_applyTo (r : Resolver) (call : Call) :
    r.applyTo (r.applyTo call) = r.applyTo call := rfl

theorem apply_apply (r : Resolver) (calls : List Call) : r.apply (r.apply calls) = r.apply calls := by
  rw [apply, apply, List.map_map]
  exact List.map_congr_left fun call _ => applyTo_applyTo r call

end Resolver

/-- A callee stands for the last function that was registered with it as qualified name, else for
the last one whose name is its last part, else for nothing known.  Resolving calls sets the callee
id and the type of each of them to that, keeps everything else, and changes nothing when it is done
again. -/
theorem calls_resolve_to_last_registered (functions : List Function) :
    (∀ callee, IsLastSegment callee.toList (lastSegment callee).toList ∧
      ∀ resolution, (Resolver.ofFunctions functions).resolve callee = resolution ↔
        ResolvesTo functions callee resolution) ∧
    ∀ calls : List Call,
      List.Forall₂ (fun call resolved => ∃ resolution,
          ResolvesTo functions call.calleeName resolution ∧
          resolved = { call with
            calleeId := some resolution.calleeId
            callType := some resolution.callType })
        calls ((Resolver.ofFunctions functions).apply calls) ∧
      (Resolver.ofFunctions functions).apply ((Resolver.ofFunctions functions).apply calls) =
        (Resolver.ofFunctions functions).apply calls := by
  refine ⟨?_, ?_⟩
  · intro callee
    exact ⟨lastSegment_isLastSegment callee, fun _ => Resolver.resolve_eq_iff⟩
  · intro calls
    refine ⟨?_, Resolver.apply_apply _ calls⟩
    rw [Resolver.apply, List.forall₂_map_right_iff, List.forall₂_same]
    intro call _
    exact ⟨_, Resolver.resolve_resolvesTo, rfl⟩

end CallAtlas
