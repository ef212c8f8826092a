import Mathlib.Data.List.Perm.Basic
import CallDoc.Proofs.Type.Canonical
import CallDoc.Proofs.Type.Grammar

/-!
The order of the members of a union. A documented type and a declared one may list the
members of their unions in different orders, at any depth. Where both have a type, the types
differ by the order of the members of unions at most: of the union that the type is, or of
those that its elements are. Two types are compared as unions at the top alone, so it is an
element which is a union that makes another order a conflict.
-/
namespace CallDoc

open Spelling

namespace Hint

/-! ## Unions in spellings -/

/-- No member of a union is a union itself. -/
inductive Flat : Hint → Prop
  | named (name : Text) : Flat (.named name)
  | none : Flat .none
  | list {elem : Hint} (inner : Flat elem) : Flat (.list elem)
  | tuple {elems : List Hint} (inner : ∀ elem ∈ elems, Flat elem) : Flat (.tuple elems)
  | varTuple {elem : Hint} (inner : Flat elem) : Flat (.varTuple elem)
  | union {members : List Hint} (inner : ∀ member ∈ members, Flat member)
      (apart : ∀ member ∈ members, ∀ arms, member ≠ .union arms) : Flat (.union members)
  | literal (values : List Literal) : Flat (.literal values)

theorem Grammatical.flat {h : Hint} (hgrammatical : h.Grammatical) : h.Flat := by
  induction hgrammatical with
  | named name => exact .named name
  | none => exact .none
  | list _ ih => exact .list ih
  | tuple _ _ ih => exact .tuple ih
  | varTuple _ ih => exact .varTuple ih
  | union _ _ apart ih => exact .union ih apart
  | literal => exact .literal _

end Hint

/-- What a spelling denotes is flat: a union in it takes the members of unions among its own. -/
theorem Spelling.flat_of_ofSpelling {spelling : Text} {hint : Hint}
    (h : Hint.ofSpelling spelling = .ok hint) : hint.Flat :=
  (Hint.grammatical_of_ofSpelling h).flat

/-! ## Types up to order -/

namespace Descriptor

def isUnion : Descriptor → Bool
  | .union _ => true
  | _ => false

/-- The types of the values that a value of the type is made of by position. -/
def elements : Descriptor → List Descriptor
  | .container elem | .variadicTuple elem => [elem]
  | .fixedTuple elems => elems
  | _ => []

/-- The types are the same one, or take elements that are the same up to order. -/
inductive SameUpToOrder : Descriptor → Descriptor → Prop
  | whole {a b : Descriptor} (same : a.sameAs b = true) : SameUpToOrder a b
  | container {a b : Descriptor} (same : a.sameAs b = true) :
    SameUpToOrder (.container a) (.container b)
  | variadicTuple {a b : Descriptor} (same : a.sameAs b = true) :
    SameUpToOrder (.variadicTuple a) (.variadicTuple b)
  | fixedTuple {as bs : List Descriptor}
      (same : List.Forall₂ (fun a b : Descriptor => a.sameAs b = true) as bs) :
    SameUpToOrder (.fixedTuple as) (.fixedTuple bs)

variable {a b : Descriptor}

theorem sameAs_refl (a : Descriptor) : a.sameAs a = true := by
  cases a <;> simp [sameAs]

theorem sameAs_iff_eq (h : a.isUnion = false) : a.sameAs b = true ↔ a = b := by
  cases a with
  | union members => cases h
  | _ => exact beq_iff_eq

theorem sameAs_union_of_perm {members members' : List Descriptor} (h : members.Perm members') :
    sameAs (.union members) (.union members') = true := by
  simp only [sameAs, Bool.and_eq_true, beq_iff_eq, List.all_eq_true, List.contains_iff_mem]
  exact ⟨h.length_eq, fun member hmem => h.subset hmem⟩

theorem SameUpToOrder.refl (a : Descriptor) : SameUpToOrder a a := .whole (sameAs_refl a)

theorem eq_of_forall₂_sameAs {as bs : List Descriptor}
    (h : List.Forall₂ (fun a b : Descriptor => a.sameAs b = true) as bs)
    (has : ∀ a ∈ as, a.isUnion = false) : as = bs := by
  induction h with
  | nil => rfl
  | cons same _ ih =>
    obtain ⟨hfirst, hmore⟩ := List.forall_mem_cons.1 has
    rw [(sameAs_iff_eq hfirst).1 same, ih hmore]

theorem isContainer_eq_of_sameAs (h : a.sameAs b = true) : a.isContainer = b.isContainer := by
  cases hunion : a.isUnion with
  | false => rw [(sameAs_iff_eq hunion).1 h]
  | true =>
    cases a <;> cases hunion
    cases b <;> first | rfl | cases h

theorem SameUpToOrder.isContainer_eq (h : SameUpToOrder a b) : a.isContainer = b.isContainer := by
  cases h with
  | whole same => exact isContainer_eq_of_sameAs same
  | _ => rfl

/-- Below the top a type is compared as a whole. -/
theorem SameUpToOrder.sameAs (h : SameUpToOrder a b) (hflat : a.isContainer = false) :
    a.sameAs b = true := by
  cases h with
  | whole same => exact same
  | _ => cases hflat

theorem SameUpToOrder.eq (h : SameUpToOrder a b) (hflat : a.isContainer = false)
    (hunion : a.isUnion = false) : a = b :=
  (sameAs_iff_eq hunion).1 (h.sameAs hflat)

/-- Types without unions among their elements are the same when they are so up to order. -/
theorem SameUpToOrder.sameAs_of_elements (h : SameUpToOrder a b)
    (helements : ∀ elem ∈ a.elements, elem.isUnion = false) : a.sameAs b = true := by
  cases h with
  | whole same => exact same
  | container same =>
    rw [(sameAs_iff_eq (helements _ List.mem_cons_self)).1 same]
    exact sameAs_refl _
  | variadicTuple same =>
    rw [(sameAs_iff_eq (helements _ List.mem_cons_self)).1 same]
    exact sameAs_refl _
  | fixedTuple same =>
    rw [eq_of_forall₂_sameAs same helements]
    exact sameAs_refl _

end Descriptor

/-! ## Hints up to order -/

namespace Hint

/-- The members of some of the unions in a hint stand in another order. -/
inductive Reordered : Hint → Hint → Prop
  | refl (h : Hint) : Reordered h h
  | list {a b : Hint} (inner : Reordered a b) : Reordered (.list a) (.list b)
  | tuple {as bs : List Hint} (inner : List.Forall₂ Reordered as bs) :
    Reordered (.tuple as) (.tuple bs)
  | varTuple {a b : Hint} (inner : Reordered a b) : Reordered (.varTuple a) (.varTuple b)
  | union {as bs cs : List Hint} (inner : List.Forall₂ Reordered as bs) (order : bs.Perm cs) :
    Reordered (.union as) (.union cs)

open Descriptor (SameUpToOrder)

theorem sameAs_asElement {outer outer' : Hint} {type type' elem elem' : Descriptor}
    (hsame : SameUpToOrder type type') (h : asElement outer type = .ok elem)
    (h' : asElement outer' type' = .ok elem') : elem.sameAs elem' = true := by
  obtain ⟨rfl, hplain⟩ := asElement_eq_ok h
  obtain ⟨rfl, -⟩ := asElement_eq_ok h'
  exact hsame.sameAs hplain

/-- A container among the arms of a union is what the union reduces to. -/
theorem joinArms_eq_of_container {whole : Hint} {arms : List Descriptor} {arm d : Descriptor}
    (hmem : arm ∈ arms) (hcontainer : arm.isContainer = true) (h : joinArms whole arms = .ok d) :
    d = arm := by
  have hdistinct : arm ∈ arms.eraseDups := List.mem_eraseDups.2 hmem
  have hnotNone : arm.isNone = false := by
    cases arm <;> first | rfl | cases hcontainer
  unfold joinArms at h
  dsimp only at h
  split at h
  · rename_i single hsingle
    obtain rfl := Except.ok.inj h
    have harm : arm ∈ [single] := hsingle ▸ List.mem_filter.2 ⟨hdistinct, by rw [hnotNone]; rfl⟩
    exact (List.mem_singleton.1 harm).symm
  · rw [if_pos (List.any_eq_true.2 ⟨arm, hdistinct, hcontainer⟩)] at h
    cases h

theorem eraseDups_perm {as bs : List Descriptor} (h : as.Perm bs) :
    as.eraseDups.Perm bs.eraseDups :=
  (List.perm_ext_iff_of_nodup (nodup_eraseDups as) (nodup_eraseDups bs)).2 fun d => by
    rw [List.mem_eraseDups, List.mem_eraseDups, h.mem_iff]

/-- A union is the one type that it leaves besides the absent value, or one type alone, or the
members that are left, in which case no container is among them. -/
theorem joinArms_cases {whole : Hint} {arms : List Descriptor} {d : Descriptor}
    (h : joinArms whole arms = .ok d) :
    (arms.eraseDups.filter fun arm => !arm.isNone) = [d] ∨
      (arms.eraseDups.filter fun arm => !arm.isNone).length ≠ 1 ∧
        (arms.eraseDups = [d] ∨ arms.eraseDups.length ≠ 1 ∧ d = .union arms.eraseDups) := by
  unfold joinArms at h
  dsimp only at h
  split at h
  · rename_i single hsingle
    obtain rfl := Except.ok.inj h
    exact .inl hsingle
  · rename_i hnone
    split at h
    · cases h
    · refine .inr ⟨fun hlength => ?_, ?_⟩
      · obtain ⟨single, hsingle⟩ := List.length_eq_one_iff.1 hlength
        exact hnone single hsingle
      · split at h
        · rename_i single hsingle
          obtain rfl := Except.ok.inj h
          exact .inl hsingle
        · rename_i hmany
          obtain rfl := Except.ok.inj h
          refine .inr ⟨fun hlength => ?_, rfl⟩
          obtain ⟨single, hsingle⟩ := List.length_eq_one_iff.1 hlength
          exact hmany single hsingle

/-- The order of the arms shows in the order of the members alone. -/
theorem sameAs_joinArms {whole whole' : Hint} {arms arms' : List Descriptor} {d d' : Descriptor}
    (harms : arms.Perm arms') (h : joinArms whole arms = .ok d)
    (h' : joinArms whole' arms' = .ok d') : d.sameAs d' = true := by
  have hdistinct := eraseDups_perm harms
  have hfilter := hdistinct.filter fun arm => !arm.isNone
  obtain hsingle | ⟨hseveral, hrest⟩ := joinArms_cases h
  · obtain hsingle' | ⟨hseveral', -⟩ := joinArms_cases h'
    · rw [hsingle, hsingle', List.singleton_perm_singleton] at hfilter
      exact hfilter ▸ Descriptor.sameAs_refl d
    · exact absurd (hfilter.length_eq.symm.trans (by rw [hsingle]; rfl)) hseveral'
  · obtain hsingle' | ⟨-, hrest'⟩ := joinArms_cases h'
    · exact absurd (hfilter.length_eq.trans (by rw [hsingle']; rfl)) hseveral
    · rcases hrest with hsole | ⟨hmany, rfl⟩ <;> rcases hrest' with hsole' | ⟨hmany', rfl⟩
      · rw [hsole, hsole', List.singleton_perm_singleton] at hdistinct
        exact hdistinct ▸ Descriptor.sameAs_refl d
      · exact absurd (hdistinct.length_eq.symm.trans (by rw [hsole]; rfl)) hmany'
      · exact absurd (hdistinct.length_eq.trans (by rw [hsole']; rfl)) hmany
      · exact Descriptor.sameAs_union_of_perm hdistinct

/-- Arms that are the same up to order, one by one and then as a whole, make types that are. -/
theorem sameUpToOrder_joinArms {whole whole' : Hint} {as bs cs : List Descriptor}
    {d d' : Descriptor} (hplain : ∀ a ∈ as, a.isUnion = false)
    (hsame : List.Forall₂ SameUpToOrder as bs) (horder : bs.Perm cs)
    (h : joinArms whole as = .ok d) (h' : joinArms whole' cs = .ok d') : SameUpToOrder d d' := by
  by_cases hcontainer : ∃ a ∈ as, a.isContainer = true
  · obtain ⟨a, ha, hcontainer⟩ := hcontainer
    obtain ⟨b, hb, hab⟩ := exists_of_mem_forall₂ hsame.flip ha
    obtain rfl := joinArms_eq_of_container ha hcontainer h
    have hcontainer' := hab.isContainer_eq.symm.trans hcontainer
    obtain rfl := joinArms_eq_of_container (horder.subset hb) hcontainer' h'
    exact hab
  · have heq : as = bs := by
      clear h h' horder
      induction hsame with
      | nil => rfl
      | @cons a b as bs hab _ ih =>
        have hflat : a.isContainer = false := Bool.eq_false_iff.2 fun hc =>
          hcontainer ⟨a, List.mem_cons_self, hc⟩
        rw [hab.eq hflat (hplain a List.mem_cons_self), ih (fun a ha => hplain a (.tail _ ha))
          fun ⟨a, ha, hc⟩ => hcontainer ⟨a, .tail _ ha, hc⟩]
    exact .whole (sameAs_joinArms (heq ▸ horder) h h')

section Reduce

variable {lookup : Text → Except Error Descriptor}

theorem isUnion_reduceWith (hlookup : ∀ name d, lookup name = .ok d → d.isUnion = false)
    {hint : Hint} (hint_apart : ∀ arms, hint ≠ .union arms) {d : Descriptor}
    (h : hint.reduceWith lookup = .ok d) : d.isUnion = false := by
  cases hint with
  | named name => exact hlookup name d h
  | union arms => exact absurd rfl (hint_apart arms)
  | none =>
    obtain rfl := Except.ok.inj h
    rfl
  | literal values =>
    obtain rfl := Except.ok.inj h
    rfl
  | list elem =>
    obtain ⟨type, -, h⟩ := bind_eq_ok_iff.1 h
    obtain ⟨inner, -, h⟩ := bind_eq_ok_iff.1 h
    obtain rfl := Except.ok.inj h
    rfl
  | tuple elems =>
    obtain ⟨types, -, h⟩ := bind_eq_ok_iff.1 h
    obtain rfl := Except.ok.inj h
    rfl
  | varTuple elem =>
    obtain ⟨type, -, h⟩ := bind_eq_ok_iff.1 h
    obtain ⟨inner, -, h⟩ := bind_eq_ok_iff.1 h
    obtain rfl := Except.ok.inj h
    rfl

mutual

/-- Hints that are the same up to order have types that are, where names do not stand for
unions. -/
theorem sameUpToOrder_reduceWith
    (hlookup : ∀ name d, lookup name = .ok d → d.isUnion = false) :
    ∀ (hint hint' : Hint) (d d' : Descriptor), hint.Flat → Reordered hint hint' →
      hint.reduceWith lookup = .ok d → hint'.reduceWith lookup = .ok d' → SameUpToOrder d d'
  | hint, _, d, d', _, .refl _, h, h' =>
    Except.ok.inj (h.symm.trans h') ▸ SameUpToOrder.refl d
  | .list a, .list b, d, d', .list hflat, .list hab, h, h' => by
    obtain ⟨type, htype, h⟩ := bind_eq_ok_iff.1 h
    obtain ⟨inner, hinner, h⟩ := bind_eq_ok_iff.1 h
    obtain ⟨type', htype', h'⟩ := bind_eq_ok_iff.1 h'
    obtain ⟨inner', hinner', h'⟩ := bind_eq_ok_iff.1 h'
    obtain rfl := Except.ok.inj h
    obtain rfl := Except.ok.inj h'
    have hsame := sameUpToOrder_reduceWith hlookup a b type type' hflat hab htype htype'
    exact .container (sameAs_asElement hsame hinner hinner')
  | .varTuple a, .varTuple b, d, d', .varTuple hflat, .varTuple hab, h, h' => by
    obtain ⟨type, htype, h⟩ := bind_eq_ok_iff.1 h
    obtain ⟨inner, hinner, h⟩ := bind_eq_ok_iff.1 h
    obtain ⟨type', htype', h'⟩ := bind_eq_ok_iff.1 h'
    obtain ⟨inner', hinner', h'⟩ := bind_eq_ok_iff.1 h'
    obtain rfl := Except.ok.inj h
    obtain rfl := Except.ok.inj h'
    have hsame := sameUpToOrder_reduceWith hlookup a b type type' hflat hab htype htype'
    exact .variadicTuple (sameAs_asElement hsame hinner hinner')
  | .tuple as, .tuple bs, d, d', .tuple hflat, .tuple hsame, h, h' => by
    obtain ⟨types, htypes, h⟩ := bind_eq_ok_iff.1 h
    obtain ⟨types', htypes', h'⟩ := bind_eq_ok_iff.1 h'
    obtain rfl := Except.ok.inj h
    obtain rfl := Except.ok.inj h'
    exact .fixedTuple
      (sameAs_reduceElements hlookup as bs _ _ types types' hflat hsame htypes htypes')
  | .union as, .union cs, d, d', .union hflat hapart, @Reordered.union _ bs _ hsame horder,
    h, h' => by
    obtain ⟨types, htypes, h⟩ := bind_eq_ok_iff.1 h
    obtain ⟨types', htypes', h'⟩ := bind_eq_ok_iff.1 h'
    rw [reduceAll_eq] at htypes htypes'
    obtain ⟨reordered, hreordered, hperm⟩ :=
      List.perm_comp_forall₂ horder (mapM_eq_ok_iff.1 htypes')
    have hplain : ∀ type ∈ types, type.isUnion = false := fun type hmem => by
      obtain ⟨arm, harm, htype⟩ := exists_of_mem_forall₂ (mapM_eq_ok_iff.1 htypes) hmem
      exact isUnion_reduceWith hlookup (hapart arm harm) htype
    refine sameUpToOrder_joinArms hplain ?_ hperm h h'
    rw [← reduceAll_eq] at htypes
    exact sameUpToOrder_reduceAll hlookup as bs types reordered hflat hsame htypes
      ((reduceAll_eq lookup bs).trans (mapM_eq_ok_iff.2 hreordered))

theorem sameAs_reduceElements (hlookup : ∀ name d, lookup name = .ok d → d.isUnion = false) :
    ∀ (as bs : List Hint) (outer outer' : Hint) (types types' : List Descriptor),
      (∀ a ∈ as, a.Flat) → List.Forall₂ Reordered as bs →
      reduceElements lookup outer as = .ok types → reduceElements lookup outer' bs = .ok types' →
      List.Forall₂ (fun type type' : Descriptor => type.sameAs type' = true) types types'
  | [], _, outer, outer', types, types', _, .nil, h, h' => by
    obtain rfl := Except.ok.inj h
    obtain rfl := Except.ok.inj h'
    exact .nil
  | a :: as, b :: bs, outer, outer', types, types', hflat, .cons hab hmore, h, h' => by
    obtain ⟨type, htype, h⟩ := bind_eq_ok_iff.1 h
    obtain ⟨inner, hinner, h⟩ := bind_eq_ok_iff.1 h
    obtain ⟨rest, hrest, h⟩ := bind_eq_ok_iff.1 h
    obtain ⟨type', htype', h'⟩ := bind_eq_ok_iff.1 h'
    obtain ⟨inner', hinner', h'⟩ := bind_eq_ok_iff.1 h'
    obtain ⟨rest', hrest', h'⟩ := bind_eq_ok_iff.1 h'
    obtain rfl := Except.ok.inj h
    obtain rfl := Except.ok.inj h'
    obtain ⟨hfirst, hflat⟩ := List.forall_mem_cons.1 hflat
    have hsame := sameUpToOrder_reduceWith hlookup a b type type' hfirst hab htype htype'
    exact .cons (sameAs_asElement hsame hinner hinner')
      (sameAs_reduceElements hlookup as bs outer outer' rest rest' hflat hmore hrest hrest')

theorem sameUpToOrder_reduceAll (hlookup : ∀ name d, lookup name = .ok d → d.isUnion = false) :
    ∀ (as bs : List Hint) (types types' : List Descriptor),
      (∀ a ∈ as, a.Flat) → List.Forall₂ Reordered as bs →
      reduceAll lookup as = .ok types → reduceAll lookup bs = .ok types' →
      List.Forall₂ SameUpToOrder types types'
  | [], _, types, types', _, .nil, h, h' => by
    obtain rfl := Except.ok.inj h
    obtain rfl := Except.ok.inj h'
    exact .nil
  | a :: as, b :: bs, types, types', hflat, .cons hab hmore, h, h' => by
    obtain ⟨type, htype, h⟩ := bind_eq_ok_iff.1 h
    obtain ⟨rest, hrest, h⟩ := bind_eq_ok_iff.1 h
    obtain ⟨type', htype', h'⟩ := bind_eq_ok_iff.1 h'
    obtain ⟨rest', hrest', h'⟩ := bind_eq_ok_iff.1 h'
    obtain rfl := Except.ok.inj h
    obtain rfl := Except.ok.inj h'
    obtain ⟨hfirst, hflat⟩ := List.forall_mem_cons.1 hflat
    exact .cons (sameUpToOrder_reduceWith hlookup a b type type' hfirst hab htype htype')
      (sameUpToOrder_reduceAll hlookup as bs rest rest' hflat hmore hrest hrest')

end

end Reduce

end Hint

namespace Namespace

theorem isUnion_reduceName {find? : Text → Option TypeDef} {depth : Nat} {name : Text}
    {d : Descriptor} (h : reduceName find? depth name = .ok d) : d.isUnion = false := by
  cases depth with
  | zero => cases h
  | succ depth =>
    simp only [reduceName] at h
    split at h
    · cases h
    · cases h
    · obtain rfl := Except.ok.inj h
      rfl
    · obtain rfl := Except.ok.inj h
      rfl
    · obtain ⟨types, -, h⟩ := bind_eq_ok_iff.1 h
      obtain rfl := Except.ok.inj h
      rfl
    · obtain rfl := Except.ok.inj h
      rfl

theorem resolve_both {ns : Namespace} {param token : Text} {hint : Hint} {d d' : Descriptor}
    (hdocumented : ns.reduceSpelling token = .ok d) (hdeclared : ns.reduce hint = .ok d') :
    ns.resolve param (some token) (some hint) =
      if d.sameAs d' then .ok d' else .error (.typeConflict param token hint) := by
  simp only [resolve, hdocumented, hdeclared]
  rfl

/-- A documented type and a declared one that differ by the order of the members of unions, at
any depth, agree exactly when they are unions or in the same order; and they always agree where
no element of the type is a union. -/
theorem resolve_reordered {ns : Namespace} {param token : Text} {hint hint' : Hint}
    {d d' : Descriptor} (htoken : Hint.ofSpelling token = .ok hint)
    (horder : hint.Reordered hint') (hdocumented : ns.reduce hint = .ok d)
    (hdeclared : ns.reduce hint' = .ok d') :
    (ns.resolve param (some token) (some hint') = .ok d' ↔ d.isUnion = true ∨ d = d') ∧
      ((∀ elem ∈ d.elements, elem.isUnion = false) →
        ns.resolve param (some token) (some hint') = .ok d') := by
  have hsame : Descriptor.SameUpToOrder d d' :=
    Hint.sameUpToOrder_reduceWith (fun name d => isUnion_reduceName) hint hint' d d'
      (flat_of_ofSpelling htoken) horder hdocumented hdeclared
  have hresolve : ns.resolve param (some token) (some hint') = .ok d' ↔ d.sameAs d' = true := by
    have hspelling : ns.reduceSpelling token = .ok d := by
      rw [reduceSpelling, htoken]
      exact hdocumented
    rw [resolve_both hspelling hdeclared]
    split
    · simp [*]
    · simp [*]
  refine ⟨hresolve.trans ⟨fun h => ?_, ?_⟩, fun helements => ?_⟩
  · cases hunion : d.isUnion with
    | true => exact .inl rfl
    | false => exact .inr ((Descriptor.sameAs_iff_eq hunion).1 h)
  · rintro (hunion | rfl)
    · refine hsame.sameAs ?_
      cases d <;> first | rfl | cases hunion
    · exact Descriptor.sameAs_refl d
  · exact hresolve.2 (hsame.sameAs_of_elements helements)

theorem resolve_reordered_optional :
    Hint.ofSpelling "int or str or None".toList =
        .ok (.union [.named "int".toList, .named "str".toList, .none]) ∧
      Registry.standard.namespaceOf.resolve "x".toList (some "int or str or None".toList)
          (some (.union [.none, .named "str".toList, .named "int".toList])) =
        .ok (.union [.none, .scalar "str".toList, .scalar "int".toList]) := by
  have htoken : Hint.ofSpelling "int or str or None".toList =
      .ok (.union [.named "int".toList, .named "str".toList, .none]) := by decide +kernel
  have horder : [Hint.named "int".toList, .named "str".toList, .none].Perm
      [.none, .named "str".toList, .named "int".toList] := by decide
  have hall (hints : List Hint) : List.Forall₂ Hint.Reordered hints hints :=
    List.forall₂_same.2 fun hint _ => .refl hint
  exact ⟨htoken, (resolve_reordered htoken (.union (hall _) horder) rfl rfl).2 nofun⟩

/-- Two lists of the same two types of elements are in conflict, because a list is no union. -/
theorem resolve_reordered_conflict :
    Hint.ofSpelling "list[Union[int, str]]".toList =
        .ok (.list (.union [.named "int".toList, .named "str".toList])) ∧
      (Hint.list (.union [.named "int".toList, .named "str".toList])).Reordered
        (.list (.union [.named "str".toList, .named "int".toList])) ∧
      Registry.standard.namespaceOf.reduce
          (.list (.union [.named "int".toList, .named "str".toList])) =
        .ok (.container (.union [.scalar "int".toList, .scalar "str".toList])) ∧
      Registry.standard.namespaceOf.reduce
          (.list (.union [.named "str".toList, .named "int".toList])) =
        .ok (.container (.union [.scalar "str".toList, .scalar "int".toList])) ∧
      Registry.standard.namespaceOf.resolve "x".toList (some "list[Union[int, str]]".toList)
          (some (.list (.union [.named "str".toList, .named "int".toList]))) =
        .error (.typeConflict "x".toList "list[Union[int, str]]".toList
          (.list (.union [.named "str".toList, .named "int".toList]))) := by
  have htoken : Hint.ofSpelling "list[Union[int, str]]".toList =
      .ok (.list (.union [.named "int".toList, .named "str".toList])) := by decide +kernel
  have hall (hints : List Hint) : List.Forall₂ Hint.Reordered hints hints :=
    List.forall₂_same.2 fun hint _ => .refl hint
  refine ⟨htoken, .list (.union (hall _) (by decide)), rfl, rfl, ?_⟩
  rw [resolve, reduceSpelling, htoken]
  rfl

end Namespace
end CallDoc
