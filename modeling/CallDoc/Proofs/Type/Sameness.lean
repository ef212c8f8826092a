import Mathlib.Data.List.Perm.Subperm
import CallDoc.Proofs.Type.Order

/-!
When two types are the same. Unions are compared by the number of their members and by one
inclusion, which makes the members of one a permutation of those of the other as long as the
first repeats none. Reduction drops repeats, so among the types of hints sameness is an
equivalence, and it does not matter which of two hints is the documented one.
-/
namespace CallDoc

namespace Descriptor

variable {a b c : Descriptor} {members others : List Descriptor}

/-- As many members, all of them among the others, are the others in some order. -/
theorem sameAs_union_iff (h : members.Nodup) :
    sameAs (.union members) (.union others) = true ↔ members.Perm others := by
  refine ⟨fun hsame => ?_, sameAs_union_of_perm⟩
  simp only [sameAs, Bool.and_eq_true, beq_iff_eq, List.all_eq_true,
    List.contains_iff_mem] at hsame
  obtain ⟨hlength, hmembers⟩ := hsame
  exact (h.subperm hmembers).perm_of_length_le (Nat.le_of_eq hlength.symm)

theorem exists_union_of_sameAs (h : sameAs (.union members) b = true) :
    ∃ others, b = .union others := by
  cases b with
  | union others => exact ⟨others, rfl⟩
  | _ => cases h

theorem Canonical.nodup (h : Canonical (.union members)) : members.Nodup := by
  cases h with
  | union _ whole => exact whole.nodup

/-- A canonical type is the same as another one when they are equal, or are unions whose members
are the same up to order. -/
theorem Canonical.sameAs_iff (h : a.Canonical) :
    a.sameAs b = true ↔
      a = b ∨ ∃ members others, a = .union members ∧ b = .union others ∧ members.Perm others := by
  constructor
  · intro hsame
    cases hunion : a.isUnion with
    | false => exact .inl ((sameAs_iff_eq hunion).1 hsame)
    | true =>
      cases a with
      | union members =>
        obtain ⟨others, rfl⟩ := exists_union_of_sameAs hsame
        exact .inr ⟨members, others, rfl, rfl, (sameAs_union_iff h.nodup).1 hsame⟩
      | _ => cases hunion
  · rintro (rfl | ⟨members, others, rfl, rfl, hperm⟩)
    · exact sameAs_refl a
    · exact sameAs_union_of_perm hperm

theorem Canonical.sameAs_symm (ha : a.Canonical) (h : a.sameAs b = true) : b.sameAs a = true := by
  obtain rfl | ⟨members, others, rfl, rfl, hperm⟩ := ha.sameAs_iff.1 h
  · exact h
  · exact sameAs_union_of_perm hperm.symm

theorem Canonical.sameAs_trans (ha : a.Canonical) (hb : b.Canonical) (hab : a.sameAs b = true)
    (hbc : b.sameAs c = true) : a.sameAs c = true := by
  obtain rfl | ⟨members, others, rfl, rfl, hperm⟩ := ha.sameAs_iff.1 hab
  · exact hbc
  · obtain rfl | ⟨_, further, hothers, rfl, hperm'⟩ := hb.sameAs_iff.1 hbc
    · exact hab
    · obtain rfl := union.inj hothers
      exact sameAs_union_of_perm (hperm.trans hperm')

/-- Some hint has the type, whatever its names stand for. -/
def IsReduced (d : Descriptor) : Prop := ∃ (ns : Namespace) (hint : Hint), ns.reduce hint = .ok d

theorem IsReduced.canonical {d : Descriptor} (h : d.IsReduced) : d.Canonical := by
  obtain ⟨ns, hint, hreduce⟩ := h
  exact Hint.canonical_reduceWith Namespace.canonical_reduceName hint d hreduce

end Descriptor

namespace Namespace

open Descriptor (IsReduced)

/-- To be the same is an equivalence of the types that hints have. So of two hints each may be
the documented or the declared one: either way they are in conflict, or both ways they agree
on the declared type. -/
theorem sameAs_equivalence :
    (Equivalence fun a b : {d : Descriptor // d.IsReduced} => a.val.sameAs b.val = true) ∧
      ∀ (ns : Namespace) (param token token' : Text) (hint hint' : Hint) (d d' : Descriptor),
        ns.reduceSpelling token = .ok d → ns.reduce hint = .ok d →
        ns.reduceSpelling token' = .ok d' → ns.reduce hint' = .ok d' →
        (ns.resolve param (some token) (some hint') = .error (.typeConflict param token hint') ∧
          ns.resolve param (some token') (some hint) = .error (.typeConflict param token' hint)) ∨
        (ns.resolve param (some token) (some hint') = .ok d' ∧
          ns.resolve param (some token') (some hint) = .ok d) := by
  refine ⟨⟨fun a => Descriptor.sameAs_refl a.val, fun {a b} h => a.2.canonical.sameAs_symm h,
    fun {a b c} hab hbc => a.2.canonical.sameAs_trans b.2.canonical hab hbc⟩, ?_⟩
  intro ns param token token' hint hint' d d' htoken hhint htoken' hhint'
  have hd : d.IsReduced := ⟨ns, hint, hhint⟩
  have hd' : d'.IsReduced := ⟨ns, hint', hhint'⟩
  rw [resolve_both htoken hhint', resolve_both htoken' hhint]
  by_cases hsame : d.sameAs d' = true
  · rw [if_pos hsame, if_pos (hd.canonical.sameAs_symm hsame)]
    exact .inr ⟨rfl, rfl⟩
  · rw [if_neg hsame, if_neg fun h => hsame (hd'.canonical.sameAs_symm h)]
    exact .inl ⟨rfl, rfl⟩

/-- A type that is missing from one of two unions is a conflict both ways round. -/
theorem sameAs_equivalence_missing :
    let ns := Registry.standard.namespaceOf
    let three := Hint.union [.named "int".toList, .named "str".toList, .named "Path".toList]
    let two := Hint.union [.named "str".toList, .named "int".toList]
    (ns.reduceSpelling "int or str or pathlib.Path".toList =
        .ok (.union [.scalar "int".toList, .scalar "str".toList, .scalar "Path".toList]) ∧
      ns.reduceSpelling "str or int".toList =
        .ok (.union [.scalar "str".toList, .scalar "int".toList])) ∧
    ns.resolve "x".toList (some "int or str or pathlib.Path".toList) (some two) =
        .error (.typeConflict "x".toList "int or str or pathlib.Path".toList two) ∧
      ns.resolve "x".toList (some "str or int".toList) (some three) =
        .error (.typeConflict "x".toList "str or int".toList three) := by
  intro ns three two
  have hthree : ns.reduceSpelling "int or str or pathlib.Path".toList =
      .ok (.union [.scalar "int".toList, .scalar "str".toList, .scalar "Path".toList]) := by
    decide +kernel
  have htwo : ns.reduceSpelling "str or int".toList =
      .ok (.union [.scalar "str".toList, .scalar "int".toList]) := by decide +kernel
  refine ⟨⟨hthree, htwo⟩, ?_⟩
  refine (sameAs_equivalence.2 ns "x".toList _ _ three two _ _ hthree rfl htwo rfl).resolve_right ?_
  rintro ⟨hagree, -⟩
  rw [resolve_both hthree rfl] at hagree
  cases hagree

end Namespace
end CallDoc
