import Mathlib.Data.List.Basic
import CallDoc.Type.Hint

/-!
Unions of hints. Hints that are no unions and differ from each other make the union of just
them, and a union of several such members stands for itself.
-/
namespace CallDoc

/-! ## Lists without repeats -/

section Repeats

variable {α : Type} [BEq α] [LawfulBEq α]

theorem nodup_eraseDups (l : List α) : l.eraseDups.Nodup := by
  induction hlen : l.length using Nat.strongRecOn generalizing l with
  | ind n ih =>
    cases l with
    | nil => exact List.nodup_nil
    | cons a l =>
      have hshorter : (l.filter fun b => !b == a).length < n := by
        have := List.length_filter_le (fun b => !b == a) l
        rw [List.length_cons] at hlen
        omega
      rw [List.eraseDups_cons]
      refine List.nodup_cons.2 ⟨fun hmem => ?_, ih _ hshorter _ rfl⟩
      have hne := (List.mem_filter.1 (List.mem_eraseDups.1 hmem)).2
      rw [beq_self_eq_true, Bool.not_true] at hne
      cases hne

theorem eraseDups_of_nodup {l : List α} (h : l.Nodup) : l.eraseDups = l := by
  induction l with
  | nil => rfl
  | cons first more ih =>
    obtain ⟨hfirst, hmore⟩ := List.nodup_cons.1 h
    have hfilter : (more.filter fun a => !a == first) = more :=
      List.filter_eq_self.2 fun a hmem => by simpa using ne_of_mem_of_not_mem hmem hfirst
    rw [List.eraseDups_cons, hfilter, ih hmore]

theorem eraseDups_filter (p : α → Bool) (l : List α) :
    (l.filter p).eraseDups = l.eraseDups.filter p := by
  induction hlen : l.length using Nat.strongRecOn generalizing l with
  | ind n ih =>
    cases l with
    | nil => rfl
    | cons a l =>
      have hshorter : (l.filter fun b => !b == a).length < n := by
        have := List.length_filter_le (fun b => !b == a) l
        rw [List.length_cons] at hlen
        omega
      rw [List.eraseDups_cons, List.filter_cons, List.filter_cons, ← ih _ hshorter _ rfl,
        List.filter_filter]
      split
      · rw [List.eraseDups_cons, List.filter_filter]
        simp only [Bool.and_comm]
      · rename_i ha
        have hl : (l.filter fun b => p b && !b == a) = l.filter p :=
          List.filter_congr fun b _ => by
            cases hb : p b with
            | false => rfl
            | true => simpa using fun heq : b = a => ha (heq ▸ hb)
        rw [hl]

/-- Repeats can be dropped from the parts of a list first. -/
theorem eraseDups_append_eraseDups (as bs : List α) :
    (as.eraseDups ++ bs.eraseDups).eraseDups = (as ++ bs).eraseDups := by
  have hremove : bs.eraseDups.removeAll as.eraseDups = (bs.removeAll as).eraseDups := by
    rw [List.removeAll, List.removeAll, eraseDups_filter]
    refine List.filter_congr fun b _ => ?_
    rw [Bool.eq_iff_iff]
    simp
  rw [List.eraseDups_append, List.eraseDups_append, eraseDups_of_nodup (nodup_eraseDups as),
    hremove, eraseDups_of_nodup (nodup_eraseDups _)]

end Repeats

/-! ## Unions -/

namespace Hint

theorem distinct_of_nodup {hints : List Hint} (h : hints.Nodup) : Hint.distinct hints = hints := by
  rw [distinct_eq_eraseDups, eraseDups_of_nodup h]

theorem arms_eq_self {h : Hint} (hflat : ∀ arms, h ≠ .union arms) : h.arms = [h] := by
  cases h with
  | union arms => exact absurd rfl (hflat arms)
  | _ => rfl

theorem mem_arms_unionOf {hints : List Hint} {arm : Hint} (hflat : ∀ arms, arm ≠ .union arms)
    (h : arm ∈ hints.flatMap arms) : arm ∈ (unionOf hints).arms := by
  rw [← List.mem_eraseDups, ← distinct_eq_eraseDups] at h
  rw [unionOf]
  split
  · rename_i single hsingle
    rw [hsingle] at h
    obtain rfl := List.mem_singleton.1 h
    rw [arms_eq_self hflat]
    exact h
  · exact h

variable {members : List Hint} (hseveral : 2 ≤ members.length) (hdistinct : members.Nodup)
include hseveral hdistinct

/-- The members of a union that is as flat as unions get make that union. -/
theorem unionOf_members (hflat : ∀ member ∈ members, ∀ arms, member ≠ .union arms) :
    unionOf members = .union members := by
  have harms : members.flatMap arms = members := by
    rw [List.flatMap_congr fun member hmem => arms_eq_self (hflat member hmem)]
    simp
  rw [unionOf, harms, distinct_of_nodup hdistinct]
  split
  · simp at hseveral
  · rfl

theorem unionOf_union : unionOf [.union members] = .union members := by
  rw [unionOf, List.flatMap_singleton, arms, distinct_of_nodup hdistinct]
  split
  · simp at hseveral
  · rfl

end Hint
end CallDoc
