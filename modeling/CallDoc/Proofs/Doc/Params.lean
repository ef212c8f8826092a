import Mathlib.Data.Char
import Mathlib.Data.List.Lex
import Mathlib.Data.List.Sort
import CallDoc.Doc.Basic
import CallDoc.Proofs.Results

/-!
The table of documented parameters is in the order of the names and has each of them once.
Two such tables in which every name is found with the same documentation are one table.
-/
namespace CallDoc

theorem Text.before_iff_lt (s t : Text) : before s t = true ↔ s < t := by
  induction s generalizing t with
  | nil => cases t <;> simp [before]
  | cons a s ih =>
    cases t with
    | nil => simp [before]
    | cons b t => simp [before, List.cons_lt_cons_iff, ih]

namespace ParamDocs

def Ordered (params : ParamDocs) : Prop := params.Pairwise fun a b => a.1 < b.1

theorem ordered_nil : Ordered [] := List.Pairwise.nil

theorem mem_of_mem_insert {params : ParamDocs} {name : Text} {doc : ParamDoc}
    {entry : Text × ParamDoc} (h : entry ∈ params.insert name doc) :
    entry = (name, doc) ∨ entry ∈ params := by
  induction params with
  | nil => exact Or.inl (List.mem_singleton.1 h)
  | cons head more ih =>
    obtain ⟨key, other⟩ := head
    rw [insert] at h
    split at h
    · rcases List.mem_cons.1 h with rfl | h
      · exact Or.inl rfl
      · exact Or.inr (List.mem_cons_of_mem _ h)
    · split at h
      · exact List.mem_cons.1 h
      · rcases List.mem_cons.1 h with rfl | h
        · exact Or.inr List.mem_cons_self
        · exact (ih h).imp id (List.mem_cons_of_mem _)

theorem ordered_insert {params : ParamDocs} (h : params.Ordered) (name : Text) (doc : ParamDoc) :
    (params.insert name doc).Ordered := by
  induction params with
  | nil => exact List.pairwise_singleton ..
  | cons head more ih =>
    obtain ⟨key, other⟩ := head
    obtain ⟨hhead, hmore⟩ := List.pairwise_cons.1 h
    rw [insert]
    split
    · rename_i hkey
      exact List.pairwise_cons.2 ⟨hkey ▸ hhead, hmore⟩
    · rename_i hkey
      split
      · rename_i hbefore
        have hlt := (Text.before_iff_lt name key).1 hbefore
        refine List.pairwise_cons.2 ⟨fun entry hentry => ?_, h⟩
        rcases List.mem_cons.1 hentry with rfl | hentry
        · exact hlt
        · exact lt_trans hlt (hhead entry hentry)
      · rename_i hbefore
        have hlt : key < name := by
          rw [Text.before_iff_lt] at hbefore
          exact lt_of_le_of_ne (not_lt.1 hbefore) hkey
        refine List.pairwise_cons.2 ⟨fun entry hentry => ?_, ih hmore⟩
        rcases mem_of_mem_insert hentry with rfl | hentry
        · exact hlt
        · exact hhead entry hentry

theorem get_insert (params : ParamDocs) (name key : Text) (doc : ParamDoc) :
    (params.insert name doc).get key = if key = name then doc else params.get key := by
  rw [get, find?_insert]
  split
  · rfl
  · rfl

theorem find?_eq_some_iff {params : ParamDocs} (h : params.Ordered) {name : Text}
    {doc : ParamDoc} : params.find? name = some doc ↔ (name, doc) ∈ params := by
  induction params with
  | nil => simp [find?]
  | cons head more ih =>
    obtain ⟨key, other⟩ := head
    obtain ⟨hhead, hmore⟩ := List.pairwise_cons.1 h
    have hmore := ih hmore
    rw [find?] at hmore ⊢
    rw [List.lookup_cons, List.mem_cons, Prod.mk.injEq]
    by_cases hkey : name = key
    · subst hkey
      have hnew : (name, doc) ∉ more := fun hmem => lt_irrefl name (hhead (name, doc) hmem)
      simp [hnew, eq_comm]
    · simp [beq_eq_false_iff_ne.2 hkey, hkey, hmore]

theorem find?_isSome_iff (params : ParamDocs) (name : Text) :
    (params.find? name).isSome = true ↔ name ∈ params.map Prod.fst := isSome_lookup_iff

end ParamDocs
end CallDoc
