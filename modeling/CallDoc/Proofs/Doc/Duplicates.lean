import CallDoc.Proofs.Doc.Declared
import CallDoc.Proofs.Doc.Headers

/-!
Documentation is read from a tree unless the tree declares something twice. What was read
holds every declaration of the scope, and nothing else. All of this is said of trees in which
counting goes well, since the items of a list without labels are not read.
-/
namespace CallDoc

open Declarations

namespace Block

variable {blocks : List Block}

theorem conflicting_of_not_nodup
    (h : ¬ ((declarations blocks).map Declaration.key).Nodup) : Conflicting blocks := by
  rw [List.nodup_iff_count_le_one] at h
  obtain ⟨⟨what, name⟩, hcount⟩ := not_forall.1 h
  exact .twice what name (by omega)

/-- Where no field has fields in its body, only the scope can hold something twice. -/
theorem conflicting_iff_of_flat (h : ∀ e ∈ scopeAll blocks, scopeAll e.body = []) :
    Conflicting blocks ↔ ¬ ((declarations blocks).map Declaration.key).Nodup := by
  refine ⟨fun hconflict hnodup => ?_, conflicting_of_not_nodup⟩
  cases hconflict with
  | twice what name hcount =>
    exact absurd (hcount.trans (List.nodup_iff_count_le_one.1 hnodup _)) (by decide)
  | inside he hrole hinner =>
    have hnone := h _ he
    cases hinner with
    | twice what name hcount =>
      rw [declarations, hnone] at hcount
      exact absurd hcount (by simp)
    | inside hmem => exact absurd hmem (hnone ▸ List.not_mem_nil)

/-- The table of a scope is built up without an error unless something is declared twice. -/
theorem declareAll_iff (h : WellHeaded blocks) (hkeeps : KeepsCount blocks) :
    (∃ d, declareAll .empty blocks = .ok d) ↔ ¬ Conflicting blocks := by
  induction h with
  | intro header body ih =>
    rename_i blocks
    have hbody := keepsCount_of_mem_scopeAll blocks hkeeps
    rw [declareAll_eq _ blocks hkeeps]
    constructor
    · rintro ⟨d, hd⟩ hconflict
      obtain ⟨hread, hholds, -⟩ := holds_of_foldlM header holds_empty hd
      cases hconflict with
      | twice what name hcount =>
        have honce := List.nodup_iff_count_le_one.1 hholds.once (what, name)
        rw [List.nil_append] at honce
        exact absurd (hcount.trans honce) (by decide)
      | inside he hrole hinner => exact (ih _ he (hbody _ he)).1 (hread _ he hrole) hinner
    · intro hclean
      have hread (e : Entry) (he : e ∈ scopeAll blocks) : e.Readable := fun hrole =>
        (ih e he (hbody e he)).2 fun hinner => hclean (.inside he hrole hinner)
      have honce : ((declarations blocks).map Declaration.key).Nodup :=
        by_contra fun hnot => hclean (conflicting_of_not_nodup hnot)
      exact foldlM_of_nodup header hread holds_empty honce

end Block

/-- The documentation holds what the scope of the blocks declares, and nothing else. -/
structure Doc.Records (doc : Doc) (blocks : List Block) : Prop where
  ordered : doc.params.Ordered
  names : ∀ name,
    name ∈ doc.params.map Prod.fst ↔ ∃ x ∈ Block.declarations blocks, x.name = name
  text : ∀ name text, (doc.params.get name).text = some text ↔
    ⟨.text, name, text⟩ ∈ Block.declarations blocks
  type : ∀ name type, (doc.params.get name).type = some type ↔
    ⟨.type, name, type⟩ ∈ Block.declarations blocks
  raises : doc.raises = Block.raised blocks

namespace Doc

variable {roles : List Text} {t : Text} {blocks : List Block}

theorem records_of_ofBlocks (hw : Block.WellHeaded blocks) (hkeeps : Block.KeepsCount blocks)
    {doc : Doc} (h : ofBlocks blocks = .ok doc) : doc.Records blocks := by
  obtain ⟨header, -⟩ := hw
  obtain ⟨d, hd, rfl⟩ := map_eq_ok_iff.1 h
  rw [Block.declareAll_eq _ blocks hkeeps] at hd
  obtain ⟨-, hholds, hraises⟩ := holds_of_foldlM header holds_empty hd
  exact ⟨hholds.ordered, hholds.names, hholds.values .text, hholds.values .type, hraises⟩

theorem exists_ofBlocks_iff (hw : Block.WellHeaded blocks) (hkeeps : Block.KeepsCount blocks) :
    (∃ doc, ofBlocks blocks = .ok doc) ↔ ¬ Block.Conflicting blocks := by
  rw [← Block.declareAll_iff hw hkeeps, ofBlocks]
  cases Block.declareAll .empty blocks <;> simp [Except.map]

end Doc
end CallDoc
