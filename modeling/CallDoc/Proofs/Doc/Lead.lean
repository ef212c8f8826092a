import CallDoc.Doc.Prose
import CallDoc.Proofs.Text.Lines

/-!
What leads in the prose of a tree. A block leaves the lead as it is or spends it, so that
everything behind it is led in by the same markers or by spaces in their place.
-/
namespace CallDoc

open Text

namespace Lead

variable {lead next last : Lead} {mark : Text} {c : Char}

theorem text_cons (mark : Text) (lead : Lead) : text (mark :: lead) = lead.text ++ mark := by
  simp [text]

theorem spent_spent (lead : Lead) : lead.spent.spent = lead.spent := by
  simp [spent, length_spaces]

/-- What leads in the prose after a block: the lead before it, or that lead spent. -/
def Follows (next lead : Lead) : Prop := next = lead ∨ next = lead.spent

theorem Follows.refl (lead : Lead) : Follows lead lead := Or.inl rfl

theorem follows_spent (lead : Lead) : Follows lead.spent lead := Or.inr rfl

theorem Follows.trans (hlast : Follows last next) (hnext : Follows next lead) :
    Follows last lead := by
  rcases hlast with rfl | rfl
  · exact hnext
  · rcases hnext with rfl | rfl
    · exact Or.inr rfl
    · exact Or.inr (spent_spent lead)

theorem Follows.tail (h : Follows next (mark :: lead)) : Follows next.tail lead := by
  rcases h with rfl | rfl
  · exact Or.inl rfl
  · exact Or.inr rfl

/-- The character stands nowhere in the lead. -/
def Lacks (lead : Lead) (c : Char) : Prop := ∀ mark ∈ lead, c ∉ mark

theorem lacks_nil : Lacks [] c := List.forall_mem_nil _

theorem lacks_cons (hmark : c ∉ mark) (h : lead.Lacks c) : Lacks (mark :: lead) c :=
  List.forall_mem_cons.2 ⟨hmark, h⟩

theorem Lacks.text (h : lead.Lacks c) : c ∉ lead.text := fun hmem =>
  have ⟨mark, hmark, hc⟩ := List.mem_flatten.1 hmem
  h mark (List.mem_reverse.1 hmark) hc

theorem not_mem_indent (hc : c ≠ ' ') (lead : Lead) : c ∉ lead.indent := fun hmem =>
  have ⟨_, _, hspace⟩ := List.mem_flatMap.1 hmem
  not_mem_spaces hc _ hspace

theorem Lacks.follows (h : lead.Lacks c) (hc : c ≠ ' ') (hnext : Follows next lead) :
    next.Lacks c := by
  rcases hnext with rfl | rfl
  · exact h
  · exact List.forall_mem_map.2 fun _ _ => not_mem_spaces hc _

end Lead

namespace Block

mutual

theorem follows_chunks (lead : Lead) : ∀ block : Block, Lead.Follows (chunks lead block).2 lead
  | paragraph .. | doctest .. | rubric .. => Lead.follows_spent lead
  | literal .. | field .. | comment .. => .refl lead
  | quote _ children => (follows_chunksOfAll (quoteIndent :: lead) children).tail
  | admonition _ _ children =>
    (follows_chunksOfAll (quoteIndent :: lead.spent) children).tail.trans (Lead.follows_spent lead)
  | bullets _ _ items => follows_chunksOfItems lead _ items
  | enumerated _ _ _ _ items => follows_chunksOfItems lead _ items

theorem follows_chunksOfAll (lead : Lead) :
    ∀ blocks : List Block, Lead.Follows (chunksOfAll lead blocks).2 lead
  | [] => .refl lead
  | block :: more => (follows_chunksOfAll _ more).trans (follows_chunks lead block)

theorem follows_chunksOfItems (lead : Lead) (labels : List Text) :
    ∀ items : List (List Block), Lead.Follows (chunksOfItems lead labels items).2 lead
  | [] => .refl lead
  | item :: more => by
    cases labels with
    | nil => exact .refl lead
    | cons label labels =>
      exact (follows_chunksOfItems _ labels more).trans
        (follows_chunksOfAll (label :: lead) item).tail

end

end Block

end CallDoc
