import CallDoc.Doc.Declare
import CallDoc.Proofs.Markup.Tree

/-!
Trees in which counting goes well. The numbers of a list are words of 64 bits, and once they start
over the list has no labels, so that nothing of its items is shown or declared
(`chunks_of_startsOver`, `declare_of_startsOver`). What is said of all items of a tree is said of
trees where the numbers of every list stay below the largest.
-/
namespace CallDoc.Block

/-- In no list, however deep it stands, do the numbers start over. -/
def KeepsCount (blocks : List Block) : Prop :=
  ∀ line s bracket start items, Occurs (.enumerated line s bracket start items) blocks →
    start + items.length < UInt64.size

variable {block : Block} {blocks more body : List Block}

namespace KeepsCount

theorem nil : KeepsCount [] := by
  intro line s bracket start items h
  cases h with
  | here hmem | inside hmem => cases hmem

theorem of_subset (h : KeepsCount blocks) (hsub : more ⊆ blocks) : KeepsCount more := by
  intro line s bracket start items hlist
  cases hlist with
  | here hmem => exact h line s bracket start items (.here (hsub hmem))
  | inside houter hbody hinner =>
    exact h line s bracket start items (.inside (hsub houter) hbody hinner)

theorem single (h : KeepsCount blocks) (hblock : block ∈ blocks) : KeepsCount [block] :=
  h.of_subset (List.cons_subset.2 ⟨hblock, List.nil_subset blocks⟩)

theorem head (h : KeepsCount (block :: more)) : KeepsCount [block] :=
  h.single List.mem_cons_self

theorem tail (h : KeepsCount (block :: more)) : KeepsCount more :=
  h.of_subset (List.subset_cons_self block more)

theorem of_forall (h : ∀ block ∈ blocks, KeepsCount [block]) : KeepsCount blocks := by
  intro line s bracket start items hlist
  cases hlist with
  | here hmem => exact h _ hmem line s bracket start items (.here (List.mem_singleton_self _))
  | inside houter hbody hinner =>
    exact h _ houter line s bracket start items
      (.inside (List.mem_singleton_self _) hbody hinner)

theorem cons (h : KeepsCount [block]) (hmore : KeepsCount more) : KeepsCount (block :: more) :=
  of_forall (List.forall_mem_cons.2 ⟨h, fun _ => hmore.single⟩)

theorem inside (h : KeepsCount [block]) (hbody : body ∈ block.bodies) : KeepsCount body :=
  fun line s bracket start items hlist =>
    h line s bracket start items (.inside (List.mem_singleton_self block) hbody hlist)

theorem lt {line start : Nat} {s : Sequence} {bracket : Bracket} {items : List (List Block)}
    (h : KeepsCount [.enumerated line s bracket start items]) :
    start + items.length < UInt64.size :=
  h line s bracket start items (.here (List.mem_singleton_self _))

/-- A block keeps count as soon as its own items do and what stands inside of it. -/
theorem singleton
    (hown : ∀ line s bracket start items, block = .enumerated line s bracket start items →
      start + items.length < UInt64.size)
    (hinside : ∀ body ∈ block.bodies, KeepsCount body) : KeepsCount [block] := by
  intro line s bracket start items hlist
  cases hlist with
  | here hmem => exact hown line s bracket start items (List.mem_singleton.1 hmem).symm
  | inside houter hbody hinner =>
    obtain rfl := List.mem_singleton.1 houter
    exact hinside _ hbody line s bracket start items hinner

end KeepsCount

theorem keepsCount_paragraph (line : Nat) (spans : List Span) :
    KeepsCount [.paragraph line spans] :=
  .singleton nofun (List.forall_mem_nil _)

/-! ## Deciding it -/

mutual

def keepsCount : Block → Bool
  | enumerated _ _ _ start items =>
    start + items.length < UInt64.size && itemsKeepCount items
  | bullets _ _ items => itemsKeepCount items
  | quote _ body | field _ _ _ _ body | admonition _ _ body => allKeepCount body
  | paragraph .. | literal .. | doctest .. | rubric .. | comment .. => true

def allKeepCount : List Block → Bool
  | [] => true
  | block :: more => keepsCount block && allKeepCount more

def itemsKeepCount : List (List Block) → Bool
  | [] => true
  | item :: more => allKeepCount item && itemsKeepCount more

end

mutual

theorem keepsCount_iff : ∀ block : Block, block.keepsCount = true ↔ KeepsCount [block]
  | enumerated _ _ _ start items => by
    rw [keepsCount, Bool.and_eq_true, decide_eq_true_iff, itemsKeepCount_iff items]
    refine ⟨fun ⟨hown, hinside⟩ => .singleton (fun _ _ _ _ _ he => ?_) hinside,
      fun h => ⟨h.lt, fun _ => h.inside⟩⟩
    cases he
    exact hown
  | bullets _ _ items => by
    rw [keepsCount, itemsKeepCount_iff items]
    exact ⟨fun h => .singleton (by nofun) h, fun h _ => h.inside⟩
  | quote _ body | field _ _ _ _ body | admonition _ _ body => by
    rw [keepsCount, allKeepCount_iff body]
    exact ⟨fun h => .singleton (by nofun) (List.forall_mem_singleton.2 h),
      fun h => h.inside (List.mem_singleton_self body)⟩
  | paragraph .. | literal .. | doctest .. | rubric .. | comment .. =>
    iff_of_true rfl (.singleton (by nofun) (List.forall_mem_nil _))

theorem allKeepCount_iff : ∀ blocks : List Block, allKeepCount blocks = true ↔ KeepsCount blocks
  | [] => iff_of_true rfl .nil
  | block :: more => by
    rw [allKeepCount, Bool.and_eq_true, keepsCount_iff block, allKeepCount_iff more]
    exact ⟨fun ⟨hblock, hmore⟩ => hblock.cons hmore, fun h => ⟨h.head, h.tail⟩⟩

theorem itemsKeepCount_iff : ∀ items : List (List Block),
    itemsKeepCount items = true ↔ ∀ item ∈ items, KeepsCount item
  | [] => iff_of_true rfl (List.forall_mem_nil _)
  | item :: more => by
    rw [itemsKeepCount, Bool.and_eq_true, allKeepCount_iff item, itemsKeepCount_iff more,
      List.forall_mem_cons]

end

instance (blocks : List Block) : Decidable (KeepsCount blocks) :=
  decidable_of_iff _ (allKeepCount_iff blocks)

/-! ## Lists whose numbers start over -/

section StartsOver

variable {s : Sequence} {start : Nat} {items : List (List Block)} (hstart : start < UInt64.size)
  (hlength : items.length < UInt64.size) (hover : UInt64.size ≤ start + items.length)
include hstart hlength hover

theorem labels_of_startsOver (bracket : Bracket) : s.labels bracket start items.length = [] := by
  rw [Sequence.labels, s.enumerators_eq_nil hstart hlength hover]
  rfl

theorem chunks_of_startsOver (lead : Lead) (line : Nat) (bracket : Bracket) :
    chunks lead (.enumerated line s bracket start items) = ([], lead) := by
  rw [chunks, labels_of_startsOver hstart hlength hover]
  cases items <;> rfl

theorem declare_of_startsOver (d : Declarations) (line : Nat) (bracket : Bracket) :
    declare d (.enumerated line s bracket start items) = .ok d := by
  rw [declare, labels_of_startsOver hstart hlength hover]
  cases items <;> rfl

end StartsOver

end CallDoc.Block
