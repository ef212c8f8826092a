import CallDoc.Doc.Declare
import CallDoc.Markup.Parse
import CallDoc.Proofs.Doc.Params
import CallDoc.Proofs.Markup.Counting
import CallDoc.Proofs.Numeral.Label
import CallDoc.Proofs.Results

/-!
What a block tree declares. The fields that count for a list of blocks are its scope; each
declares a text, a type or both. Documentation is read exactly when nothing is declared
twice, neither in the scope nor in the bodies of its fields, and then holds every
declaration once, whatever their order.
-/
namespace CallDoc

open Block

/-- A field of a field list, without the line it stands on. -/
structure Entry where
  role : FieldRole
  name : Text
  type : Option Text
  body : List Block

namespace Block

mutual

/-- The fields in a block that declare something, outside the bodies of other fields. -/
def scope : Block → List Entry
  | field _ (.other _) _ _ _ => []
  | field _ role name type body => [⟨role, name, type, body⟩]
  | quote _ children | admonition _ _ children => scopeAll children
  | bullets _ _ items | enumerated _ _ _ _ items => scopeItems items
  | paragraph .. | literal .. | doctest .. | rubric .. | comment .. => []

def scopeAll : List Block → List Entry
  | [] => []
  | block :: more => scope block ++ scopeAll more

def scopeItems : List (List Block) → List Entry
  | [] => []
  | item :: more => scopeAll item ++ scopeItems more

end

end Block

/-- A text or a type of a parameter. -/
structure Declaration where
  what : Declared
  name : Text
  value : Text
  deriving DecidableEq

def Declaration.key (x : Declaration) : Declared × Text := (x.what, x.name)

namespace Entry

/-- The text of a parameter is its body, and its type is in the header; a type of its own is
a body too. -/
def declarations (e : Entry) : List Declaration :=
  match e.role with
  | .param => (e.type.map fun type => ⟨.type, e.name, type⟩).toList ++
      [⟨.text, e.name, describe e.body⟩]
  | .type => [⟨.type, e.name, describe e.body⟩]
  | .raises | .other _ => []

def raised (e : Entry) : List Text := if e.role = .raises then [e.name] else []

/-- The role gives the body a meaning. -/
def HasText (e : Entry) : Prop := e.role = .param ∨ e.role = .type

/-- Only the text of a parameter has a type in its header. -/
def Headed (e : Entry) : Prop := e.role = .type → e.type = none

/-- What the entry adds to the declarations before it. -/
def declare (d : Declarations) (e : Entry) : Except Error Declarations :=
  match e.role with
  | .param => d.declareParam .text e.name e.type
      ((declareAll .empty e.body).map fun _ => describe e.body)
  | .type => d.declareParam .type e.name e.type
      ((declareAll .empty e.body).map fun _ => describe e.body)
  | .raises => .ok { d with raises := d.raises ++ [e.name] }
  | .other _ => .ok d

end Entry

namespace Block

def declarations (blocks : List Block) : List Declaration :=
  (scopeAll blocks).flatMap Entry.declarations

def raised (blocks : List Block) : List Text := (scopeAll blocks).flatMap Entry.raised

/-- Something is declared twice: in the scope of the blocks, or inside a text or a type
there. -/
inductive Conflicting : List Block → Prop
  | twice {blocks : List Block} (what : Declared) (name : Text)
      (h : 2 ≤ ((declarations blocks).map Declaration.key).count (what, name)) : Conflicting blocks
  | inside {blocks : List Block} {e : Entry} (he : e ∈ scopeAll blocks) (hrole : e.HasText)
      (h : Conflicting e.body) : Conflicting blocks

/-- Headers are read right all through the blocks, in the bodies of fields too. -/
inductive WellHeaded : List Block → Prop
  | intro {blocks : List Block} (header : ∀ e ∈ scopeAll blocks, e.Headed)
      (body : ∀ e ∈ scopeAll blocks, WellHeaded e.body) : WellHeaded blocks

/-! ## Walking a tree is walking its scope -/

mutual

theorem declare_eq (d : Declarations) : ∀ block : Block, KeepsCount [block] →
    declare d block = (scope block).foldlM Entry.declare d
  | field _ role name type body, _ => by
    cases role with
    | param | type | raises => exact (List.foldlM_cons ..).trans (bind_pure _) |>.symm
    | other word => rfl
  | quote _ children, h => declareAll_eq d children (h.inside (List.mem_singleton_self _))
  | admonition _ _ children, h => declareAll_eq d children (h.inside (List.mem_singleton_self _))
  | bullets _ _ items, h =>
    declareItems_eq d _ items (fun _ => h.inside) List.length_replicate
  | enumerated _ sequence bracket _ items, h =>
    declareItems_eq d _ items (fun _ => h.inside) (sequence.length_labels bracket h.lt)
  | paragraph .., _ | literal .., _ | doctest .., _ | rubric .., _ | comment .., _ => rfl

theorem declareAll_eq (d : Declarations) : ∀ blocks : List Block, KeepsCount blocks →
    declareAll d blocks = (scopeAll blocks).foldlM Entry.declare d
  | [], _ => rfl
  | block :: more, h => by
    rw [declareAll, scopeAll, List.foldlM_append, declare_eq d block h.head]
    exact bind_congr fun d => declareAll_eq d more h.tail

theorem declareItems_eq (d : Declarations) (labels : List Text) : ∀ items : List (List Block),
    (∀ item ∈ items, KeepsCount item) → labels.length = items.length →
      declareItems d labels items = (scopeItems items).foldlM Entry.declare d
  | [], _, _ => rfl
  | item :: more, h, hlength => by
    obtain ⟨label, labels, rfl⟩ := List.exists_cons_of_length_eq_add_one hlength
    obtain ⟨hitem, hmore⟩ := List.forall_mem_cons.1 h
    rw [declareItems, scopeItems, List.foldlM_append, declareAll_eq d item hitem]
    exact bind_congr fun d => declareItems_eq d labels more hmore (Nat.succ.inj hlength)

end

mutual

/-- Counting goes well in the bodies of the fields too. -/
theorem keepsCount_of_mem_scope : ∀ block : Block, KeepsCount [block] →
    ∀ e ∈ scope block, KeepsCount e.body
  | field _ role _ _ _, h => fun e he => by
    cases role with
    | param | type | raises =>
      obtain rfl := List.mem_singleton.1 he
      exact h.inside (List.mem_singleton_self _)
    | other => cases he
  | quote _ children, h | admonition _ _ children, h =>
    keepsCount_of_mem_scopeAll children (h.inside (List.mem_singleton_self _))
  | bullets _ _ items, h | enumerated _ _ _ _ items, h =>
    keepsCount_of_mem_scopeItems items fun _ => h.inside
  | paragraph .., _ | literal .., _ | doctest .., _ | rubric .., _ | comment .., _ => nofun

theorem keepsCount_of_mem_scopeAll : ∀ blocks : List Block, KeepsCount blocks →
    ∀ e ∈ scopeAll blocks, KeepsCount e.body
  | [], _ => nofun
  | block :: more, h => List.forall_mem_append.2
    ⟨keepsCount_of_mem_scope block h.head, keepsCount_of_mem_scopeAll more h.tail⟩

theorem keepsCount_of_mem_scopeItems : ∀ items : List (List Block),
    (∀ item ∈ items, KeepsCount item) → ∀ e ∈ scopeItems items, KeepsCount e.body
  | [], _ => nofun
  | item :: more, h =>
    have ⟨hitem, hmore⟩ := List.forall_mem_cons.1 h
    List.forall_mem_append.2
      ⟨keepsCount_of_mem_scopeAll item hitem, keepsCount_of_mem_scopeItems more hmore⟩

end

theorem scopeAll_append (a b : List Block) : scopeAll (a ++ b) = scopeAll a ++ scopeAll b := by
  induction a with
  | nil => rfl
  | cons block a ih => rw [List.cons_append, scopeAll, scopeAll, ih, List.append_assoc]

theorem declarations_append (a b : List Block) :
    declarations (a ++ b) = declarations a ++ declarations b := by
  rw [declarations, scopeAll_append, List.flatMap_append]
  rfl

theorem raised_append (a b : List Block) : raised (a ++ b) = raised a ++ raised b := by
  rw [raised, scopeAll_append, List.flatMap_append]
  rfl

end Block
end CallDoc
