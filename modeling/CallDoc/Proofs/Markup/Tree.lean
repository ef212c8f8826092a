import CallDoc.Markup.Parse
import CallDoc.Proofs.Results

/-!
Reasoning about the trees that are read. What holds of a tree as soon as it holds of the
trees read from the bodies in its frames holds of every tree, and every block of a tree is read
from a frame, however deep it stands.
-/
namespace CallDoc.Block

variable {roles : List Text} {lines : List Line} {blocks : List Block}

/-- The blocks are those of the frames, in their order. -/
theorem forall₂_of_ofLines (h : ofLines roles lines = .ok blocks) :
    List.Forall₂ (fun frame block => Frame.toBlock roles (ofLines roles) frame = .ok block)
      (Frame.cut lines) blocks := by
  rw [ofLines_eq] at h
  exact mapM_eq_ok_iff.1 h

theorem ofLines_induction {P : List Line → List Block → Prop}
    (step : ∀ lines blocks,
      List.Forall₂ (fun frame block => Frame.toBlock roles (ofLines roles) frame = .ok block)
        (Frame.cut lines) blocks →
      (∀ frame ∈ Frame.cut lines, ∀ body ∈ frame.bodies, ∀ inner,
        ofLines roles body = .ok inner → P body inner) → P lines blocks)
    (h : ofLines roles lines = .ok blocks) : P lines blocks := by
  induction hweight : Line.weight lines using Nat.strongRecOn generalizing lines blocks with
  | ind weight ih =>
    refine step lines blocks (forall₂_of_ofLines h) fun frame hframe body hbody inner hinner => ?_
    exact ih _ (hweight ▸ Frame.cut_weight lines frame hframe body hbody) hinner rfl

/-! ## Blocks at any depth -/

/-- The lists of blocks in a block. -/
def bodies : Block → List (List Block)
  | bullets _ _ items | enumerated _ _ _ _ items => items
  | quote _ body | field _ _ _ _ body | admonition _ _ body => [body]
  | _ => []

/-- The block is one of the blocks or stands, at any depth, in a body of one of them. -/
inductive Occurs (block : Block) : List Block → Prop
  | here {blocks : List Block} (h : block ∈ blocks) : Occurs block blocks
  | inside {blocks body : List Block} {outer : Block} (houter : outer ∈ blocks)
      (hbody : body ∈ outer.bodies) (h : Occurs block body) : Occurs block blocks

/-- The bodies in a block are read from those in its frame, in their order. -/
theorem forall₂_bodies_of_toBlock {read : List Line → Except Error (List Block)} {frame : Frame}
    {block : Block} (h : frame.toBlock roles read = .ok block) :
    List.Forall₂ (fun lines body => read lines = .ok body) frame.bodies block.bodies := by
  cases frame with
  | bullets | enumerated =>
    obtain ⟨items, hitems, rfl⟩ := map_eq_ok_iff.1 h
    exact mapM_eq_ok_iff.1 hitems
  | quote | field | admonition =>
    obtain ⟨inner, hinner, rfl⟩ := map_eq_ok_iff.1 h
    exact .cons hinner .nil
  | paragraph | rubric =>
    obtain ⟨spans, -, rfl⟩ := map_eq_ok_iff.1 h
    exact .nil
  | literal | doctest | comment =>
    cases h
    exact .nil

/-- A body in a block is read from a body in its frame. -/
theorem exists_body_of_toBlock {read : List Line → Except Error (List Block)} {frame : Frame}
    {block : Block} (h : frame.toBlock roles read = .ok block) {body : List Block}
    (hbody : body ∈ block.bodies) : ∃ lines ∈ frame.bodies, read lines = .ok body :=
  exists_of_mem_forall₂ (R := fun lines body => read lines = .ok body)
    (forall₂_bodies_of_toBlock h) hbody

/-- By induction on the place of the block: at every depth a block is read from a frame. -/
theorem exists_frame_of_occurs {block : Block} (h : ofLines roles lines = .ok blocks)
    (hblock : Occurs block blocks) : ∃ lines, ∃ frame ∈ Frame.cut lines,
      Frame.toBlock roles (ofLines roles) frame = .ok block := by
  induction hblock generalizing lines with
  | here hmem =>
    obtain ⟨frame, hframe, hread⟩ := exists_of_mem_forall₂ (forall₂_of_ofLines h) hmem
    exact ⟨lines, frame, hframe, hread⟩
  | inside houter hbody _ ih =>
    obtain ⟨frame, hframe, hread⟩ := exists_of_mem_forall₂ (forall₂_of_ofLines h) houter
    obtain ⟨inner, -, hinner⟩ := exists_body_of_toBlock hread hbody
    exact ih hinner

end CallDoc.Block
