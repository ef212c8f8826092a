import CallDoc.Proofs.Doc.Scope
import CallDoc.Proofs.Markup.Source
import CallDoc.Proofs.Markup.Tree

/-!
In a tree that was read, no header but that of a parameter's text has a type.
-/
namespace CallDoc

namespace Frame

/-- Only the text of a parameter has a type in its header. -/
def Headed : Frame → Prop
  | field _ role _ type _ => role = .type → type = none
  | _ => True

theorem headed_of_readHeader? {header name : Text} {role : FieldRole} {type : Option Text}
    (h : readHeader? header = some (role, type, name)) (hrole : role = .type) : type = none := by
  unfold readHeader? at h
  split at h
  · cases h
    rfl
  · split at h
    · cases h
      cases hrole
    · cases h
  · cases h

theorem Opens.headed {line : Line} {below rest : List Line} {frame : Frame}
    (h : Opens line below rest frame) : frame.Headed := by
  cases h with
  | field _ hread => exact headed_of_readHeader? hread
  | _ => trivial

theorem headed_cut (lines : List Line) : ∀ frame ∈ cut lines, frame.Headed := by
  intro frame hframe
  obtain ⟨line, below, rest, -, hopens⟩ := exists_opens_of_mem_cut hframe
  exact hopens.headed

end Frame

namespace Block

theorem mem_scopeAll_iff {blocks : List Block} {e : Entry} :
    e ∈ scopeAll blocks ↔ ∃ block ∈ blocks, e ∈ scope block := by
  induction blocks with
  | nil => simp [scopeAll]
  | cons block blocks ih => simp [scopeAll, ih]

theorem mem_scopeItems_iff {items : List (List Block)} {e : Entry} :
    e ∈ scopeItems items ↔ ∃ item ∈ items, e ∈ scopeAll item := by
  induction items with
  | nil => simp [scopeItems]
  | cons item items ih => simp [scopeItems, ih]

/-- An entry of a block that was read comes from the header of its frame, or from a body in
it. -/
theorem mem_scope_of_toBlock {roles : List Text} {read : List Line → Except Error (List Block)}
    {frame : Frame} {block : Block} (h : frame.toBlock roles read = .ok block) {e : Entry}
    (he : e ∈ scope block) :
    (∃ line body, frame = .field line e.role e.name e.type body ∧ read body = .ok e.body) ∨
      ∃ body ∈ frame.bodies, ∃ inner, read body = .ok inner ∧ e ∈ scopeAll inner := by
  have hitems {items : List (List Line)} {inners : List (List Block)}
      (hread : items.mapM read = .ok inners) (he : e ∈ scopeItems inners) :
      ∃ body ∈ items, ∃ inner, read body = .ok inner ∧ e ∈ scopeAll inner := by
    obtain ⟨inner, hinner, he⟩ := mem_scopeItems_iff.1 he
    obtain ⟨body, hbody, hread⟩ := exists_of_mem_forall₂ (mapM_eq_ok_iff.1 hread) hinner
    exact ⟨body, hbody, inner, hread, he⟩
  cases frame with
  | bullets | enumerated =>
    obtain ⟨inners, hread, rfl⟩ := map_eq_ok_iff.1 h
    exact Or.inr (hitems hread he)
  | quote | admonition =>
    obtain ⟨inner, hread, rfl⟩ := map_eq_ok_iff.1 h
    exact Or.inr ⟨_, List.mem_singleton_self _, inner, hread, he⟩
  | field line role name type body =>
    obtain ⟨inner, hread, rfl⟩ := map_eq_ok_iff.1 h
    cases role with
    | other word => cases he
    | param | type | raises =>
      obtain rfl := List.mem_singleton.1 he
      exact Or.inl ⟨line, body, rfl, hread⟩
  | paragraph | rubric =>
    obtain ⟨spans, -, rfl⟩ := map_eq_ok_iff.1 h
    cases he
  | literal | doctest | comment =>
    cases h
    cases he

theorem wellHeaded_of_ofLines {roles : List Text} {lines : List Line} {blocks : List Block}
    (h : ofLines roles lines = .ok blocks) : WellHeaded blocks := by
  refine ofLines_induction (P := fun _ blocks => WellHeaded blocks) ?_ h
  intro lines blocks hread ih
  have hentry (e : Entry) (he : e ∈ scopeAll blocks) : e.Headed ∧ WellHeaded e.body := by
    obtain ⟨block, hblock, he⟩ := mem_scopeAll_iff.1 he
    obtain ⟨frame, hframe, htoBlock⟩ := exists_of_mem_forall₂ hread hblock
    rcases mem_scope_of_toBlock htoBlock he with ⟨line, body, rfl, hbody⟩ | hbody
    · exact ⟨Frame.headed_cut lines _ hframe,
        ih _ hframe body (List.mem_singleton_self body) e.body hbody⟩
    · obtain ⟨body, hbody, inner, hinner, he⟩ := hbody
      obtain ⟨header, bodies⟩ := ih frame hframe body hbody inner hinner
      exact ⟨header e he, bodies e he⟩
  exact ⟨fun e he => (hentry e he).1, fun e he => (hentry e he).2⟩

end Block
end CallDoc
