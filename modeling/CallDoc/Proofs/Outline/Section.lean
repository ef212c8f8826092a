import CallDoc.Proofs.Outline.Draft

/-!
Reading an outline that is put down in sections. Each section becomes the fields of its
entries with an empty line after them, whichever way its heading is marked; the next section
opens where the entries end.
-/
namespace CallDoc

open Text Section

namespace Outline

/-! ## Headings -/

def Group.caption (g : Group) : Caption := ⟨g.kind, g.title, g.underline, g.titled, g.underlined⟩

/-- The section is one of keyword arguments. -/
def Group.keyword (g : Group) : Bool := Heading.ofTitle? g.title == some .keywordArguments

variable {convention : Convention}

theorem Group.heading_eq (g : Group) (convention : Convention) :
    g.heading convention = g.caption.lines convention := by cases convention <;> rfl

theorem Group.isTrimmed_lines (g : Group) (convention : Convention) :
    ∀ line ∈ g.lines convention, IsTrimmed line ∧ line ≠ [] := by
  intro line hline
  rw [Group.lines, Group.body, List.append_nil] at hline
  rcases List.mem_append.1 hline with hline | hline
  · exact g.caption.isTrimmed_lines convention line (g.heading_eq convention ▸ hline)
  · obtain ⟨e, -, hline⟩ := List.mem_flatMap.1 hline
    exact e.isTrimmed_draft g.indented convention line hline

/-- Sections with underlined headings have no headings with colons in them. -/
theorem Group.ofColonLine?_lines (g : Group) :
    ∀ line ∈ g.lines .numpy, Heading.ofColonLine? line = none := by
  intro line hline
  rw [Group.lines, Group.body, List.append_nil] at hline
  rcases List.mem_append.1 hline with hline | hline
  · exact g.caption.ofColonLine?_lines line hline
  · obtain ⟨e, -, hline⟩ := List.mem_flatMap.1 hline
    exact ofColonLine?_of_last (e.getLast?_draft g.indent line hline)

/-! ## Bodies -/

variable {rest gap : List Text}

theorem Group.firstIndent?_body (g : Group) (convention : Convention) (gap rest : List Text) :
    firstIndent? (g.body convention gap ++ rest) = some (margin g.indent convention) := by
  have hne : g.entries.map (spacedDraft convention g.indent []) ≠ [] := by simp [g.nonempty]
  have hhangs : ∀ draft ∈ g.entries.map (spacedDraft convention g.indent []),
      draft.HangsAt (margin g.indent convention) :=
    List.forall_mem_map.2 fun e _ => hangsAt_spacedDraft (Or.inl rfl)
  have hbody : g.body convention gap ++ rest =
      (g.entries.map (spacedDraft convention g.indent [])).flatMap Draft.lines ++
        (gap ++ rest) := by
    rw [Group.body, List.flatMap_map, List.append_assoc]
    simp only [spacedDraft, List.append_nil]
  rw [hbody]
  exact (firstIndent?_drafts hne hhangs (gap ++ rest)).1

/-- A section opens at its heading. -/
theorem Group.opening?_heading (g : Group) (convention : Convention) (gap rest : List Text) :
    opening? convention (g.heading convention ++ (g.body convention gap ++ rest)) =
      some (.heading (g.kind.heading g.keyword), g.body convention gap ++ rest) := by
  rw [g.heading_eq]
  refine g.caption.opening?_lines fun hgoogle => ?_
  subst hgoogle
  rw [g.firstIndent?_body]
  exact g.indented

theorem Group.opens_heading (g : Group) (convention : Convention) (gap rest : List Text) :
    Opens convention (g.heading convention ++ (g.body convention gap ++ rest)) :=
  Or.inr (by rw [g.opening?_heading]; rfl)

theorem isBreak_of_opens {body? : Option Nat} (h : Opens convention rest) :
    isBreak convention body? rest = true := by
  cases rest with
  | nil => rfl
  | cons line below =>
    have hopening := h.resolve_left (List.cons_ne_nil line below)
    rw [isBreak, hopening]
    rfl

/-- The draft is the one of the entry, with an empty line below it or none. -/
def Entry.DraftedAs (convention : Convention) (n : Nat) (e : Entry) (draft : Draft) : Prop :=
  ∃ gap, IsGap gap ∧ draft = spacedDraft convention n gap e

/-- The lines of entries with an empty line or none below them, cut into drafts. -/
theorem exists_drafts (convention : Convention) (n : Nat) (hgap : IsGap gap)
    {entries : List Entry} (hne : entries ≠ []) :
    ∃ drafts : List Draft,
      List.Forall₂ (Entry.DraftedAs convention n) entries drafts ∧
      drafts.flatMap Draft.lines =
        (entries.flatMap fun e => (e.draft n convention).lines) ++ gap := by
  induction entries with
  | nil => exact absurd rfl hne
  | cons e more ih =>
    -- the empty line belongs to the last entry
    cases more with
    | nil =>
      refine ⟨[spacedDraft convention n gap e], .cons ⟨gap, hgap, rfl⟩ .nil, ?_⟩
      rw [List.flatMap_singleton, List.flatMap_singleton]
      rfl
    | cons next more =>
      obtain ⟨drafts, hdrafts, hlines⟩ := ih (List.cons_ne_nil next more)
      refine ⟨spacedDraft convention n [] e :: drafts, .cons ⟨[], Or.inl rfl, rfl⟩ hdrafts, ?_⟩
      have hfirst : (spacedDraft convention n [] e).lines = (e.draft n convention).lines := by
        rw [spacedDraft, List.append_nil]
      rw [List.flatMap_cons, hlines, hfirst, ← List.append_assoc]
      rfl

theorem hangsAt_drafts {n : Nat} {entries : List Entry} {drafts : List Draft}
    (h : List.Forall₂ (Entry.DraftedAs convention n) entries drafts) :
    ∀ draft ∈ drafts, draft.HangsAt (margin n convention) := by
  induction h with
  | nil => exact nofun
  | cons hdraft _ ih =>
    obtain ⟨gap, hgap, rfl⟩ := hdraft
    exact List.forall_mem_cons.2 ⟨hangsAt_spacedDraft hgap, ih⟩

theorem unbroken_drafts {n : Nat} (hn : 0 < n) {entries : List Entry} {drafts : List Draft}
    (h : List.Forall₂ (Entry.DraftedAs convention n) entries drafts)
    (hrest : rest.head? ≠ some []) :
    Unbroken convention (some (margin n convention)) rest (drafts.flatMap Draft.lines) := by
  induction h with
  | nil => trivial
  | @cons e draft entries drafts hdraft hmore ih =>
    obtain ⟨gap, hgap, rfl⟩ := hdraft
    refine unbroken_append.2 ⟨unbroken_spacedDraft hn hgap ?_, ih⟩
    cases hmore with
    | nil => exact hrest
    | @cons next _ _ _ hnext _ =>
      obtain ⟨gap, hgap, rfl⟩ := hnext
      have hne : (spacedDraft convention n gap next).line ≠ [] := (hangsAt_spacedDraft hgap).ne_nil
      exact fun he => hne (Option.some.inj he)

/-- An item says all of an entry, with empty lines after the description. -/
def Entry.ReadAs (kind : Kind) (e : Entry) (item : Item) : Prop :=
  ∃ gap, IsGap gap ∧ item = e.item kind (e.lines ++ gap)

theorem readAs_drafts {kind : Kind} {n : Nat} {entries : List Entry} {drafts : List Draft}
    (hplain : kind = .errors → ∀ e ∈ entries, e.stars = 0 ∧ e.type? = none)
    (h : List.Forall₂ (Entry.DraftedAs convention n) entries drafts) :
    List.Forall₂ (Entry.ReadAs kind) entries (drafts.map (Draft.item convention kind.form)) := by
  induction h with
  | nil => exact .nil
  | @cons e draft entries drafts hdraft _ ih =>
    obtain ⟨gap, hgap, rfl⟩ := hdraft
    refine .cons ⟨gap, hgap, ?_⟩ (ih fun hkind e he => hplain hkind e (List.mem_cons_of_mem _ he))
    exact item_spacedDraft (fun hkind => hplain hkind e List.mem_cons_self) hgap.eq_nil n

/-- The lines of a section are drafts of its entries, at which it goes on. -/
theorem Group.exists_drafts_body (g : Group) (convention : Convention) (hgap : IsGap gap)
    (hrest : rest.head? ≠ some []) :
    ∃ drafts : List Draft, drafts ≠ [] ∧ drafts.flatMap Draft.lines = g.body convention gap ∧
      (∀ draft ∈ drafts, draft.HangsAt (margin g.indent convention)) ∧
      Unbroken convention (some (margin g.indent convention)) rest
        (drafts.flatMap Draft.lines) ∧
      List.Forall₂ (Entry.ReadAs g.kind) g.entries
        (drafts.map (Draft.item convention g.kind.form)) := by
  obtain ⟨drafts, hdrafts, hlines⟩ := exists_drafts convention g.indent hgap g.nonempty
  refine ⟨drafts, ?_, hlines, hangsAt_drafts hdrafts, unbroken_drafts g.indented hdrafts hrest,
    readAs_drafts g.plain hdrafts⟩
  rintro rfl
  exact g.nonempty (List.forall₂_nil_right_iff.1 hdrafts)

end Outline
end CallDoc
