import CallDoc.Proofs.Section.Prose

/-!
Items written one below the other, each with its description indented below its first line,
are the items that are taken from a section.
-/
namespace CallDoc.Section

open Text

/-- The first line of an item, and the lines that belong to it. -/
structure Draft where
  line : Text
  below : List Text

namespace Draft

def lines (draft : Draft) : List Text := draft.line :: draft.below

def item (convention : Convention) (form : ItemForm) (draft : Draft) : Item :=
  let item := Item.ofLine convention form draft.line
  { item with description := item.description ++ dedent draft.below }

/-- The item is indented by `n`, and all of its other lines by more. -/
structure HangsAt (n : Nat) (draft : Draft) : Prop where
  indent : Text.indent draft.line = n
  ne_nil : draft.line ≠ []
  line : isIndented (n + 1) draft.line = false
  below : ∀ line ∈ draft.below, line = [] ∨ isIndented (n + 1) line = true

end Draft

section Take

variable {convention : Convention} {body? : Option Nat} {n : Nat} {rest : List Text}

/-- The section goes on at each of the lines, which stand before `rest`. -/
def Unbroken (convention : Convention) (body? : Option Nat) (rest : List Text) :
    List Text → Prop
  | [] => True
  | line :: below =>
    isBreak convention body? (line :: below ++ rest) = false ∧
      Unbroken convention body? rest below

theorem unbroken_append {a b : List Text} :
    Unbroken convention body? rest (a ++ b) ↔
      Unbroken convention body? (b ++ rest) a ∧ Unbroken convention body? rest b := by
  induction a with
  | nil => simp [Unbroken]
  | cons line a ih =>
    simp only [List.cons_append, Unbroken, ih, List.append_assoc, and_assoc]

theorem takeIndented_of_unbroken {body : List Text}
    (h : Unbroken convention body? rest body)
    (hbody : ∀ line ∈ body, line = [] ∨ isIndented n line = true)
    (hrest : isBreak convention body? rest = true ∨
      ∃ line, rest.head? = some line ∧ line ≠ [] ∧ isIndented n line = false) :
    takeIndented convention body? n (body ++ rest) = (body, rest) := by
  induction body with
  | nil =>
    cases rest with
    | nil => rfl
    | cons line below =>
      rw [List.nil_append, takeIndented, if_neg]
      rcases hrest with hrest | ⟨line', hline, hne, hindent⟩
      · simp [hrest]
      · obtain rfl := Option.some.inj hline
        simp [hne, hindent]
  | cons line body ih =>
    obtain ⟨hline, hmore⟩ := List.forall_mem_cons.1 hbody
    have hkeep : (line.isEmpty || isIndented n line) = true := by
      rcases hline with rfl | hline
      · rfl
      · rw [hline, Bool.or_true]
    rw [List.cons_append, takeIndented, if_pos, ih h.2 hmore]
    rw [hkeep, Bool.and_true, ← List.cons_append, h.1, Bool.not_false]

theorem takeItems_cons {form : ItemForm} {line : Text} {below : List Text}
    (h : isBreak convention body? (line :: below) = false) :
    takeItems convention body? form (line :: below) =
      ((takeItem convention body? form line below).1 ::
          (takeItems convention body? form (takeItem convention body? form line below).2).1,
        (takeItems convention body? form (takeItem convention body? form line below).2).2) := by
  rw [takeItems, if_neg (by simp [h])]

theorem takeItems_of_unbroken {form : ItemForm} {drafts : List Draft}
    (h : Unbroken convention body? rest (drafts.flatMap Draft.lines))
    (hdrafts : ∀ draft ∈ drafts, draft.HangsAt n)
    (hrest : isBreak convention body? rest = true) :
    takeItems convention body? form (drafts.flatMap Draft.lines ++ rest) =
      (drafts.map (Draft.item convention form), rest) := by
  induction drafts with
  | nil =>
    cases rest with
    | nil => rw [List.flatMap_nil, List.nil_append, takeItems]; rfl
    | cons line below => rw [List.flatMap_nil, List.nil_append, takeItems, if_pos hrest]; rfl
  | cons draft more ih =>
    obtain ⟨hdraft, hmore⟩ := List.forall_mem_cons.1 hdrafts
    rw [List.flatMap_cons, unbroken_append] at h
    obtain ⟨⟨hline, hbelow⟩, hunbroken⟩ := h
    change isBreak convention body?
      (draft.line :: (draft.below ++ (more.flatMap Draft.lines ++ rest))) = false at hline
    -- the description ends at the first line of the next item, or where the section does
    have hnext : isBreak convention body? (more.flatMap Draft.lines ++ rest) = true ∨
        ∃ line, (more.flatMap Draft.lines ++ rest).head? = some line ∧ line ≠ [] ∧
          isIndented (n + 1) line = false := by
      cases more with
      | nil => exact Or.inl hrest
      | cons next more =>
        obtain ⟨-, hne, hindent, -⟩ := hmore next List.mem_cons_self
        exact Or.inr ⟨next.line, rfl, hne, hindent⟩
    have htake : takeItem convention body? form draft.line
        (draft.below ++ (more.flatMap Draft.lines ++ rest)) =
        (draft.item convention form, more.flatMap Draft.lines ++ rest) := by
      rw [takeItem, hdraft.indent, takeIndented_of_unbroken hbelow hdraft.below hnext]
      rfl
    rw [List.flatMap_cons, List.append_assoc]
    change takeItems convention body? form (draft.line :: (draft.below ++ _)) = _
    rw [takeItems_cons hline, htake, ih hunbroken hmore]
    rfl

end Take

/-! ## A section of items -/

section Items

variable {convention : Convention} {n : Nat} {rest : List Text} {drafts : List Draft}
  {heading : Heading} {form : ItemForm}

theorem firstIndent?_drafts (hne : drafts ≠ []) (hdrafts : ∀ draft ∈ drafts, draft.HangsAt n)
    (rest : List Text) : firstIndent? (drafts.flatMap Draft.lines ++ rest) = some n ∧
      (drafts.flatMap Draft.lines ++ rest).head? ≠ some [] := by
  obtain ⟨draft, more, rfl⟩ := List.exists_cons_of_ne_nil hne
  have hdraft := hdrafts draft List.mem_cons_self
  have hlines : (draft :: more).flatMap Draft.lines ++ rest =
      draft.line :: (draft.below ++ more.flatMap Draft.lines ++ rest) := by
    rw [List.flatMap_cons]
    rfl
  have hfirst : (draft.line :: (draft.below ++ more.flatMap Draft.lines ++ rest)).find?
      (fun line => !line.isEmpty) = some draft.line :=
    List.find?_cons_of_pos (by simp [hdraft.ne_nil])
  rw [hlines, firstIndent?, hfirst]
  exact ⟨congrArg some hdraft.indent, fun he => hdraft.ne_nil (Option.some.inj he)⟩

/-- The section below a heading holds the items, and nothing of what is below. -/
theorem takeBody_drafts (hform : Heading.form? convention heading = some form) (hne : drafts ≠ [])
    (hdrafts : ∀ draft ∈ drafts, draft.HangsAt n)
    (h : Unbroken convention (some n) rest (drafts.flatMap Draft.lines))
    (hrest : isBreak convention (some n) rest = true) :
    takeBody convention heading (drafts.flatMap Draft.lines ++ rest) =
      (.items heading (drafts.map (Draft.item convention form)), rest) := by
  obtain ⟨hindent, hhead⟩ := firstIndent?_drafts hne hdrafts rest
  unfold takeBody
  dsimp only
  rw [hform, hindent, Option.getD_some, takeEmpty_of_head? hhead]
  dsimp only
  rw [takeItems_of_unbroken h hdrafts hrest]

/-- Items whose descriptions are in canonical form, and that say something, stay as they are. -/
theorem mapDescriptions_items {items : List Item}
    (h : ∀ item ∈ items,
      canonical convention item.description = item.description ∧ item.isEmpty = false) :
    (Part.items heading items).mapDescriptions (canonical convention) = .items heading items := by
  have hmap : items.map (Item.mapDescription (canonical convention)) = items := by
    refine (List.map_congr_left fun item hitem => ?_).trans (List.map_id items)
    rw [Item.mapDescription, (h item hitem).1]
    rfl
  have hfilter : items.filter (fun item => !item.isEmpty) = items :=
    List.filter_eq_self.2 fun item hitem => by rw [(h item hitem).2, Bool.not_false]
  rw [Part.mapDescriptions, hmap, hfilter]

end Items

end CallDoc.Section
