import CallDoc.Proofs.Outline.Draft

/-!
A summary with one section below it, in which no item has a type. An item is a label with prose
behind it or below it. How labels are read is left open here: the section becomes the fields that
are written for its items, whatever these are, and the fields are read below the summary.
-/
namespace CallDoc

open Text Section

/-- What an item is called: words that are taken for no heading and no index entry. -/
structure Text.IsItemHead (t : Text) : Prop where
  solid : IsSolid t
  space : ∀ c ∈ t, isBlank c = true → c = ' '
  index : isIndexEntry t = false
  last : t.getLast? ≠ some ':'

namespace Outline

/-! ## Topics -/

/-- A label, and lines of prose on it of which all but the first are written `hang` columns further
to the right. -/
structure Topic where
  label : Text
  first : Text
  more : List Text
  hang : Nat
  labelled : IsItemHead label
  prose : ∀ line ∈ first :: more, isProse line = true
  hangs : 0 < hang

namespace Topic

def lines (t : Topic) : List Text := t.first :: t.more

/-- The topic as an item of a section: `label: description`, or the label with the description
below. -/
def draft (n : Nat) (t : Topic) : Convention → Draft
  | .google => ⟨spaces n ++ (t.label ++ ": ".toList ++ t.first), pad (n + t.hang) t.more⟩
  | .numpy => ⟨t.label, pad t.hang t.lines⟩

/-- What the first line of an item says of its description. -/
def begun (t : Topic) : Convention → List Text
  | .google => [t.first]
  | .numpy => []

variable (t : Topic) {convention : Convention} {n : Nat}

theorem isProseLines : IsProseLines t.lines := ⟨List.cons_ne_nil _ _, t.prose⟩

theorem hangsAt_draft : (t.draft n convention).HangsAt (margin n convention) := by
  have hmore := (List.forall_mem_cons.1 t.prose).2
  cases convention with
  | google =>
    have hsolid : IsSolid (t.label ++ ": ".toList ++ t.first) :=
      t.labelled.solid.of_append (isSolid_of_isProse (t.prose _ List.mem_cons_self))
    have hhangs := hangsAt_pad hsolid hmore t.hangs (Or.inl rfl) n
    rwa [List.append_nil] at hhangs
  | numpy =>
    have hhangs := hangsAt_pad t.labelled.solid t.prose t.hangs (Or.inl rfl) 0
    rwa [List.append_nil, Nat.zero_add] at hhangs

/-- The section goes on at each line of the topics. -/
theorem unbroken_drafts {topics : List Topic} (hn : 0 < n) :
    Unbroken convention (some (margin n convention)) []
      ((topics.map fun t : Topic => t.draft n convention).flatMap Draft.lines) := by
  cases convention with
  | google =>
    refine unbroken_google fun line hline => Or.inr ?_
    obtain ⟨draft, hdraft, hline⟩ := List.mem_flatMap.1 hline
    obtain ⟨t, -, rfl⟩ := List.mem_map.1 hdraft
    exact endsInProse_behind t.prose t.labelled.solid t.labelled.space hn t.hang line hline
  | numpy =>
    induction topics with
    | nil => trivial
    | cons t more ih =>
      rw [List.map_cons, List.flatMap_cons]
      refine unbroken_append.2 ⟨?_, ih⟩
      have hrest : ((more.map fun t : Topic => t.draft n .numpy).flatMap Draft.lines ++
          []).head? ≠ some [] := by
        cases more with
        | nil => exact nofun
        | cons next more => exact fun he => next.labelled.solid.ne_nil (Option.some.inj he)
      have hbelow := unbroken_below t.prose t.labelled.index t.labelled.solid.ne_nil t.hangs
        (Or.inl rfl) hrest
      rw [List.append_nil, List.append_nil] at hbelow
      rw [List.append_nil]
      exact hbelow

theorem isTrimmed_draft (hn : 0 < n) :
    ∀ line ∈ (t.draft n convention).lines, IsTrimmed line ∧ line ≠ [] := by
  have hsolid := t.labelled.solid
  cases convention with
  | google =>
    intro line hline
    obtain ⟨hends, -⟩ := endsInProse_behind t.prose hsolid t.labelled.space hn t.hang line hline
    exact ⟨hends.isTrimmed, hends.ne_nil⟩
  | numpy =>
    refine List.forall_mem_cons.2 ⟨⟨⟨t.labelled.space, hsolid.blank_last []⟩, hsolid.ne_nil⟩, ?_⟩
    intro line hline
    obtain ⟨u, hu, rfl⟩ := List.mem_map.1 hline
    have hends := endsInProse_spaces (t.prose u hu) t.hang
    exact ⟨hends.isTrimmed, hends.ne_nil⟩

theorem ofColonLine?_draft :
    ∀ line ∈ (t.draft n .numpy).lines, Heading.ofColonLine? line = none := by
  refine List.forall_mem_cons.2 ⟨ofColonLine?_of_last t.labelled.last, fun line hline => ?_⟩
  obtain ⟨u, hu, rfl⟩ := List.mem_map.1 hline
  exact ofColonLine?_of_prose (Or.inr (endsInProse_spaces (t.prose u hu) t.hang))

/-- The description of the item is what is said on the topic, however its first line is read. -/
theorem item_draft {form : ItemForm} {name type : Text}
    (hline : Item.ofLine convention form (t.draft n convention).line =
      ⟨name, type, t.begun convention⟩) :
    (t.draft n convention).item convention form = ⟨name, type, t.lines⟩ := by
  have hdescription : t.begun convention ++ dedent (t.draft n convention).below = t.lines := by
    have hmore := (List.forall_mem_cons.1 t.prose).2
    cases convention with
    | google =>
      have hdedent := dedent_pad hmore (List.forall_mem_nil _) (n + t.hang)
      rw [List.append_nil, List.append_nil] at hdedent
      exact congrArg (t.first :: ·) hdedent
    | numpy =>
      have hdedent := dedent_pad t.prose (List.forall_mem_nil _) t.hang
      rw [List.append_nil, List.append_nil] at hdedent
      exact hdedent
  rw [Draft.item, hline]
  exact congrArg (Item.mk name type) hdescription

theorem described_item (name type : Text) :
    described ⟨name, type, t.lines⟩ = t.first :: t.more := by
  have hne : ∀ line ∈ t.lines, line ≠ [] := fun line hline =>
    (isSolid_of_isProse (t.prose line hline)).ne_nil
  have hstrip : stripEmpty (t.lines ++ []) = t.lines :=
    stripEmpty_append (fun he => hne [] (List.mem_of_head? he) rfl)
      (fun he => hne [] (List.mem_of_getLast? he) rfl) (List.forall_mem_nil _)
  rwa [List.append_nil] at hstrip

end Topic

/-! ## Sheets -/

structure Sheet where
  summary : List Text
  caption : Caption
  indent : Nat
  topics : List Topic
  prose : IsProseLines summary
  indented : 0 < indent
  nonempty : topics ≠ []

namespace Sheet

def drafts (convention : Convention) (s : Sheet) : List Draft :=
  s.topics.map fun t => t.draft s.indent convention

def sectionLines (convention : Convention) (s : Sheet) : List Text :=
  s.caption.lines convention ++ (s.drafts convention).flatMap Draft.lines

def lines (convention : Convention) (s : Sheet) : List Text :=
  s.summary ++ [] :: s.sectionLines convention

variable {convention : Convention} (s : Sheet)

theorem isTrimmed_sectionLines :
    ∀ line ∈ s.sectionLines convention, IsTrimmed line ∧ line ≠ [] := by
  intro line hline
  rcases List.mem_append.1 hline with hline | hline
  · exact s.caption.isTrimmed_lines convention line hline
  · obtain ⟨draft, hdraft, hline⟩ := List.mem_flatMap.1 hline
    obtain ⟨t, -, rfl⟩ := List.mem_map.1 hdraft
    exact t.isTrimmed_draft s.indented line hline

theorem isTrimmed_below : ∀ line ∈ [] :: s.sectionLines convention, IsTrimmed line :=
  List.forall_mem_cons.2 ⟨isTrimmed_nil, fun line hline => (s.isTrimmed_sectionLines line hline).1⟩

theorem isTrimmed_lines : ∀ line ∈ s.lines convention, IsTrimmed line :=
  fun line hline => (List.mem_append.1 hline).elim
    (fun hline => isTrimmed_of_isProse (s.prose.prose line hline)) (s.isTrimmed_below line)

theorem getLast?_lines : (s.lines convention).getLast? ≠ some [] := by
  obtain ⟨t, more, hcaption⟩ := s.caption.exists_lines convention
  have hne : s.sectionLines convention ≠ [] := by simp [sectionLines, hcaption]
  refine getLast?_summary s.prose ?_
  rw [← List.singleton_append, List.getLast?_append_of_ne_nil _ hne]
  exact fun he => (s.isTrimmed_sectionLines [] (List.mem_of_getLast? he)).2 rfl

theorem drafts_ne_nil : s.drafts convention ≠ [] := by simp [drafts, s.nonempty]

theorem hangsAt_drafts :
    ∀ draft ∈ s.drafts convention, draft.HangsAt (margin s.indent convention) := by
  intro draft hdraft
  obtain ⟨t, -, rfl⟩ := List.mem_map.1 hdraft
  exact t.hangsAt_draft

/-- The section opens at its heading. -/
theorem opens_sectionLines : Opens convention (s.sectionLines convention) := by
  have hindent : firstIndent? ((s.drafts convention).flatMap Draft.lines ++ []) =
      some (margin s.indent convention) :=
    (firstIndent?_drafts s.drafts_ne_nil s.hangsAt_drafts []).1
  rw [List.append_nil] at hindent
  have hbody (h : convention = .google) :
      0 < (firstIndent? ((s.drafts convention).flatMap Draft.lines)).getD 0 := by
    rw [hindent]
    exact margin_pos s.indented h
  refine Or.inr ?_
  rw [sectionLines, s.caption.opening?_lines hbody]
  rfl

/-- Where headings are underlined none has a colon. -/
theorem canonical_google_numpy : canonical .google (s.lines .numpy) = s.lines .numpy := by
  refine canonical_eq_self (fun line hline => (s.isTrimmed_lines line hline).trimEnd)
    (unopened_google fun line hline => ?_)
  rcases List.mem_append.1 hline with hline | hline
  · exact ofColonLine?_of_prose (Or.inr (endsInProse_of_isProse (s.prose.prose line hline)))
  · rcases List.mem_cons.1 hline with rfl | hline
    · rfl
    · rcases List.mem_append.1 hline with hline | hline
      · exact s.caption.ofColonLine?_lines line hline
      · obtain ⟨draft, hdraft, hline⟩ := List.mem_flatMap.1 hline
        obtain ⟨t, -, rfl⟩ := List.mem_map.1 hdraft
        exact t.ofColonLine?_draft line hline

/-! ## The canonical form -/

section Canonical

variable {itemOf : Topic → Item} {fields : List Field}
  (hitem : ∀ t ∈ s.topics,
    (t.draft s.indent convention).item convention s.caption.kind.form = itemOf t)
  (hdescription : ∀ t, (itemOf t).description = t.lines)
  (hfields : Joins (itemLines (s.topics.map itemOf) s.caption.heading)
    (fields.flatMap Field.lines ++ [[]]))

include hitem hdescription

/-- A sheet becomes its summary and what is written for its items. -/
theorem canonical_lines : canonical convention (s.lines convention) =
    s.summary ++ [] :: itemLines (s.topics.map itemOf) s.caption.heading := by
  have hdrafts : (s.drafts convention).map (Draft.item convention s.caption.kind.form) =
      s.topics.map itemOf := by
    rw [drafts, List.map_map]
    exact List.map_congr_left hitem
  have hkept : ∀ item ∈ (s.drafts convention).map (Draft.item convention s.caption.kind.form),
      canonical convention item.description = item.description ∧ item.isEmpty = false := by
    rw [hdrafts]
    intro item hmem
    obtain ⟨t, -, rfl⟩ := List.mem_map.1 hmem
    refine ⟨?_, by simp [Item.isEmpty, hdescription, Topic.lines]⟩
    rw [hdescription]
    exact canonical_of_prose fun line hline => Or.inr (endsInProse_of_isProse (t.prose line hline))
  have hparts := s.caption.canonicalParts_lines (margin_pos s.indented) s.drafts_ne_nil
    s.hangsAt_drafts (Topic.unbroken_drafts s.indented) rfl hkept
  rw [List.append_nil, canonicalParts, List.append_nil, hdrafts] at hparts
  have hunopened : Unopened convention (s.sectionLines convention) (s.summary ++ [[]]) :=
    s.caption.unopened_above s.prose (fun line hline => List.mem_singleton.1 hline) _
  have hlines : s.lines convention = (s.summary ++ [[]]) ++ s.sectionLines convention := by
    rw [lines, List.append_assoc, List.singleton_append]
  have hstarted : (!(s.summary ++ [[]]).isEmpty) = true := by simp
  have htrim : ∀ line ∈ s.lines convention, IsTrimmed line := s.isTrimmed_lines
  rw [hlines] at htrim ⊢
  rw [canonical_of_unopened (fun line hline => (htrim line hline).trimEnd) hunopened
    s.opens_sectionLines, hstarted, sectionLines, hparts]
  simp

include hfields

/-- The field list that the section becomes. -/
theorem trimmedLines_canonical (hlaid : ∀ f ∈ fields, f.IsLaid) (hne : fields ≠ []) :
    trimmedLines (DocReader.standard.canonical (unlines (s.lines convention))) =
      s.summary ++ Field.written (none :: fields.map some) := by
  have hindent : ∃ line ∈ [] :: s.sectionLines convention, line ≠ [] ∧ Text.indent line = 0 := by
    obtain ⟨line, hline, hindent⟩ := s.caption.exists_indent convention
    exact ⟨line, List.mem_cons_of_mem _ (List.mem_append_left _ hline), hindent⟩
  have hmargin : cleanMargin (unlines (s.lines convention)) = unlines (s.lines convention) :=
    cleanMargin_unlines s.prose s.isTrimmed_below (Or.inr hindent) s.getLast?_lines
  have hgoogle (hnumpy : convention = .numpy) :
      canonical .google (s.lines convention) = s.lines convention := by
    subst hnumpy
    exact s.canonical_google_numpy
  have hwritten : Field.written (none :: fields.map some) = [] :: fields.flatMap Field.lines :=
    congrArg (List.cons []) (Field.written_map_some fields)
  have hpieces : ∀ f ∈ (none :: fields.map some).reduceOption, f.IsLaid := by
    rwa [List.reduceOption_cons_of_none, reduceOption_map_some]
  have hlast : (none :: fields.map some).getLast? ≠ some none := by
    rw [← List.singleton_append, List.getLast?_append_of_ne_nil _ (by simpa using hne)]
    exact getLast?_map_some fields
  have hjoins : Joins (canonical convention (s.lines convention))
      (s.summary ++ Field.written (none :: fields.map some) ++ [[]]) := by
    rw [s.canonical_lines hitem hdescription, hwritten, List.append_assoc]
    exact (joins_self s.summary).append ((joins_self [[]]).append hfields)
  exact trimmedLines_canonical_sections hmargin s.isTrimmed_lines s.getLast?_lines hgoogle hjoins
    (endsInProse_of_document s.prose hpieces)
    (getLast?_summary s.prose (Field.getLast?_written hpieces hlast))

/-- The tree of a sheet: its summary, and the blocks of the fields. -/
theorem exists_parse (hlaid : ∀ f ∈ fields, f.IsLaid) (hne : fields ≠ []) :
    ∃ number blocks, Block.parse Role.usual
        (DocReader.standard.canonical (unlines (s.lines convention))) =
          .ok (.paragraph number [.text (unlines s.summary)] :: blocks.flatten) ∧
      List.Forall₂ Field.ReadAs fields blocks ∧
      Block.KeepsCount (.paragraph number [.text (unlines s.summary)] :: blocks.flatten) ∧
      Block.describe (.paragraph number [.text (unlines s.summary)] :: blocks.flatten) =
        unlines s.summary := by
  have hreduce : (none :: fields.map some).reduceOption = fields := by
    rw [List.reduceOption_cons_of_none, reduceOption_map_some]
  have hpieces : ∀ f ∈ (none :: fields.map some).reduceOption, f.IsLaid := by rwa [hreduce]
  obtain ⟨number, blocks, hparse, hread⟩ := Block.parse_laid Role.usual s.prose hpieces
    (fun f => nofun) (s.trimmedLines_canonical hitem hdescription hfields hlaid hne)
  rw [hreduce] at hread
  exact ⟨number, blocks, hparse, hread,
    (Block.keepsCount_paragraph _ _).cons (Field.keepsCount_of_readAs hread),
    (Block.describe_document s.prose.isSolid number (Field.isField_of_readAs hread)).2⟩

end Canonical

end Sheet
end Outline
end CallDoc
