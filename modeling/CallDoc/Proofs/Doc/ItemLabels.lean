import CallDoc.Proofs.Doc.Passages

/-!
Where the label of an item is shown. It stands before the first prose of the item, in the columns
behind those of all that the item lies in, and nowhere else. Literal text is not led in: a label
waits for the prose behind it, and an item without prose shows none.
-/
namespace CallDoc

open Text

/-- Something of the passage is shown. -/
def Passage.isShown (p : Passage) : Bool :=
  match p.matter with
  | .prose _ | .literal _ => true
  | .skipped | .field => false

theorem Passage.isShown_of_isProse {p : Passage} (h : p.isProse = true) : p.isShown = true := by
  unfold isProse at h
  unfold isShown
  split at h
  · rename_i text htext
    rw [htext]
  · cases h

namespace Container

variable {c : Container} {before : List Passage} {place : List Nat} {label : Text}

/-- What the text has in the columns of a container, behind those of the outer ones. -/
def columns (c : Container) (outer : List Container) (text : Text) : Text :=
  (text.drop (width outer)).take c.mark.length

theorem columns_lead (before : List Passage) (inner : List Container) (c : Container)
    (outer : List Container) (rest : Text) :
    c.columns outer ((lead before (inner ++ c :: outer)).text ++ rest) = c.shown before := by
  have htext : (lead before (inner ++ c :: outer)).text =
      (lead before outer).text ++ (c.shown before ++ (lead before inner).text) := by
    simp [Lead.text, lead]
  rw [columns, htext, List.append_assoc, List.append_assoc, ← length_text_lead before outer,
    List.drop_left, ← length_shown before c, List.take_left]

/-- Spaces in the place of a label are not taken for it. -/
theorem shown_eq_label_iff (hlabel : ∃ d ∈ label, d ≠ ' ') :
    shown before (.item place label) = label ↔ ¬ Opened before (.item place label) := by
  rw [shown]
  split
  · rename_i hopened
    refine iff_of_false (fun he => ?_) (not_not_intro hopened)
    obtain ⟨d, hd, hspace⟩ := hlabel
    rw [← he] at hd
    exact hspace (List.eq_of_mem_replicate hd)
  · rename_i hopened
    exact iff_of_true rfl hopened

/-- The passage that opens a container is the first prose in it. -/
theorem exists_opening {ps : List Passage} (h : c.Opened ps) :
    ∃ before p after, ps = before ++ p :: after ∧ p.isProse = true ∧ c ∈ p.around ∧
      ¬ c.Opened before := by
  obtain ⟨q, hq, hprose, hmem⟩ := h
  obtain ⟨p, hp⟩ : ∃ p, ps.find? (fun p => p.isProse && decide (c ∈ p.around)) = some p :=
    Option.isSome_iff_exists.1 (List.find?_isSome.2 ⟨q, hq, by simp [hprose, hmem]⟩)
  obtain ⟨hfirst, before, after, rfl, hbefore⟩ := List.find?_eq_some_iff_append.1 hp
  simp only [Bool.and_eq_true, decide_eq_true_eq] at hfirst
  refine ⟨before, p, after, rfl, hfirst.1, hfirst.2, fun ⟨q, hq, hprose, hmem⟩ => ?_⟩
  have hnone := hbefore q hq
  simp [hprose, hmem] at hnone

end Container

namespace Block

open Container

/-- The chunk of this number is prose in the item, and its first line has the label of the item in
the columns of the item. -/
def ShowsLabel (blocks : List Block) (c : Container) (i : Nat) : Prop :=
  ∃ p inner outer line text, (passagesOf blocks)[i]? = some p ∧ p.isProse = true ∧
    p.around = inner ++ c :: outer ∧ (chunksOfAll [] blocks).1[i]? = some (.prose line text) ∧
    c.columns outer text = c.mark

section Document

variable {roles : List Text} {t : Text} {blocks : List Block} {place : List Nat} {label : Text}
  {before after : List Passage} {p : Passage} {i : Nat}

theorem getElem?_chunksOfAll (hkeeps : KeepsCount blocks)
    (hpassages : passagesOf blocks = before ++ p :: after) :
    (chunksOfAll [] blocks).1[before.length]? = some (p.chunk before) := by
  rw [chunksOfAll_nil hkeeps, hpassages, Passage.getElem?_chunks]

/-- Behind the outer containers, prose starts with what its container shows. -/
theorem exists_chunk_of_isProse (hkeeps : KeepsCount blocks)
    (hpassages : passagesOf blocks = before ++ p :: after)
    (hprose : p.isProse = true) {inner outer : List Container} {c : Container}
    (haround : p.around = inner ++ c :: outer) :
    ∃ text, (chunksOfAll [] blocks).1[before.length]? = some (.prose p.line text) ∧
      c.columns outer text = c.shown before := by
  unfold Passage.isProse at hprose
  split at hprose
  · rename_i text htext
    rw [getElem?_chunksOfAll hkeeps hpassages, Passage.chunk, htext]
    refine ⟨_, rfl, ?_⟩
    rw [haround, columns_lead]
  · cases hprose

theorem showsLabel_iff (h : parse roles t = .ok blocks) (hkeeps : KeepsCount blocks)
    (hpassages : passagesOf blocks = before ++ p :: after) :
    ShowsLabel blocks (.item place label) before.length ↔
      p.isProse = true ∧ .item place label ∈ p.around ∧ ¬ Opened before (.item place label) := by
  have hp : (passagesOf blocks)[before.length]? = some p := by simp [hpassages]
  have hseen (hmem : .item place label ∈ p.around) : ∃ d ∈ label, d ≠ ' ' :=
    have hlabel : IsSeen label :=
      labelled_of_parse h hkeeps p (List.mem_of_getElem? hp) (.item place label) hmem
    hlabel.2
  constructor
  · rintro ⟨q, inner, outer, line, text, hq, hprose, haround, hchunk, hcolumns⟩
    obtain rfl := Option.some.inj (hp.symm.trans hq)
    obtain ⟨shown, hshown, hstart⟩ := exists_chunk_of_isProse hkeeps hpassages hprose haround
    obtain ⟨-, rfl⟩ := Chunk.prose.inj (Option.some.inj (hshown.symm.trans hchunk))
    have hmem : .item place label ∈ p.around :=
      haround ▸ List.mem_append_right _ List.mem_cons_self
    exact ⟨hprose, hmem, (shown_eq_label_iff (hseen hmem)).1 (hstart.symm.trans hcolumns)⟩
  · rintro ⟨hprose, hmem, hopened⟩
    obtain ⟨inner, outer, haround⟩ := List.append_of_mem hmem
    obtain ⟨shown, hshown, hstart⟩ := exists_chunk_of_isProse hkeeps hpassages hprose haround
    exact ⟨p, inner, outer, p.line, shown, hp, hprose, haround, hshown,
      hstart.trans ((shown_eq_label_iff (hseen hmem)).2 hopened)⟩

/-- The chunk that shows a label is that of the first prose in the item. -/
theorem exists_of_showsLabel (h : parse roles t = .ok blocks) (hkeeps : KeepsCount blocks)
    (hi : ShowsLabel blocks (.item place label) i) :
    ∃ before p after, passagesOf blocks = before ++ p :: after ∧ before.length = i ∧
      p.isProse = true ∧ .item place label ∈ p.around ∧ ¬ Opened before (.item place label) := by
  obtain ⟨p, _, _, _, _, hp, -⟩ := id hi
  obtain ⟨hlt, rfl⟩ := List.getElem?_eq_some_iff.1 hp
  have hpassages : passagesOf blocks = (passagesOf blocks).take i ++
      (passagesOf blocks)[i] :: (passagesOf blocks).drop (i + 1) := by
    rw [← List.drop_eq_getElem_cons hlt, List.take_append_drop]
  have hlength : ((passagesOf blocks).take i).length = i :=
    List.length_take_of_le (Nat.le_of_lt hlt)
  rw [← hlength] at hi
  exact ⟨_, _, _, hpassages, hlength, (showsLabel_iff h hkeeps hpassages).1 hi⟩

theorem showsLabel_le (h : parse roles t = .ok blocks) (hkeeps : KeepsCount blocks) {j : Nat}
    (hi : ShowsLabel blocks (.item place label) i)
    (hj : ShowsLabel blocks (.item place label) j) : j ≤ i := by
  obtain ⟨before, p, after, hpassages, rfl, hprose, hmem, -⟩ := exists_of_showsLabel h hkeeps hi
  obtain ⟨earlier, q, later, hlater, rfl, -, -, hopened⟩ := exists_of_showsLabel h hkeeps hj
  -- the prose of the one chunk would open the item before the other one
  refine Nat.le_of_not_lt fun hlt => hopened ⟨p, ?_, hprose, hmem⟩
  have hp : (earlier ++ q :: later)[before.length]? = some p := by
    rw [← hlater, hpassages]
    simp
  rw [List.getElem?_append_left hlt] at hp
  exact List.mem_of_getElem? hp

/-- The first thing that is shown of an item has the label in front of it if and only if it is
prose; literal text never has one. The label is shown once when there is prose in the item,
before the first of it, and not at all otherwise. The numbers of the lists stay below the
largest; beyond it a list shows nothing (`chunks_of_startsOver`). -/
theorem label_of_parse (hparse : parse roles t = .ok blocks) (hkeeps : KeepsCount blocks)
    {doc : Doc} (hdoc : Doc.ofBlocks blocks = .ok doc) (place : List Nat) (label : Text) :
    doc.description = Chunk.description (chunksOfAll [] blocks).1 ∧
    (∀ before p after, passagesOf blocks = before ++ p :: after → p.isShown = true →
      .item place label ∈ p.around →
      (∀ q ∈ before, q.isShown = true → .item place label ∉ q.around) →
      (ShowsLabel blocks (.item place label) before.length ↔ p.isProse = true)) ∧
    ((∃ i, ShowsLabel blocks (.item place label) i) ↔
      Opened (passagesOf blocks) (.item place label)) ∧
    (∀ i j, ShowsLabel blocks (.item place label) i → ShowsLabel blocks (.item place label) j →
      i = j) ∧
    ∀ before p after text, passagesOf blocks = before ++ p :: after → p.matter = .literal text →
      (chunksOfAll [] blocks).1[before.length]? =
        some (.prose p.line (quoteIndent ++ hang quoteIndent text)) := by
  obtain ⟨d, -, rfl⟩ := map_eq_ok_iff.1 hdoc
  refine ⟨rfl, ?first, ⟨?shown, ?prose⟩, fun i j hi hj =>
    Nat.le_antisymm (showsLabel_le hparse hkeeps hj hi) (showsLabel_le hparse hkeeps hi hj), ?literal⟩
  case first =>
    intro before p after hpassages _ hmem hfirst
    rw [showsLabel_iff hparse hkeeps hpassages]
    refine ⟨And.left, fun hprose => ⟨hprose, hmem, ?_⟩⟩
    rintro ⟨q, hq, hqprose, hqmem⟩
    exact hfirst q hq (Passage.isShown_of_isProse hqprose) hqmem
  case shown =>
    rintro ⟨i, hi⟩
    obtain ⟨before, p, after, hpassages, -, hprose, hmem, -⟩ := exists_of_showsLabel hparse hkeeps hi
    exact ⟨p, hpassages ▸ List.mem_append_right _ List.mem_cons_self, hprose, hmem⟩
  case prose =>
    intro hopened
    obtain ⟨before, p, after, hpassages, hp⟩ := exists_opening hopened
    exact ⟨before.length, (showsLabel_iff hparse hkeeps hpassages).2 hp⟩
  case literal =>
    intro before p after text hpassages htext
    rw [getElem?_chunksOfAll hkeeps hpassages, Passage.chunk, htext]

end Document

/-- A literal block before the prose of its item: the label waits for the prose. -/
theorem label_of_parse_literal :
    ∃ blocks doc literal prose, parse [] "-\n  ::\n\n    x\n\n  y".toList = .ok blocks ∧
      KeepsCount blocks ∧ Doc.ofBlocks blocks = .ok doc ∧ passagesOf blocks = [literal, prose] ∧
      literal = ⟨3, .literal "x".toList, [.item [0, 0] "- ".toList]⟩ ∧
      doc.description = "    x\n\n- y".toList ∧
      ¬ ShowsLabel blocks (.item [0, 0] "- ".toList) 0 ∧
      ∃ i, ShowsLabel blocks (.item [0, 0] "- ".toList) i := by
  have hread : ((parse [] "-\n  ::\n\n    x\n\n  y".toList).bind fun blocks =>
      (Doc.ofBlocks blocks).map fun doc =>
        (decide (KeepsCount blocks), passagesOf blocks, doc.description)) =
      .ok (true, [⟨3, .literal "x".toList, [.item [0, 0] "- ".toList]⟩,
        ⟨5, .prose "y".toList, [.item [0, 0] "- ".toList]⟩], "    x\n\n- y".toList) := by
    decide +kernel
  obtain ⟨blocks, hparse, hblocks⟩ := bind_eq_ok_iff.1 hread
  obtain ⟨doc, hdoc, he⟩ := map_eq_ok_iff.1 hblocks
  obtain ⟨hdecided, he⟩ := Prod.mk.inj he
  obtain ⟨hpassages, hdescription⟩ := Prod.mk.inj he
  have hkeeps := of_decide_eq_true hdecided
  obtain ⟨-, hfirst, hshown, -⟩ := label_of_parse hparse hkeeps hdoc [0, 0] "- ".toList
  refine ⟨blocks, doc, _, _, hparse, hkeeps, hdoc, hpassages, rfl, hdescription, ?_, hshown.2 ?_⟩
  · have hliteral := hfirst [] _ _ hpassages rfl List.mem_cons_self (List.forall_mem_nil _)
    exact fun hlabel => Bool.false_ne_true (hliteral.1 hlabel)
  · rw [hpassages]
    decide

/-- In an item of literal text alone the label is lost. -/
theorem label_of_parse_lost :
    ∃ blocks doc, parse [] "-\n  ::\n\n    x".toList = .ok blocks ∧
      Doc.ofBlocks blocks = .ok doc ∧
      passagesOf blocks = [⟨3, .literal "x".toList, [.item [0, 0] "- ".toList]⟩] ∧
      doc.description = "    x".toList ∧ '-' ∉ doc.description := by
  have hread : ((parse [] "-\n  ::\n\n    x".toList).bind fun blocks =>
      (Doc.ofBlocks blocks).map fun doc => (passagesOf blocks, doc.description)) =
      .ok ([⟨3, .literal "x".toList, [.item [0, 0] "- ".toList]⟩], "    x".toList) := by
    decide +kernel
  obtain ⟨blocks, hparse, hblocks⟩ := bind_eq_ok_iff.1 hread
  obtain ⟨doc, hdoc, he⟩ := map_eq_ok_iff.1 hblocks
  obtain ⟨hpassages, hdescription⟩ := Prod.mk.inj he
  exact ⟨blocks, doc, hparse, hdoc, hpassages, hdescription, hdescription ▸ by decide⟩

end Block

end CallDoc
