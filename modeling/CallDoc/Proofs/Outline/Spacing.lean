import CallDoc.Proofs.Markup.Inline
import CallDoc.Proofs.Outline.Agreement

/-!
The empty lines between prose and sections. A section is found with or without them and
turned into fields either way, but a field directly below prose is a line of its paragraph:
what the first section says is read exactly when an empty line stands before it.
-/
namespace CallDoc

open Text Section

/-! ## Fields that go on a paragraph -/

theorem Field.not_mem_lines {f : Field} (h : f.IsWritten) (hname : '\x60' ∉ f.name) :
    ∀ line ∈ f.lines, '\x60' ∉ line := by
  have hprose {line : Text} (hline : isProse line = true) : '\x60' ∉ line := fun hmem =>
    isProse_ne hline hmem (by decide) (by decide) rfl
  have hmark : '\x60' ∉ f.mark ++ [' '] := by
    have hrole : '\x60' ∉ f.role := by
      have hroles : ∀ role ∈ Field.roles, '\x60' ∉ role := by decide
      exact hroles f.role h.role
    simp [Field.mark, fieldMark, hrole, hname]
  obtain ⟨first, more, hbody⟩ := List.exists_cons_of_ne_nil h.body.ne_nil
  have hlines := h.body.prose
  rw [hbody] at hlines
  obtain ⟨hfirst, hmore⟩ := List.forall_mem_cons.1 hlines
  rw [Field.lines_eq hbody, List.forall_mem_cons]
  refine ⟨fun hmem => ?_, fun line hline hmem => ?_⟩
  · exact (List.mem_append.1 hmem).elim hmark (hprose hfirst)
  · obtain ⟨t, ht, rfl⟩ := List.mem_map.1 hline
    exact (List.mem_append.1 hmem).elim (not_mem_spaces (by decide) f.pad) (hprose (hmore t ht))

namespace Block

variable (roles : List Text)

/-- A field list directly below prose is a part of the paragraph, up to the first empty line. -/
theorem parse_unspaced {prose : List Text} (hprose : IsProseLines prose) {fields : List Field}
    (hfields : ∀ f ∈ fields, f.IsWritten ∧ '\x60' ∉ f.name) {pieces : List (Option Field)}
    (hpieces : ∀ f ∈ pieces.reduceOption, f.IsWritten)
    (hgap : ∀ f, pieces.head? ≠ some (some f)) {t : Text}
    (ht : trimmedLines t = prose ++ fields.flatMap Field.lines ++ Field.written pieces) :
    ∃ number spans blocks, parse roles t = .ok (.paragraph number spans :: blocks) ∧
      List.Forall₂ Field.Read pieces.reduceOption blocks := by
  obtain ⟨start, more, hstart⟩ := List.exists_cons_of_ne_nil hprose.ne_nil
  have hends : ∀ line ∈ prose ++ fields.flatMap Field.lines, EndsInProse line ∧ '\x60' ∉ line := by
    intro line hline
    rcases List.mem_append.1 hline with hline | hline
    · have hprose := hprose.prose line hline
      exact ⟨endsInProse_of_isProse hprose, fun hmem =>
        isProse_ne hprose hmem (by decide) (by decide) rfl⟩
    · obtain ⟨f, hf, hline⟩ := List.mem_flatMap.1 hline
      obtain ⟨hwritten, hname⟩ := hfields f hf
      exact ⟨Field.endsInProse hwritten.isLaid line hline,
        Field.not_mem_lines hwritten hname line hline⟩
  have hprose := startsParagraph_of_isProse (hprose.prose start (hstart ▸ List.mem_cons_self))
  rw [hstart, List.cons_append] at hends ht
  obtain ⟨number, after, hcut, hafter⟩ := Frame.cut_endsInProse hprose
    (fun line hline => (hends line hline).1) (Field.head?_written hgap)
    ((Line.map_text_ofText t).trans ht)
  obtain ⟨blocks, hblocks, hread⟩ := exists_read_of_written roles hpieces hafter
  have hbackquote :
      '\x60' ∉ unlines ((start :: (more ++ fields.flatMap Field.lines)).map trim) := by
    intro hmem
    rcases mem_unlines hmem with he | ⟨trimmed, htrimmed, hmem⟩
    · revert he
      decide
    · obtain ⟨line, hline, rfl⟩ := List.mem_map.1 htrimmed
      obtain ⟨hline, hnot⟩ := hends line hline
      exact hnot (hline.isTrimmed.trim_suffix.subset hmem)
  obtain ⟨spans, hspans⟩ := Inline.exists_scan_of_not_mem hbackquote roles none
  refine ⟨number, spans, blocks, ?_, hread⟩
  rw [parse, ofLines_eq, hcut, List.mapM_cons, hblocks, Frame.toBlock, Inline.parse, hspans]
  rfl

end Block

namespace Outline

/-- The outline without its first group. -/
def later (o : Outline) : Outline where
  summary := o.summary
  groups := o.groups.tail
  prose := o.prose
  distinct := by
    have hdistinct := o.distinct
    cases hgroups : o.groups with
    | nil => exact List.nodup_nil
    | cons g more =>
      rw [hgroups, List.flatMap_cons, List.map_append] at hdistinct
      exact hdistinct.of_append_right

theorem Entry.Spells.not_mem {e : Entry} {t : Text} (h : e.Spells t) : '\x60' ∉ t := by
  obtain ⟨lead, rfl, hlead⟩ := h
  rw [List.mem_append, not_or]
  refine ⟨fun hmem => ?_, fun hmem => ?_⟩
  · exact (hlead _ hmem).elim (by decide) (by decide)
  · exact isName_ne e.named hmem (d := '\x60') (by decide) (by decide) rfl

theorem Entry.spells_fields {e : Entry} {role typeRole name : Text} {pad : Nat}
    (h : e.Spells name) : ∀ f ∈ e.fields role typeRole name pad, e.Spells f.name := by
  refine List.forall_mem_cons.2 ⟨h, fun f hf => ?_⟩
  obtain ⟨type, -, rfl⟩ := List.mem_map.1 hf
  exact h

theorem Group.not_mem_canonicalFields (g : Group) : ∀ f ∈ g.canonicalFields, '\x60' ∉ f.name := by
  intro f hf
  obtain ⟨e, -, hf⟩ := List.mem_flatMap.1 hf
  cases hkind : g.kind <;> rw [hkind] at hf
  · exact (Entry.spells_fields e.spells_escaped f hf).not_mem
  · exact (Entry.spells_fields e.spells_name f hf).not_mem

variable (convention : Convention) (o : Outline)

/-- Where sections stand directly below the summary the first of them is lost in it. -/
theorem readText_unspacedLines (h : o.groups ≠ []) :
    ∃ doc, DocReader.standard.readText (unlines (o.spacedLines convention 0)) = .ok doc ∧
      doc.params = o.later.doc.params ∧ doc.raises = o.later.doc.raises := by
  obtain ⟨g, more, hgroups⟩ := List.exists_cons_of_ne_nil h
  have hmore : o.later.groups = more := congrArg List.tail hgroups
  have hwritten : ∀ f ∈ (spaced Group.canonicalFields more).reduceOption, f.IsWritten := by
    intro f hf
    rw [reduceOption_spaced] at hf
    obtain ⟨g, -, hf⟩ := List.mem_flatMap.1 hf
    exact g.isWritten_canonicalFields f hf
  have hlines := trimmedLines_canonical_spacedLines convention 0 o h
  have hfields : o.spacedFields 0 =
      g.canonicalFields.map some ++ spaced Group.canonicalFields more := by
    rw [spacedFields, hgroups]
    rfl
  rw [hfields, Field.written_append, Field.written_map_some, ← List.append_assoc] at hlines
  obtain ⟨number, spans, blocks, hparse, hread⟩ := Block.parse_unspaced Role.usual o.prose
    (fun f hf => ⟨g.isWritten_canonicalFields f hf, g.not_mem_canonicalFields f hf⟩) hwritten
    (head?_spaced _ more) hlines
  have hdeclare : Block.declareAll .empty (.paragraph number spans :: blocks) =
      .ok ⟨o.later.doc.params, o.later.doc.raises⟩ := by
    have hmeaning := map_meaning_canonicalFields more
    rw [← reduceOption_spaced Group.canonicalFields more] at hmeaning
    refine (Block.declareAll_of_read hwritten hread .empty).trans ?_
    rw [Field.foldlM_declare_congr hmeaning, ← hmore, foldlM_fields o.later.distinct fun _ _ => rfl]
    rfl
  refine ⟨⟨Block.summarize (.paragraph number spans :: blocks),
    Block.describe (.paragraph number spans :: blocks), o.later.doc.params, o.later.doc.raises⟩,
    ?_, rfl, rfl⟩
  change (Block.parse Role.usual _).bind Doc.ofBlocks = _
  rw [hparse]
  change Doc.ofBlocks _ = _
  rw [Doc.ofBlocks, hdeclare]
  rfl

/-- Only the parameters of the outline have a description. -/
theorem find?_doc_eq_none {name : Text}
    (h : name ∉ (o.groups.flatMap Group.params).map Entry.name) :
    o.doc.params.find? name = none := find?_foldl_record h []

/-- The first group has a parameter or an error of its own. -/
theorem doc_ne_of_later {doc : Doc} (h : o.groups ≠ []) (hparams : doc.params = o.later.doc.params)
    (hraises : doc.raises = o.later.doc.raises) : doc ≠ o.doc := by
  rintro rfl
  obtain ⟨g, more, hgroups⟩ := List.exists_cons_of_ne_nil h
  have hmore : o.later.groups = more := congrArg List.tail hgroups
  obtain ⟨e, entries, hentries⟩ := List.exists_cons_of_ne_nil g.nonempty
  cases hkind : g.kind with
  | params =>
    have he : e ∈ g.params := by rw [Group.params, if_pos hkind, hentries]; exact List.mem_cons_self
    have hnew : e.name ∉ (o.later.groups.flatMap Group.params).map Entry.name := by
      have hdistinct := o.distinct
      rw [hgroups, List.flatMap_cons, List.map_append] at hdistinct
      rw [hmore]
      exact (List.disjoint_of_nodup_append hdistinct) (List.mem_map_of_mem he)
    have hfound := o.find?_doc (e := e) (by rw [hgroups]; exact List.mem_append_left _ he)
    rw [hparams, o.later.find?_doc_eq_none hnew] at hfound
    cases hfound
  | errors =>
    have herrors : g.errors = g.entries := if_pos hkind
    have hlength := congrArg List.length hraises
    simp only [doc, hgroups, hmore, List.flatMap_cons, herrors, hentries, List.map_append,
      List.map_cons, List.length_append, List.length_cons] at hlength
    omega

/-- The sections below a summary are read as what they say exactly when an empty line stands
before the first of them. -/
theorem readText_spacedLines_iff (gap : Nat) (h : o.groups ≠ []) :
    (DocReader.standard.readText (unlines (o.spacedLines convention gap)) = .ok o.doc ↔ 0 < gap) ∧
      (∀ e ∈ o.groups.flatMap Group.params,
        o.doc.params.find? e.name = some ⟨some (unlines e.lines), e.type?⟩) ∧
      ∀ name ∉ (o.groups.flatMap Group.params).map Entry.name, o.doc.params.find? name = none := by
  refine ⟨?_, fun e he => find?_doc o he, fun name => o.find?_doc_eq_none⟩
  cases gap with
  | zero =>
    obtain ⟨doc, hdoc, hparams, hraises⟩ := o.readText_unspacedLines convention h
    rw [hdoc, Except.ok.injEq]
    exact iff_of_false (o.doc_ne_of_later h hparams hraises) (lt_irrefl 0)
  | succ gap => exact iff_of_true (readText_spacedLines convention gap o h) gap.succ_pos

theorem readText_spacedLines_iff_sum :
    let doc : Doc := ⟨"Add up".toList, "Add up".toList,
      [("args".toList, ⟨some "Numbers,\nat least one".toList, some "int".toList⟩)],
      ["ValueError".toList]⟩
    DocReader.standard.readText (unlines <| List.map String.toList
        ["Add up", "", "", "Args:", "    *args (int): Numbers,", "      at least one", "",
          "Raises:", "    ValueError: None given"]) = .ok doc ∧
      DocReader.standard.readText (unlines <| List.map String.toList
        ["Add up", "Args:", "    *args (int): Numbers,", "      at least one", "", "Raises:",
          "    ValueError: None given"]) ≠ .ok doc := by
  have hgroups : sum.groups ≠ [] := List.cons_ne_nil _ _
  obtain ⟨hspaced, -⟩ := readText_spacedLines_iff .google sum 2 hgroups
  obtain ⟨hunspaced, -⟩ := readText_spacedLines_iff .google sum 0 hgroups
  exact ⟨hspaced.2 (by decide), fun h => absurd (hunspaced.1 h) (by decide)⟩

/-- The section is recognized, and its field is shown as a line of the summary. -/
theorem readText_unspaced_args :
    DocReader.standard.canonical "foo\nArgs:\n  x: X".toList = "foo\n:param x: X".toList ∧
      DocReader.standard.readText "foo\nArgs:\n  x: X".toList =
        .ok ⟨"foo\n:param x: X".toList, "foo\n:param x: X".toList, [], []⟩ := by
  decide +kernel

end Outline
end CallDoc
