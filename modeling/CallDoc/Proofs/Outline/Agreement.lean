import CallDoc.Proofs.Outline.Section

/-!
The ways to put an outline down agree: sections of both conventions are turned into a field
list, which means the same as one that is written by hand, and all of them are read as the
same documentation.
-/
namespace CallDoc

open Text Section

namespace Outline

variable {convention : Convention} {rest gap : List Text}

/-! ## Sections as fields -/

def Group.canonicalFields (g : Group) : List Field :=
  g.entries.flatMap fun e => e.canonicalFields g.keyword g.kind

theorem Group.isWritten_canonicalFields (g : Group) : ∀ f ∈ g.canonicalFields, f.IsWritten := by
  intro f hf
  obtain ⟨e, -, hf⟩ := List.mem_flatMap.1 hf
  exact Outline.isWritten_canonicalFields g.keyword e g.kind f hf

theorem Group.canonicalFields_ne_nil (g : Group) : g.canonicalFields ≠ [] := by
  obtain ⟨e, more, hentries⟩ := List.exists_cons_of_ne_nil g.nonempty
  rw [Group.canonicalFields, hentries, List.flatMap_cons]
  cases g.kind <;> exact List.cons_ne_nil _ _

/-- The fields mean what those written by hand do. -/
theorem map_meaning_canonicalFields (groups : List Group) :
    (groups.flatMap Group.canonicalFields).map Field.meaning =
      (groups.flatMap Group.fields).map Field.meaning := by
  simp only [List.map_flatMap]
  refine List.flatMap_congr fun g _ => ?_
  rw [Group.canonicalFields, Group.fields, List.map_flatMap, List.map_flatMap]
  exact List.flatMap_congr fun e _ => meaning_canonicalFields g.keyword e g.kind

theorem flatMap_paramFields {entries : List Entry} {items : List Item} (keyword : Bool)
    (h : List.Forall₂ (Entry.ReadAs .params) entries items) :
    items.flatMap (paramFields (paramRoles keyword).1 (paramRoles keyword).2) =
      (entries.flatMap fun e => e.canonicalFields keyword .params).flatMap Field.lines := by
  induction h with
  | nil => rfl
  | cons hitem _ ih =>
    obtain ⟨gap, hgap, rfl⟩ := hitem
    rw [List.flatMap_cons, List.flatMap_cons, List.flatMap_append, ih,
      paramFields_item hgap.eq_nil]

theorem joins_errorField {entries : List Entry} {items : List Item} (keyword : Bool)
    (hplain : ∀ e ∈ entries, e.type? = none)
    (h : List.Forall₂ (Entry.ReadAs .errors) entries items) :
    Joins (items.map errorField)
      ((entries.flatMap fun e => e.canonicalFields keyword .errors).flatMap Field.lines) := by
  induction h with
  | nil => exact joins_self []
  | cons hitem _ ih =>
    obtain ⟨hfirst, hmore⟩ := List.forall_mem_cons.1 hplain
    obtain ⟨gap, hgap, rfl⟩ := hitem
    rw [List.map_cons, List.flatMap_cons, List.flatMap_append, ← List.singleton_append]
    exact (errorField_item hfirst hgap.eq_nil keyword).append (ih hmore)

/-- A section is written as the fields of its entries and an empty line. -/
theorem Group.joins_itemLines (g : Group) {items : List Item}
    (h : List.Forall₂ (Entry.ReadAs g.kind) g.entries items) :
    Joins (itemLines items (g.kind.heading g.keyword))
      (g.canonicalFields.flatMap Field.lines ++ [[]]) := by
  rw [Group.canonicalFields]
  cases hkind : g.kind with
  | params =>
    rw [hkind] at h
    have hlines : itemLines items (Kind.params.heading g.keyword) =
        items.flatMap (paramFields (paramRoles g.keyword).1 (paramRoles g.keyword).2) ++ [[]] := by
      cases g.keyword <;> rfl
    rw [hlines, flatMap_paramFields g.keyword h]
    exact joins_self _
  | errors =>
    rw [hkind] at h
    have hne : items ≠ [] := by
      rintro rfl
      exact g.nonempty (List.forall₂_nil_right_iff.1 h)
    have hlines : itemLines items (Kind.errors.heading g.keyword) =
        items.map errorField ++ [[]] := by
      change errorFields items = _
      rw [errorFields, if_neg (by simpa using hne)]
    rw [hlines]
    exact (joins_errorField g.keyword (fun e he => (g.plain hkind e he).2) h).append (joins_self _)

/-- The descriptions hold no sections of their own, and no item says nothing. -/
theorem canonical_of_readAs {kind : Kind} {entries : List Entry} {items : List Item}
    (h : List.Forall₂ (Entry.ReadAs kind) entries items) :
    ∀ item ∈ items,
      canonical convention item.description = item.description ∧ item.isEmpty = false := by
  intro item hitem
  obtain ⟨e, -, gap, hgap, rfl⟩ := exists_of_mem_forall₂ h hitem
  have hprose : ∀ line ∈ e.lines ++ gap, line = [] ∨ EndsInProse line := fun line hline =>
    (List.mem_append.1 hline).elim
      (fun hline => Or.inr (endsInProse_of_isProse (e.prose line hline)))
      fun hline => Or.inl (hgap.eq_nil line hline)
  have hcanonical : canonical convention (e.lines ++ gap) = e.lines ++ gap :=
    canonical_of_prose hprose
  cases kind <;> exact ⟨hcanonical, by simp [Item.isEmpty, Entry.item, Entry.lines]⟩

/-- One section is turned into fields, and the rest is left for later. -/
theorem Group.canonicalParts_group (g : Group) (hgap : IsGap gap)
    (hrest : Opens convention rest) :
    ∃ lines, Joins lines (g.canonicalFields.flatMap Field.lines ++ [[]]) ∧
      canonicalParts convention (canonical convention) true
          (g.heading convention ++ (g.body convention gap ++ rest)) =
        lines ++ canonicalParts convention (canonical convention) true rest := by
  obtain ⟨drafts, hne, hbody, hhangs, hunbroken, hread⟩ :=
    g.exists_drafts_body convention hgap hrest.head?
  refine ⟨_, g.joins_itemLines hread, ?_⟩
  rw [g.heading_eq, ← hbody]
  exact g.caption.canonicalParts_lines (margin_pos g.indented) hne hhangs hunbroken
    (isBreak_of_opens hrest) (canonical_of_readAs hread)

/-- The lines of sections, each with an empty line before it. -/
def sections (convention : Convention) (groups : List Group) : List Text :=
  groups.flatMap fun g => [] :: g.lines convention

theorem sections_cons (convention : Convention) (g : Group) (more : List Group) :
    sections convention (g :: more) = [] :: (g.lines convention ++ sections convention more) :=
  rfl

/-- All sections are turned into fields. -/
theorem canonicalParts_groups (convention : Convention) (g : Group) (more : List Group) :
    ∃ lines, Joins lines
        ((g :: more).flatMap fun g => g.canonicalFields.flatMap Field.lines ++ [[]]) ∧
      canonicalParts convention (canonical convention) true
        (g.lines convention ++ sections convention more) = lines := by
  induction more generalizing g with
  | nil =>
    have hend : Opens convention [] := Or.inl rfl
    obtain ⟨lines, hjoins, hparts⟩ := g.canonicalParts_group (Or.inl rfl) hend
    refine ⟨lines, ?_, ?_⟩
    · rwa [List.flatMap_singleton]
    · rw [canonicalParts, List.append_nil, List.append_nil] at hparts
      rw [sections, List.flatMap_nil, List.append_nil]
      exact hparts
  | cons next more ih =>
    obtain ⟨below, hbelow, hrest⟩ := ih next
    have hopens : Opens convention (next.lines convention ++ sections convention more) := by
      rw [Group.lines, List.append_assoc]
      exact next.opens_heading convention [] _
    obtain ⟨lines, hjoins, hparts⟩ := g.canonicalParts_group (Or.inr rfl) hopens
    -- the empty line before the next section is the last line of this one
    have hshape : g.lines convention ++ sections convention (next :: more) =
        g.heading convention ++ (g.body convention [[]] ++
          (next.lines convention ++ sections convention more)) := by
      simp [sections_cons, Group.lines, Group.body]
    refine ⟨lines ++ below, ?_, by rw [hshape, hparts, hrest]⟩
    rw [List.flatMap_cons]
    exact hjoins.append hbelow

/-! ## Reading sections -/

theorem written_spaced (fields : Group → List Field) (groups : List Group) :
    Field.written (spaced fields groups) =
      groups.flatMap fun g => [] :: (fields g).flatMap Field.lines := by
  induction groups with
  | nil => rfl
  | cons g more ih =>
    rw [spaced] at ih
    rw [spaced, List.flatMap_cons, Field.written_append, ih, ← List.singleton_append,
      Field.written_append, Field.written_map_some]
    rfl

/-- An empty line before each piece and one after all is one before all and one after each. -/
theorem nil_cons_flatMap {α : Type} (f : α → List Text) (l : List α) :
    [] :: l.flatMap (fun a => f a ++ [[]]) = l.flatMap (fun a => [] :: f a) ++ [[]] := by
  induction l with
  | nil => rfl
  | cons a l ih =>
    rw [List.flatMap_cons, List.flatMap_cons, List.append_assoc, List.singleton_append, ih]
    simp

/-- The summary with sections below it, of which the first comes after so many empty lines. -/
def spacedLines (convention : Convention) (gap : Nat) (o : Outline) : List Text :=
  o.summary ++ (List.replicate gap [] ++ (sections convention o.groups).tail)

/-- The fields that these sections are turned into. -/
def spacedFields (gap : Nat) (o : Outline) : List (Option Field) :=
  List.replicate gap none ++ (spaced Group.canonicalFields o.groups).tail

section Sections

variable (convention : Convention) (gap : Nat) (o : Outline)

theorem isTrimmed_sections (groups : List Group) :
    ∀ line ∈ sections convention groups, IsTrimmed line := by
  intro line hline
  obtain ⟨g, -, hline⟩ := List.mem_flatMap.1 hline
  rcases List.mem_cons.1 hline with rfl | hline
  · exact isTrimmed_nil
  · exact (g.isTrimmed_lines convention line hline).1

theorem isTrimmed_below (line : Text)
    (hline : line ∈ List.replicate gap [] ++ (sections convention o.groups).tail) :
    IsTrimmed line := by
  rcases List.mem_append.1 hline with hline | hline
  · exact List.eq_of_mem_replicate hline ▸ isTrimmed_nil
  · exact isTrimmed_sections convention o.groups line (List.mem_of_mem_tail hline)

theorem isTrimmed_spacedLines : ∀ line ∈ o.spacedLines convention gap, IsTrimmed line :=
  fun line hline => (List.mem_append.1 hline).elim
    (fun hline => isTrimmed_of_isProse (o.prose.prose line hline))
    (isTrimmed_below convention gap o line)

theorem Group.lines_ne_nil (g : Group) : g.lines convention ≠ [] := by
  obtain ⟨t, more, hlines⟩ := g.caption.exists_lines convention
  rw [Group.lines, g.heading_eq, hlines]
  exact List.cons_ne_nil _ _

theorem getLast?_tail_sections {groups : List Group} (h : groups ≠ []) :
    (sections convention groups).tail ≠ [] ∧
      (sections convention groups).tail.getLast? ≠ some [] := by
  obtain ⟨init, g, rfl⟩ := (List.eq_nil_or_concat' groups).resolve_left h
  have hlines := g.lines_ne_nil convention
  have hlast : (g.lines convention).getLast? ≠ some [] := fun he =>
    (g.isTrimmed_lines convention [] (List.mem_of_getLast? he)).2 rfl
  have hsections : sections convention (init ++ [g]) =
      sections convention init ++ ([] :: g.lines convention) := by simp [sections]
  rw [hsections]
  cases hinit : sections convention init with
  | nil => exact ⟨hlines, hlast⟩
  | cons line more =>
    rw [List.cons_append, List.tail_cons, ← List.singleton_append, ← List.append_assoc,
      List.getLast?_append_of_ne_nil _ hlines]
    exact ⟨by simp, hlast⟩

theorem getLast?_spacedLines (h : o.groups ≠ []) :
    (o.spacedLines convention gap).getLast? ≠ some [] := by
  obtain ⟨hne, hlast⟩ := getLast?_tail_sections convention h
  rw [spacedLines, ← List.append_assoc, List.getLast?_append_of_ne_nil _ hne]
  exact hlast

theorem reduceOption_spacedFields :
    (o.spacedFields gap).reduceOption = o.groups.flatMap Group.canonicalFields := by
  have htail : (spaced Group.canonicalFields o.groups).tail.reduceOption =
      (spaced Group.canonicalFields o.groups).reduceOption := by
    cases o.groups <;> rfl
  rw [spacedFields, List.reduceOption_append, List.reduceOption_replicate_none, List.nil_append,
    htail, reduceOption_spaced]

theorem isWritten_spacedFields : ∀ f ∈ (o.spacedFields gap).reduceOption, f.IsWritten := by
  intro f hf
  rw [reduceOption_spacedFields] at hf
  obtain ⟨g, -, hf⟩ := List.mem_flatMap.1 hf
  exact g.isWritten_canonicalFields f hf

theorem isLaid_spacedFields : ∀ f ∈ (o.spacedFields gap).reduceOption, f.IsLaid :=
  fun f hf => (isWritten_spacedFields gap o f hf).isLaid

theorem getLast?_spacedFields (h : o.groups ≠ []) :
    (o.spacedFields gap).getLast? ≠ some none := by
  obtain ⟨g, more, hgroups⟩ := List.exists_cons_of_ne_nil h
  have htail : (spaced Group.canonicalFields o.groups).tail =
      g.canonicalFields.map some ++ spaced Group.canonicalFields more := by
    rw [hgroups]
    rfl
  have hlast : ((spaced Group.canonicalFields o.groups).tail).getLast? ≠ some none := by
    rw [htail]
    cases more with
    | nil => exact (List.append_nil _).symm ▸ getLast?_map_some g.canonicalFields
    | cons next more =>
      have hne : spaced Group.canonicalFields (next :: more) ≠ [] := List.cons_ne_nil _ _
      rw [List.getLast?_append_of_ne_nil _ hne]
      exact getLast?_spaced Group.canonicalFields_ne_nil (next :: more)
  rw [spacedFields, List.getLast?_append_of_ne_nil _ ?_]
  · exact hlast
  · rw [htail]
    simp [g.canonicalFields_ne_nil]

theorem getLast?_document (h : o.groups ≠ []) :
    (o.summary ++ Field.written (o.spacedFields gap)).getLast? ≠ some [] :=
  getLast?_summary o.prose (Field.getLast?_written (isLaid_spacedFields gap o)
    (getLast?_spacedFields gap o h))

/-- The canonical form of the lines: a field list, with an empty line at the end. -/
theorem joins_canonical (h : o.groups ≠ []) :
    Joins (canonical convention (o.spacedLines convention gap))
      (o.summary ++ Field.written (o.spacedFields gap) ++ [[]]) := by
  obtain ⟨g, more, hgroups⟩ := List.exists_cons_of_ne_nil h
  have hopens : Opens convention (g.lines convention ++ sections convention more) := by
    rw [Group.lines, List.append_assoc]
    exact g.opens_heading convention [] _
  have hunopened : Unopened convention (g.lines convention ++ sections convention more)
      (o.summary ++ List.replicate gap []) := by
    rw [Group.lines, g.heading_eq, List.append_assoc]
    exact g.caption.unopened_above o.prose (fun line hline => List.eq_of_mem_replicate hline) _
  have hlines : o.spacedLines convention gap = (o.summary ++ List.replicate gap []) ++
      (g.lines convention ++ sections convention more) := by
    rw [spacedLines, hgroups, sections_cons, List.tail_cons, List.append_assoc]
  have htrim := isTrimmed_spacedLines convention gap o
  rw [hlines] at htrim
  obtain ⟨lines, hjoins, hparts⟩ := canonicalParts_groups convention g more
  have hwhole : o.summary ++ Field.written (o.spacedFields gap) ++ [[]] =
      (o.summary ++ List.replicate gap []) ++
        (g :: more).flatMap fun g => g.canonicalFields.flatMap Field.lines ++ [[]] := by
    have hgap : Field.written (List.replicate gap none) = List.replicate gap [] := by
      rw [Field.written, List.flatMap_replicate]
      simp
    have htail : (spaced Group.canonicalFields (g :: more)).tail =
        g.canonicalFields.map some ++ spaced Group.canonicalFields more := rfl
    rw [spacedFields, hgroups, htail, Field.written_append, Field.written_append, hgap,
      Field.written_map_some, written_spaced, List.flatMap_cons, List.append_assoc _ [[]],
      List.singleton_append, nil_cons_flatMap]
    simp only [List.append_assoc]
  have hstarted : (!(o.summary ++ List.replicate gap []).isEmpty) = true := by
    simp [o.prose.ne_nil]
  rw [hlines, canonical_of_unopened (fun line hline => (htrim line hline).trimEnd) hunopened
    hopens, hstarted, hparts, hwhole]
  exact (joins_self _).append hjoins

/-- Where headings are underlined none has a colon. -/
theorem canonical_google_numpy :
    canonical .google (o.spacedLines .numpy gap) = o.spacedLines .numpy gap := by
  refine canonical_eq_self
    (fun line hline => (isTrimmed_spacedLines .numpy gap o line hline).trimEnd)
    (unopened_google fun line hline => ?_)
  rcases List.mem_append.1 hline with hline | hline
  · exact ofColonLine?_of_prose (Or.inr (endsInProse_of_isProse (o.prose.prose line hline)))
  · rcases List.mem_append.1 hline with hline | hline
    · exact List.eq_of_mem_replicate hline ▸ rfl
    · obtain ⟨g, -, hline⟩ := List.mem_flatMap.1 (List.mem_of_mem_tail hline)
      rcases List.mem_cons.1 hline with rfl | hline
      · rfl
      · exact g.ofColonLine?_lines line hline

/-- The field list that sections are turned into, whatever the empty lines before them. -/
theorem trimmedLines_canonical_spacedLines (h : o.groups ≠ []) :
    trimmedLines (DocReader.standard.canonical (unlines (o.spacedLines convention gap))) =
      o.summary ++ Field.written (o.spacedFields gap) := by
  have htrim := isTrimmed_spacedLines convention gap o
  have hlast := getLast?_spacedLines convention gap o h
  have hindent : ∃ line ∈ List.replicate gap [] ++ (sections convention o.groups).tail,
      line ≠ [] ∧ indent line = 0 := by
    obtain ⟨g, more, hgroups⟩ := List.exists_cons_of_ne_nil h
    obtain ⟨line, hline, hindent⟩ := g.caption.exists_indent convention
    refine ⟨line, ?_, hindent⟩
    rw [hgroups, sections_cons, List.tail_cons, Group.lines, g.heading_eq]
    simp [hline]
  have hmargin : cleanMargin (unlines (o.spacedLines convention gap)) =
      unlines (o.spacedLines convention gap) :=
    cleanMargin_unlines o.prose (isTrimmed_below convention gap o) (Or.inr hindent) hlast
  refine trimmedLines_canonical_sections hmargin htrim hlast (fun hnumpy => ?_)
    (joins_canonical convention gap o h)
    (endsInProse_of_document o.prose (isLaid_spacedFields gap o)) (getLast?_document gap o h)
  subst hnumpy
  exact canonical_google_numpy gap o

/-- Sections that do not stand directly below the summary are read as what they say. -/
theorem readText_spacedLines (h : o.groups ≠ []) :
    DocReader.standard.readText (unlines (o.spacedLines convention (gap + 1))) = .ok o.doc := by
  have hgap : ∀ f, (o.spacedFields (gap + 1)).head? ≠ some (some f) := fun f => nofun
  refine readText_of_fields hgap (isWritten_spacedFields _ o) ?_
    (trimmedLines_canonical_spacedLines convention _ o h)
  rw [reduceOption_spacedFields, map_meaning_canonicalFields]

/-- Sections are read as what they say. -/
theorem readText_sectionLines :
    DocReader.standard.readText (unlines (o.sectionLines convention)) = .ok o.doc := by
  cases hgroups : o.groups with
  | nil =>
    have hlines : o.sectionLines convention = o.fieldLines true := by
      rw [sectionLines, fieldLines, pieces, hgroups]
      rfl
    rw [hlines]
    exact readText_fieldLines true o
  | cons g more =>
    have hlines : o.sectionLines convention = o.spacedLines convention 1 := by
      rw [sectionLines, spacedLines, hgroups]
      rfl
    rw [hlines]
    exact readText_spacedLines convention 0 o (by simp [hgroups])

end Sections

/-- A field list and both kinds of sections are read as the same documentation, which is that
of the outline: no parameter or error is lost on any of the three ways. -/
theorem conventions_agree (o : Outline) (apart : Bool) :
    DocReader.standard.readText (unlines (o.fieldLines apart)) = .ok o.doc ∧
      DocReader.standard.readText (unlines (o.sectionLines .google)) = .ok o.doc ∧
      DocReader.standard.readText (unlines (o.sectionLines .numpy)) = .ok o.doc ∧
      ∀ e ∈ o.groups.flatMap Group.params,
        o.doc.params.find? e.name = some ⟨some (unlines e.lines), e.type?⟩ :=
  ⟨readText_fieldLines apart o, readText_sectionLines .google o,
    readText_sectionLines .numpy o, fun _ he => find?_doc o he⟩

/-- The outline of a function that adds up numbers. -/
def sum : Outline where
  summary := ["Add up".toList]
  groups := [
    { kind := .params, title := "Args".toList, underline := "----".toList, indent := 4
      entries := [
        { stars := 1, name := "args".toList, type? := some "int".toList
          first := "Numbers,".toList, more := ["at least one".toList], hang := 2
          starred := by decide
          named := by decide
          typed := fun _ h => Option.some.inj h ▸ by decide +kernel
          prose := by decide +kernel
          hangs := by decide }]
      titled := by decide
      underlined := ⟨by decide, forall_mem_of_all (by decide)⟩
      indented := by decide
      nonempty := by decide
      plain := nofun },
    { kind := .errors, title := "Raises".toList, underline := "======".toList, indent := 4
      entries := [
        { stars := 0, name := "ValueError".toList, type? := none
          first := "None given".toList, more := [], hang := 2
          starred := by decide
          named := by decide
          typed := nofun
          prose := by decide +kernel
          hangs := by decide }]
      titled := by decide
      underlined := ⟨by decide, forall_mem_of_all (by decide)⟩
      indented := by decide
      nonempty := by decide
      plain := fun _ e he => List.mem_singleton.1 he ▸ ⟨rfl, rfl⟩ }]
  prose := ⟨by decide, by decide +kernel⟩
  distinct := by decide

theorem conventions_agree_sum :
    let doc : Doc := ⟨"Add up".toList, "Add up".toList,
      [("args".toList, ⟨some "Numbers,\nat least one".toList, some "int".toList⟩)],
      ["ValueError".toList]⟩
    DocReader.standard.readText (unlines <| List.map String.toList
        ["Add up", "", ":param *args: Numbers,", "  at least one", ":type *args: int", "",
          ":raises ValueError: None given"]) = .ok doc ∧
      DocReader.standard.readText (unlines <| List.map String.toList
        ["Add up", "", "Args:", "    *args (int): Numbers,", "      at least one", "", "Raises:",
          "    ValueError: None given"]) = .ok doc ∧
      DocReader.standard.readText (unlines <| List.map String.toList
        ["Add up", "", "Args", "----", "*args : int", "  Numbers,", "  at least one", "", "Raises",
          "======", "ValueError", "  None given"]) = .ok doc := by
  obtain ⟨hfields, hgoogle, hnumpy, -⟩ := conventions_agree sum true
  exact ⟨hfields, hgoogle, hnumpy⟩

end Outline
end CallDoc
