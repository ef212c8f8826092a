import CallDoc.Docstring
import CallDoc.Proofs.Margin
import CallDoc.Proofs.Outline.Declared
import CallDoc.Proofs.Section.Prose

/-!
Reading an outline that is put down as a field list. A field list is in canonical form
already, and its fields declare what the outline says.
-/
namespace CallDoc

open Text Section

/-- Sections are not looked for in vain: where there are none the lines stay. -/
theorem trimmedLines_canonicalText {convention : Convention} {lines : List Text} {t : Text}
    (h : ∀ line ∈ lines, line = [] ∨ EndsInProse line) (hlast : lines.getLast? ≠ some [])
    (ht : trimmedLines t = lines) :
    trimmedLines (canonicalText convention t) = lines := by
  have htrim : ∀ line ∈ lines, IsTrimmed line := fun line hline =>
    isTrimmed_of_prose (h line hline)
  rw [canonicalText, ht, canonical_of_prose h, trimmedLines_unlines htrim hlast]

/-- Sections of one convention become a field list, on which the other convention has no say. -/
theorem trimmedLines_canonical_sections {convention : Convention} {lines fields : List Text}
    (hmargin : cleanMargin (unlines lines) = unlines lines)
    (htrim : ∀ line ∈ lines, IsTrimmed line) (hlast : lines.getLast? ≠ some [])
    (hgoogle : convention = .numpy → canonical .google lines = lines)
    (hjoins : Joins (canonical convention lines) (fields ++ [[]]))
    (hfields : ∀ line ∈ fields, line = [] ∨ EndsInProse line)
    (hend : fields.getLast? ≠ some []) :
    trimmedLines (DocReader.standard.canonical (unlines lines)) = fields := by
  have hlines := trimmedLines_unlines htrim hlast
  have hsections {t : Text} (ht : trimmedLines t = lines) :
      trimmedLines (canonicalText convention t) = fields := by
    -- the empty line after the last section is the end of the text, and no line
    rw [canonicalText, ht, hjoins.unlines_eq]
    exact trimmedLines_unlines_nil fun line hline => isTrimmed_of_prose (hfields line hline)
  rw [DocReader.canonical, hmargin]
  cases convention with
  | google => exact trimmedLines_canonicalText hfields hend (hsections hlines)
  | numpy =>
    refine hsections ?_
    change trimmedLines (canonicalText .google (unlines lines)) = _
    rw [canonicalText, hlines, hgoogle rfl, hlines]

namespace Outline

/-- The fields of an entry are written in the way that is read back. -/
theorem Entry.isWritten_fields {e : Entry} {role typeRole name : Text} {pad : Nat}
    (hrole : role ∈ Field.roles) (htype : typeRole ∈ Field.roles) (hname : e.Spells name)
    (hpad : 0 < pad) : ∀ f ∈ e.fields role typeRole name pad, f.IsWritten := by
  have hlast := hname.last_ne (d := '\\') (by decide) (by decide)
  refine List.forall_mem_cons.2 ⟨?_, fun f hf => ?_⟩
  · exact ⟨hrole, hname.isWord, hlast, hpad, List.cons_ne_nil _ _, e.prose⟩
  · obtain ⟨type, htype?, rfl⟩ := List.mem_map.1 hf
    refine ⟨htype, hname.isWord, hlast, Nat.one_pos, List.cons_ne_nil _ _, fun line hline => ?_⟩
    rw [List.mem_singleton.1 hline]
    exact e.typed type (Option.mem_toList.1 htype?)

theorem Group.isWritten_fields (g : Group) : ∀ f ∈ g.fields, f.IsWritten := by
  intro f hf
  obtain ⟨e, -, hf⟩ := List.mem_flatMap.1 hf
  have hrole : g.kind.role ∈ Field.roles := by cases g.kind <;> decide
  exact e.isWritten_fields hrole (by decide) e.spells_spelling e.hangs f hf

theorem Group.fields_ne_nil (g : Group) : g.fields ≠ [] := by
  obtain ⟨e, more, hentries⟩ := List.exists_cons_of_ne_nil g.nonempty
  rw [Group.fields, hentries]
  exact List.cons_ne_nil _ _

/-- The lines of a summary and of fields below it. -/
theorem endsInProse_of_document {summary : List Text} (hsummary : IsProseLines summary)
    {pieces : List (Option Field)} (hlaid : ∀ f ∈ pieces.reduceOption, f.IsLaid) :
    ∀ line ∈ summary ++ Field.written pieces, line = [] ∨ EndsInProse line := by
  intro line hline
  rcases List.mem_append.1 hline with hline | hline
  · exact Or.inr (endsInProse_of_isProse (hsummary.prose line hline))
  · exact Field.endsInProse_of_written hlaid line hline

theorem getLast?_summary {summary : List Text} (hsummary : IsProseLines summary)
    {rest : List Text} (hrest : rest.getLast? ≠ some []) :
    (summary ++ rest).getLast? ≠ some [] := by
  cases rest with
  | nil =>
    rw [List.append_nil]
    exact fun he => (isSolid_of_isProse (hsummary.prose [] (List.mem_of_getLast? he))).ne_nil rfl
  | cons line more => rwa [List.getLast?_append_of_ne_nil _ (List.cons_ne_nil line more)]

section Read

variable {o : Outline} {pieces : List (Option Field)}

/-- What fields with the meaning of those in the outline are read as. -/
theorem readText_of_fields {t : Text} (hgap : ∀ f, pieces.head? ≠ some (some f))
    (hwritten : ∀ f ∈ pieces.reduceOption, f.IsWritten)
    (hmeaning : pieces.reduceOption.map Field.meaning =
      (o.groups.flatMap Group.fields).map Field.meaning)
    (ht : trimmedLines (DocReader.standard.canonical t) = o.summary ++ Field.written pieces) :
    DocReader.standard.readText t = .ok o.doc := by
  have hdeclare : pieces.reduceOption.foldlM Field.declare .empty =
      .ok ⟨o.doc.params, o.doc.raises⟩ := by
    rw [Field.foldlM_declare_congr hmeaning, foldlM_fields o.distinct fun _ _ => rfl]
    rfl
  exact Block.ofBlocks_document Role.usual o.prose hwritten hgap ht hdeclare

end Read

/-! ## Fields with empty lines between groups -/

theorem reduceOption_map_some {α : Type} (l : List α) : (l.map some).reduceOption = l := by
  induction l with
  | nil => rfl
  | cons a l ih => rw [List.map_cons, List.reduceOption_cons_of_some, ih]

theorem reduceOption_spaced (fields : Group → List Field) (groups : List Group) :
    (spaced fields groups).reduceOption = groups.flatMap fields := by
  induction groups with
  | nil => rfl
  | cons g more ih =>
    rw [spaced] at ih
    rw [spaced, List.flatMap_cons, List.flatMap_cons, List.cons_append,
      List.reduceOption_cons_of_none, List.reduceOption_append, reduceOption_map_some, ih]

theorem head?_spaced (fields : Group → List Field) (groups : List Group) (f : Field) :
    (spaced fields groups).head? ≠ some (some f) := by
  cases groups with
  | nil => exact nofun
  | cons g more => exact nofun

theorem getLast?_map_some {α : Type} (l : List α) : (l.map some).getLast? ≠ some none := by
  rw [List.getLast?_map]
  cases l.getLast? <;> exact nofun

theorem getLast?_spaced {fields : Group → List Field} (hne : ∀ g, fields g ≠ [])
    (groups : List Group) : (spaced fields groups).getLast? ≠ some none := by
  rcases List.eq_nil_or_concat' groups with rfl | ⟨init, g, rfl⟩
  · exact nofun
  · have hlast : spaced fields (init ++ [g]) =
        (spaced fields init ++ [none]) ++ (fields g).map some := by simp [spaced]
    rw [hlast, List.getLast?_append_of_ne_nil _ (by simpa using hne g)]
    exact getLast?_map_some (fields g)

section Pieces

variable (apart : Bool) (o : Outline)

theorem reduceOption_pieces : (o.pieces apart).reduceOption = o.groups.flatMap Group.fields := by
  unfold pieces
  split
  · exact reduceOption_spaced Group.fields o.groups
  · split
    · rename_i hgroups
      rw [hgroups]
      rfl
    · rw [List.reduceOption_cons_of_none, reduceOption_map_some]

theorem head?_pieces (f : Field) : (o.pieces apart).head? ≠ some (some f) := by
  unfold pieces
  split
  · exact head?_spaced Group.fields o.groups f
  · split <;> exact nofun

theorem getLast?_pieces : (o.pieces apart).getLast? ≠ some none := by
  unfold pieces
  split
  · exact getLast?_spaced Group.fields_ne_nil o.groups
  · split
    · exact nofun
    · rename_i hgroups
      obtain ⟨g, more, hcons⟩ := List.exists_cons_of_ne_nil hgroups
      have hne : (o.groups.flatMap Group.fields).map some ≠ [] := by
        simp [hcons, g.fields_ne_nil]
      rw [← List.singleton_append, List.getLast?_append_of_ne_nil _ hne]
      exact getLast?_map_some _

theorem isWritten_pieces : ∀ f ∈ (o.pieces apart).reduceOption, f.IsWritten := by
  intro f hf
  rw [reduceOption_pieces] at hf
  obtain ⟨g, -, hf⟩ := List.mem_flatMap.1 hf
  exact g.isWritten_fields f hf

theorem exists_field_of_pieces :
    Field.written (o.pieces apart) = [] ∨ ∃ f, some f ∈ o.pieces apart := by
  cases hgroups : o.groups with
  | nil =>
    refine Or.inl ?_
    unfold pieces
    rw [hgroups]
    cases apart <;> rfl
  | cons g more =>
    obtain ⟨f, fields, hfields⟩ := List.exists_cons_of_ne_nil g.fields_ne_nil
    refine Or.inr ⟨f, List.reduceOption_mem_iff.1 ?_⟩
    rw [reduceOption_pieces, hgroups, List.flatMap_cons, hfields]
    exact List.mem_cons_self

end Pieces

/-- A field list is read as it is. -/
theorem readText_fieldLines (apart : Bool) (o : Outline) :
    DocReader.standard.readText (unlines (o.fieldLines apart)) = .ok o.doc := by
  have hwritten := isWritten_pieces apart o
  have hlaid : ∀ f ∈ (o.pieces apart).reduceOption, f.IsLaid := fun f hf => (hwritten f hf).isLaid
  have hlines := endsInProse_of_document o.prose hlaid
  have hlast : (o.fieldLines apart).getLast? ≠ some [] :=
    getLast?_summary o.prose (Field.getLast?_written hlaid (getLast?_pieces apart o))
  have htrim : ∀ line ∈ o.fieldLines apart, IsTrimmed line := fun line hline =>
    isTrimmed_of_prose (hlines line hline)
  have hmargin : cleanMargin (unlines (o.fieldLines apart)) = unlines (o.fieldLines apart) := by
    refine cleanMargin_unlines o.prose
      (fun line hline => htrim line (List.mem_append_right _ hline)) ?_ hlast
    refine (exists_field_of_pieces apart o).imp id fun ⟨f, hf⟩ => ?_
    exact Field.exists_mark_of_written hf
  refine readText_of_fields (head?_pieces apart o) hwritten ?_ ?_
  · rw [reduceOption_pieces]
  · rw [DocReader.canonical, hmargin]
    exact trimmedLines_canonicalText hlines hlast
      (trimmedLines_canonicalText hlines hlast (trimmedLines_unlines htrim hlast))

end Outline
end CallDoc
