import CallDoc.Proofs.Section.Prose
import CallDoc.Proofs.Trailing

/-!
Rewriting sections starts at the first section. The lines before it are kept one by one, with
their empty lines, and a text without a section is kept as a whole. A text is cut into lines
again for the second convention; that loses an empty line at the end, which is no line any more
once the lines are joined. A text without its margin has none there (`canonical_of_openingAt`).
-/
namespace CallDoc

open Text

namespace Section

variable {convention : Convention} {lines rest : List Text}

/-- The number of lines before the first section, which is all of them where there is none. -/
def openingAt (convention : Convention) : List Text → Nat
  | [] => 0
  | line :: below =>
    if (opening? convention (line :: below)).isSome then 0 else openingAt convention below + 1

/-- The lines are cut where the first section opens. -/
theorem unopened_take (convention : Convention) (lines : List Text) :
    Unopened convention (lines.drop (openingAt convention lines))
        (lines.take (openingAt convention lines)) ∧
      Opens convention (lines.drop (openingAt convention lines)) := by
  induction lines with
  | nil => exact ⟨trivial, Or.inl rfl⟩
  | cons line below ih =>
    rw [openingAt]
    cases hopen : (opening? convention (line :: below)).isSome with
    | true => exact ⟨trivial, Or.inr hopen⟩
    | false =>
      refine ⟨⟨?_, ih.1⟩, ih.2⟩
      change opening? convention (line :: (below.take _ ++ below.drop _)) = none
      rw [List.take_append_drop]
      exact Option.not_isSome_iff_eq_none.1 (by simp [hopen])

theorem openingAt_le (convention : Convention) (lines : List Text) :
    openingAt convention lines ≤ lines.length := by
  induction lines with
  | nil => exact Nat.le_refl 0
  | cons line below ih =>
    rw [openingAt]
    split
    · exact Nat.zero_le _
    · exact Nat.succ_le_succ ih

theorem unopened_of_openingAt (h : openingAt convention lines = lines.length) :
    Unopened convention [] lines := by
  have hcut := (unopened_take convention lines).1
  rwa [h, List.drop_length, List.take_length] at hcut

/-- What comes before the first section is written first, and the rest is read from there on. -/
theorem canonical_eq_take_append (htrim : ∀ line ∈ lines, trimEnd line = line) :
    canonical convention lines = lines.take (openingAt convention lines) ++
      canonicalParts convention (canonical convention)
        (!(lines.take (openingAt convention lines)).isEmpty)
        (lines.drop (openingAt convention lines)) := by
  obtain ⟨hbefore, hopens⟩ := unopened_take convention lines
  have hwhole := canonical_of_unopened
    (by rwa [List.take_append_drop (openingAt convention lines) lines]) hbefore hopens
  rwa [List.take_append_drop] at hwhole

/-- An empty line at the end opens nothing, and underlines nothing. -/
theorem isSome_opening?_concat_nil (hne : lines ≠ []) :
    (opening? convention (lines ++ [[]])).isSome = (opening? convention lines).isSome := by
  obtain ⟨line, below, rfl⟩ := List.exists_cons_of_ne_nil hne
  rw [List.cons_append]
  cases convention with
  | google =>
    have hindent : firstIndent? (below ++ [[]]) = firstIndent? below := by
      rw [firstIndent?, List.find?_append, List.find?_cons_of_neg (by simp), List.find?_nil,
        Option.or_none, firstIndent?]
    simp only [opening?, hindent]
    cases Heading.ofColonLine? line with
    | none => rfl
    | some heading =>
      simp only [Option.bind_some]
      split <;> rfl
  | numpy =>
    cases htitle : Heading.ofTitle? line with
    | none =>
      simp only [opening?, htitle]
      split <;> rfl
    | some heading =>
      cases below with
      | cons underline below =>
        simp only [opening?, htitle, List.cons_append]
        split <;> rfl
      | nil =>
        -- a title is no index entry
        obtain ⟨c, hc, hmark⟩ :=
          (Heading.isTitle_of_ofTitle? (Option.isSome_iff_exists.2 ⟨heading, htitle⟩)).head
        have hindex : isIndexEntry line = false := by
          refine isIndexEntry_of_head fun hdot => ?_
          rw [hc] at hdot
          rw [Option.some.inj hdot] at hmark
          cases hmark
        simp [opening?, htitle, hindex, isUnderline, trimEnd, dropEndWhile]

theorem Unopened.of_concat_nil (h : Unopened convention [] (lines ++ [[]])) :
    Unopened convention [] lines := by
  induction lines with
  | nil => trivial
  | cons line below ih =>
    obtain ⟨hline, hbelow⟩ := h
    refine ⟨?_, ih hbelow⟩
    have hsame : (opening? convention (line :: below ++ [[]])).isSome =
        (opening? convention (line :: below)).isSome :=
      isSome_opening?_concat_nil (List.cons_ne_nil line below)
    have hnone : opening? convention (line :: below ++ [[]]) = none := by
      rwa [List.append_nil] at hline
    rw [hnone] at hsame
    rw [List.append_nil]
    exact Option.not_isSome_iff_eq_none.1 (by simp [← hsame])

end Section

namespace Text

/-- The lines without the last one, if it is empty. -/
def dropLastEmpty (lines : List Text) : List Text :=
  if lines.getLast? = some [] then lines.dropLast else lines

/-- Joined and cut again, lines lose an empty one at the end. -/
theorem trimmedLines_unlines_dropLastEmpty {lines : List Text} (h : ∀ l ∈ lines, '\n' ∉ l)
    (htrim : ∀ l ∈ lines, trimEnd l = l) : trimmedLines (unlines lines) = dropLastEmpty lines := by
  have hmap {ls : List Text} (hls : ls.Sublist lines) : ls.map trimEnd = ls :=
    (List.map_congr_left fun l hl => htrim l (hls.subset hl)).trans (List.map_id ls)
  rw [dropLastEmpty]
  split
  · rename_i hlast
    obtain ⟨init, rfl⟩ := List.getLast?_eq_some_iff.1 hlast
    rw [trimmedLines_unlines_concat_nil fun l hl => h l (List.mem_append_left _ hl),
      List.dropLast_concat, hmap (List.sublist_append_left init [[]])]
  · rename_i hlast
    rw [trimmedLines_unlines_of_newline h hlast, hmap (List.Sublist.refl lines)]

/-- The first lines of a text that was joined from lines are among these. -/
theorem take_splitOn_unlines {a : List Text} (h : ∀ l ∈ a, '\n' ∉ l) (b : List Text) :
    (splitOn '\n' (unlines (a ++ b))).take a.length = a := by
  induction a with
  | nil => rfl
  | cons line a ih =>
    obtain ⟨hline, ha⟩ := List.forall_mem_cons.1 h
    by_cases hrest : a ++ b = []
    · obtain ⟨rfl, rfl⟩ := List.append_eq_nil_iff.1 hrest
      rw [List.append_nil, unlines_singleton, splitOn_of_not_mem hline]
      rfl
    · rw [List.cons_append, unlines_cons line hrest, splitOn_append hline, List.length_cons,
        List.take_succ_cons, ih ha]

end Text

open Section

/-! ## The text -/

namespace Conventions

/-- One convention alone. -/
def only (convention : Convention) : Conventions :=
  ⟨convention == .google, convention == .numpy⟩

def both : Conventions := ⟨true, true⟩

theorem normalize_only (convention : Convention) (t : Text) :
    (only convention).normalize t = canonicalText convention t := by
  cases convention <;> rfl

/-- A text without a section stays as its lines. -/
theorem canonicalText_of_openingAt {convention : Convention} {t : Text}
    (h : openingAt convention (trimmedLines t) = (trimmedLines t).length) :
    canonicalText convention t = unlines (trimmedLines t) := by
  rw [canonicalText, canonical_eq_self (fun _ => trimEnd_of_mem_trimmedLines)
    (unopened_of_openingAt h)]

theorem normalize_both_of_openingAt {t : Text}
    (h : ∀ convention, openingAt convention (trimmedLines t) = (trimmedLines t).length) :
    both.normalize t = unlines (dropLastEmpty (trimmedLines t)) := by
  have hunopened : Unopened .numpy [] (dropLastEmpty (trimmedLines t)) := by
    have hall := unopened_of_openingAt (h .numpy)
    rw [dropLastEmpty]
    split
    · rename_i hlast
      obtain ⟨init, hinit⟩ := List.getLast?_eq_some_iff.1 hlast
      rw [hinit] at hall ⊢
      rw [List.dropLast_concat]
      exact hall.of_concat_nil
    · exact hall
  have htrim : ∀ line ∈ dropLastEmpty (trimmedLines t), trimEnd line = line := by
    intro line hline
    refine trimEnd_of_mem_trimmedLines (t := t) ?_
    rw [dropLastEmpty] at hline
    split at hline
    · exact List.dropLast_subset _ hline
    · exact hline
  change canonicalText .numpy (canonicalText .google t) = _
  rw [canonicalText_of_openingAt (h .google), canonicalText,
    trimmedLines_unlines_dropLastEmpty (fun _ => newline_of_mem_trimmedLines)
      (fun _ => trimEnd_of_mem_trimmedLines), canonical_eq_self htrim hunopened]

/-- Under either convention the lines before the first section come out as they are, and a text
without a section is no more than cut into its lines. The two conventions one after the other
cut it twice, and the second time an empty line at the end is lost. -/
theorem normalize_before_sections (t : Text) :
    (∀ convention,
      (splitOn '\n' ((only convention).normalize t)).take (openingAt convention (trimmedLines t)) =
          (trimmedLines t).take (openingAt convention (trimmedLines t)) ∧
        (openingAt convention (trimmedLines t) = (trimmedLines t).length →
          (only convention).normalize t = unlines (trimmedLines t))) ∧
      ((∀ convention, openingAt convention (trimmedLines t) = (trimmedLines t).length) →
        both.normalize t = unlines (dropLastEmpty (trimmedLines t))) := by
  refine ⟨fun convention => ?_, normalize_both_of_openingAt⟩
  rw [normalize_only]
  refine ⟨?_, canonicalText_of_openingAt⟩
  have hnewline : ∀ l ∈ (trimmedLines t).take (openingAt convention (trimmedLines t)), '\n' ∉ l :=
    fun l hl => newline_of_mem_trimmedLines (List.mem_of_mem_take hl)
  have htake := take_splitOn_unlines hnewline
    (canonicalParts convention (canonical convention)
      (!((trimmedLines t).take (openingAt convention (trimmedLines t))).isEmpty)
      ((trimmedLines t).drop (openingAt convention (trimmedLines t))))
  rwa [← canonical_eq_take_append fun _ => trimEnd_of_mem_trimmedLines, List.length_take,
    Nat.min_eq_left (openingAt_le convention (trimmedLines t))] at htake

/-- The lines above a section, two of them empty; and a text in which a heading is not known
and another one has no body. -/
theorem normalize_before_sections_usage :
    (openingAt .google (trimmedLines "a\n\n\nArgs:\n  x: X".toList) = 3 ∧
      (splitOn '\n' ((only .google).normalize "a\n\n\nArgs:\n  x: X".toList)).take 3 =
        ["a".toList, [], []]) ∧
    (∀ convention, openingAt convention (trimmedLines "\nUsage:\n  run\n\n\nArgs:\nnone".toList) =
        (trimmedLines "\nUsage:\n  run\n\n\nArgs:\nnone".toList).length) ∧
      both.normalize "\nUsage:\n  run\n\n\nArgs:\nnone".toList =
        "\nUsage:\n  run\n\n\nArgs:\nnone".toList := by
  have hargs : openingAt .google (trimmedLines "a\n\n\nArgs:\n  x: X".toList) = 3 := by decide
  have hnone : ∀ convention,
      openingAt convention (trimmedLines "\nUsage:\n  run\n\n\nArgs:\nnone".toList) =
        (trimmedLines "\nUsage:\n  run\n\n\nArgs:\nnone".toList).length := by
    intro convention
    cases convention <;> decide
  refine ⟨⟨hargs, ?_⟩, hnone, ((normalize_before_sections _).2 hnone).trans (by decide)⟩
  have hkept := ((normalize_before_sections "a\n\n\nArgs:\n  x: X".toList).1 .google).1
  rw [hargs] at hkept
  exact hkept.trans (by decide)

/-- Prose with an empty line below it loses that line when both conventions are on. -/
theorem normalize_both_ne_unlines :
    (∀ convention, openingAt convention (trimmedLines "a\n\n".toList) =
        (trimmedLines "a\n\n".toList).length) ∧
      both.normalize "a\n\n".toList ≠ unlines (trimmedLines "a\n\n".toList) := by
  have hnone : ∀ convention, openingAt convention (trimmedLines "a\n\n".toList) =
      (trimmedLines "a\n\n".toList).length := by
    intro convention
    cases convention <;> decide
  refine ⟨hnone, ?_⟩
  rw [normalize_both_of_openingAt hnone]
  decide

end Conventions

/-! ## Without the margin -/

/-- A text without its margin does not end in an empty line. -/
theorem getLast?_trimmedLines_cleanMargin (t : Text) :
    (trimmedLines (cleanMargin t)).getLast? ≠ some [] := by
  obtain ⟨first, below, ht⟩ := List.exists_cons_of_ne_nil (splitOn_ne_nil '\n' t)
  rw [trimmedLines_cleanMargin (sourceLines_cons ht)]
  exact getLast?_stripEmpty _

/-- So documentation without a section is read as its lines, none of which is lost. -/
theorem DocReader.canonical_of_openingAt {t : Text}
    (h : ∀ convention, openingAt convention (trimmedLines (cleanMargin t)) =
      (trimmedLines (cleanMargin t)).length) :
    standard.canonical t = unlines (trimmedLines (cleanMargin t)) := by
  have hnormalize := Conventions.normalize_both_of_openingAt h
  rwa [dropLastEmpty, if_neg (getLast?_trimmedLines_cleanMargin t)] at hnormalize

end CallDoc
