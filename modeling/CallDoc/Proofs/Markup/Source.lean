import Mathlib.Data.List.Basic
import Mathlib.Data.List.Chain
import Mathlib.Data.List.Forall2
import CallDoc.Markup.Weight
import CallDoc.Proofs.Results
import CallDoc.Proofs.Markup.Opening
import CallDoc.Proofs.Text.Lines
import CallDoc.Proofs.Text.Prose

/-!
Where the lines of a body come from. A body is made of consecutive lines of the document, each
with its number and with what is left of its text: an indent, a marker or the header of a field
is taken away. So a document is read from consecutive lines at every depth.
-/
namespace CallDoc

open Text

namespace Line

/-! ## Parts of lines -/

/-- The line is what is left of another one. -/
structure PartOf (part line : Line) : Prop where
  number : part.number = line.number
  text : part.text <:+: line.text

/-- The lines are consecutive ones of others, or what is left of these. -/
def Within (parts lines : List Line) : Prop :=
  ∃ run, run <:+: lines ∧ List.Forall₂ PartOf parts run

variable {parts lines more : List Line}

theorem Within.mono (h : Within parts lines) (hmore : lines <:+: more) : Within parts more := by
  obtain ⟨run, hrun, hparts⟩ := h
  exact ⟨run, hrun.trans hmore, hparts⟩

theorem Within.exists_partOf (h : Within parts lines) {part : Line} (hpart : part ∈ parts) :
    ∃ line ∈ lines, part.PartOf line := by
  obtain ⟨run, hrun, hparts⟩ := h
  obtain ⟨line, hline, hpart⟩ := exists_of_mem_forall₂ hparts.flip hpart
  exact ⟨line, hrun.subset hline, hpart⟩

theorem Within.map_number (h : Within parts lines) :
    parts.map number <:+: lines.map number := by
  obtain ⟨run, hrun, hparts⟩ := h
  have hnumbers : parts.map number = run.map number := by
    clear hrun
    induction hparts with
    | nil => rfl
    | cons hpart _ ih => rw [List.map_cons, List.map_cons, hpart.number, ih]
  rw [hnumbers]
  exact hrun.map number

theorem infix_trimEnd_drop (n : Nat) (t : Text) : trimEnd (t.drop n) <:+: t :=
  (prefix_dropEndWhile _ _).isInfix.trans (List.drop_suffix n t).isInfix

theorem forall₂_dedent (lines : List Line) : List.Forall₂ PartOf (dedent lines) lines :=
  List.forall₂_map_left_iff.2 (List.forall₂_same.2 fun line _ =>
    ⟨rfl, infix_trimEnd_drop _ line.text⟩)

theorem within_dedent (h : parts <:+: lines) : Within (dedent parts) lines :=
  ⟨parts, h, forall₂_dedent parts⟩

/-- Where a body has a first line of its own, the others stand directly below it. -/
theorem within_bodyBelow {first line : Line} (hfirst : first.PartOf line)
    (h : line :: parts <+: lines) : Within (bodyBelow first parts) lines := by
  unfold bodyBelow
  split
  · exact ⟨parts, (List.suffix_cons line parts).isInfix.trans h.isInfix, forall₂_dedent parts⟩
  · exact ⟨line :: parts, h.isInfix, .cons hfirst (forall₂_dedent parts)⟩

theorem prefix_hanging (lines : List Line) : (hanging lines).1 <+: lines :=
  (prefix_dropEndWhile _ _).trans (List.takeWhile_prefix _)

theorem hanging_append_self (lines : List Line) : (hanging lines).1 ++ (hanging lines).2 = lines :=
  List.prefix_iff_eq_append.1 (prefix_hanging lines)

theorem hanging_snd_suffix (lines : List Line) : (hanging lines).2 <:+ lines :=
  ⟨_, hanging_append_self lines⟩

/-! ## Source lines -/

/-- Lines as they stand in a text: numbered one after the other, and without newlines. -/
structure IsSource (lines : List Line) : Prop where
  numbered : (lines.map number).IsChain fun n next => next = n + 1
  newline : ∀ line ∈ lines, '\n' ∉ line.text

theorem IsSource.mono (h : IsSource lines) (hparts : parts <:+: lines) : IsSource parts where
  numbered := h.numbered.infix (hparts.map number)
  newline line hline := h.newline line (hparts.subset hline)

/-- What is read from consecutive lines has consecutive lines in its bodies. -/
theorem IsSource.within (h : IsSource lines) (hparts : Within parts lines) : IsSource parts where
  numbered := h.numbered.infix hparts.map_number
  newline part hpart hmem := by
    obtain ⟨line, hline, hpart⟩ := hparts.exists_partOf hpart
    exact h.newline line hline (hpart.text.subset hmem)

theorem isSource_ofText (t : Text) : IsSource (ofText t) := by
  constructor
  · have hnumbers : (ofText t).map number = List.range (trimmedLines t).length := by
      exact List.ext_getElem (by simp [ofText]) fun i _ _ => by simp [ofText]
    rw [hnumbers, List.range_eq_range']
    exact List.isChain_range' 0 _ 1
  · intro line hline
    obtain ⟨i, hi, rfl⟩ := List.mem_mapIdx.1 hline
    exact newline_of_mem_trimmedLines (List.getElem_mem hi)

end Line

namespace Frame

open Line

/-! ## Bodies -/

section Header

variable {t name argument header rest : Text}

theorem infix_directive? (h : directive? t = some (name, argument)) : argument <:+: t := by
  obtain ⟨after, rfl, rfl⟩ := directive?_eq h
  exact ((infix_trim after).trans (List.suffix_append _ after).isInfix).trans
    (List.suffix_append name _).isInfix

theorem suffix_fieldHeader? (h : fieldHeader? t = some (header, rest)) : rest <:+ t := by
  obtain ⟨after, rfl, rfl⟩ := fieldHeader?_eq h
  exact ((List.dropWhile_suffix _).trans (List.suffix_cons ':' after)).trans
    ((List.suffix_append header _).trans (List.suffix_cons ':' _))

end Header

section Lines

variable {line : Line} {below rest : List Line} {frame : Frame}

/-- The items of a list are read from its lines piece by piece. -/
theorem exists_pieces_items (next? : Nat → Text → Option Nat) (count offset : Nat) (line : Line)
    (below : List Line) : ∃ pieces,
      pieces.flatten ++ (items next? count offset line below).2 = line :: below ∧
        List.Forall₂ Within (items next? count offset line below).1 pieces := by
  have hitem (offset : Nat) (line : Line) (below rest : List Line) : Within
      (bodyBelow { line with text := line.text.drop offset } (hanging below).1)
      (line :: (hanging below).1 ++ rest) := by
    have hfirst : PartOf { line with text := line.text.drop offset } line :=
      ⟨rfl, (List.drop_suffix _ _).isInfix⟩
    exact within_bodyBelow hfirst (List.prefix_append _ rest)
  fun_induction items next? count offset line below with
  | case1 count offset line below item | case2 count offset line below item =>
    refine ⟨[line :: (hanging below).1 ++ []], ?_, .cons (hitem offset line below []) .nil⟩
    rw [List.flatten_singleton, List.append_nil, List.cons_append, hanging_append_self]
  | case3 count offset line below item next more hnext offset' hplace others ih =>
    obtain ⟨pieces, hpieces, hothers⟩ := ih
    refine ⟨(line :: (hanging below).1 ++ (hanging below).2.takeWhile Line.isBlank) :: pieces, ?_,
      .cons (hitem offset line below _) hothers⟩
    rw [List.flatten_cons, List.append_assoc, hpieces, ← hnext, List.append_assoc,
      List.takeWhile_append_dropWhile, List.cons_append, hanging_append_self]

theorem items_suffix (next? : Nat → Text → Option Nat) (count offset : Nat) (line : Line)
    (below : List Line) : (items next? count offset line below).2 <:+ below := by
  obtain ⟨pieces, hpieces, -⟩ := exists_pieces_items next? count offset line below
  rcases List.suffix_cons_iff.1 ⟨_, hpieces⟩ with hall | hrest
  · have hlength := (items_sublist next? count offset line below).length_le
    rw [hall, List.length_cons] at hlength
    omega
  · exact hrest

theorem ofParagraph_suffix (line : Line) (below : List Line) :
    (ofParagraph line below).2 <:+ below := by
  have hafter : (below.dropWhile fun line => !line.isBlank) <:+ below := List.dropWhile_suffix _
  unfold ofParagraph
  dsimp only
  split
  · exact hafter
  · split
    · split
      · rename_i next more hnext
        have hmore : next :: more <:+ below := (hnext ▸ List.dropWhile_suffix _).trans hafter
        split
        · exact ((hanging_snd_suffix more).trans (List.suffix_cons next more)).trans hmore
        · exact hafter
      · exact hafter
    · exact hafter

theorem first_suffix (line : Line) (below : List Line) : (first line below).2 <:+ below := by
  have hafter := hanging_snd_suffix below
  unfold first
  dsimp only
  split
  · exact hafter
  · split
    · exact hafter
    · split
      · split <;> exact hafter
      · split
        · exact items_suffix ..
        · split
          · exact items_suffix ..
          · exact ofParagraph_suffix line below

/-- Every frame opens at a line of those that are cut, with all that are left below it. -/
theorem exists_opens_of_mem_cut {lines : List Line} {frame : Frame} (h : frame ∈ cut lines) :
    ∃ line below rest, line :: below <:+ lines ∧ Opens line below rest frame := by
  fun_induction cut lines with
  | case1 => cases h
  | case2 line below hblank ih =>
    obtain ⟨start, more, rest, hsuffix, hopens⟩ := ih h
    exact ⟨start, more, rest, hsuffix.trans (List.suffix_cons line below), hopens⟩
  | case3 line below hblank ih =>
    rcases List.mem_append.1 h with hfirst | hlater
    · exact ⟨line, below, _, List.suffix_rfl, opens_first line below frame hfirst⟩
    · obtain ⟨start, more, rest, hsuffix, hopens⟩ := ih hlater
      have hrest := (first_suffix line below).trans (List.suffix_cons line below)
      exact ⟨start, more, rest, hsuffix.trans hrest, hopens⟩

/-- The bodies in a frame are read from the lines before the rest, piece by piece. -/
theorem Opens.exists_pieces (h : Opens line below rest frame) : frame.bodies = [] ∨
    ∃ pieces, pieces.flatten ++ rest = line :: below ∧
      List.Forall₂ Within frame.bodies pieces := by
  have hone {body : List Line} (hbody : Within body (line :: (hanging below).1)) :
      ∃ pieces, pieces.flatten ++ (hanging below).2 = line :: below ∧
        List.Forall₂ Within [body] pieces := by
    refine ⟨[line :: (hanging below).1], ?_, .cons hbody .nil⟩
    rw [List.flatten_singleton, List.cons_append, hanging_append_self]
  cases h with
  | quote => exact Or.inr (hone (within_dedent (List.infix_refl _)))
  | titled h => exact Or.inr (hone (within_dedent (List.suffix_cons line _).isInfix))
  | @admonition name argument label h hlabel =>
    have hargument : PartOf ⟨line.number, argument⟩ line :=
      ⟨rfl, ((infix_directive? h).trans (List.dropWhile_suffix _).isInfix).trans
        (List.drop_suffix 2 _).isInfix⟩
    exact Or.inr (hone (within_bodyBelow hargument List.prefix_rfl))
  | @field header rest role type name h hread =>
    have hrest : PartOf ⟨line.number, rest⟩ line := ⟨rfl, (suffix_fieldHeader? h).isInfix⟩
    exact Or.inr (hone (within_bodyBelow hrest List.prefix_rfl))
  | bullets h => exact Or.inr (exists_pieces_items ..)
  | enumerated h => exact Or.inr (exists_pieces_items ..)
  | rubric | code | unknown | comment | doctest | paragraph | literal => exact Or.inl rfl

theorem Opens.within (h : Opens line below rest frame) :
    ∀ body ∈ frame.bodies, Within body (line :: below) := by
  intro body hbody
  rcases h.exists_pieces with hnone | ⟨pieces, hpieces, hbodies⟩
  · rw [hnone] at hbody
    cases hbody
  · obtain ⟨piece, hpiece, hwithin⟩ : ∃ piece ∈ pieces, Within body piece :=
      exists_of_mem_forall₂ hbodies.flip hbody
    exact hwithin.mono ((List.infix_of_mem_flatten hpiece).trans ⟨[], rest, hpieces⟩)

/-- A body is made of consecutive lines of those that it was cut from. -/
theorem within_cut {lines : List Line} :
    ∀ frame ∈ cut lines, ∀ body ∈ frame.bodies, Within body lines := by
  intro frame hframe body hbody
  obtain ⟨line, below, rest, hsuffix, hopens⟩ := exists_opens_of_mem_cut hframe
  exact (hopens.within body hbody).mono hsuffix.isInfix

end Lines

end Frame

end CallDoc
