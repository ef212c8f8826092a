import CallDoc.Docstring
import CallDoc.Proofs.Margin
import CallDoc.Proofs.Markup.Nesting
import CallDoc.Proofs.Section.Nesting

/-!
Documentation does not depend on how deeply the callable is nested in its source file. All
lines but the first move with the code around them, and `cleanMargin` takes the move away,
unless the first line is a heading with its body at the margin. There the body keeps its
place, and both ways of reading it, as a section and as markup, compare only the places of
its lines with each other. `DocReader.read_hang` is the whole.
-/
namespace CallDoc

open Text

/-! ## The source lines -/

theorem Text.cleared_append (n : Nat) (line : Text) :
    cleared (spaces n ++ line) = nest n (cleared line) := by
  rw [cleared, blank_append, blank_spaces, Bool.true_and, cleared]
  cases h : blank line with
  | true => rfl
  | false =>
    rw [if_neg Bool.false_ne_true, if_neg Bool.false_ne_true,
      nest_of_ne_nil n (ne_nil_of_not_blank h)]

section Source

variable {t first : Text} {below : List Text}

theorem sourceLines_eq (htab : '\t' ∉ t) (ht : splitOn '\n' t = first :: below) :
    sourceLines t = cleared first :: below.map cleared := by
  rw [← List.map_cons, ← ht]
  refine List.map_congr_left fun line hline => ?_
  rw [expandTabs_of_not_mem fun hmem => htab ((of_mem_splitOn hline).2 '\t' hmem)]
  rfl

/-- The first line stays, and the others move. -/
theorem sourceLines_hang (htab : '\t' ∉ t) (ht : splitOn '\n' t = first :: below) (n : Nat) :
    sourceLines (hang (spaces n) t) = cleared first :: (below.map cleared).map (nest n) := by
  have hhang : '\t' ∉ hang (spaces n) t := fun hmem =>
    (mem_hang hmem).elim htab (not_mem_spaces (by decide) n)
  rw [sourceLines_eq hhang (splitOn_hang (not_mem_spaces (by decide) n) ht), List.map_map,
    List.map_map]
  exact congrArg _ (List.map_congr_left fun line _ => cleared_append n line)

end Source

/-! ## The margin -/

theorem keepsMargin_nest (first : Text) (below : List Text) (n : Nat) :
    keepsMargin first (below.map (nest n)) = keepsMargin first below := by
  have hmargin : (firstIndent? (below.map (nest n)) == margin? (below.map (nest n))) =
      (firstIndent? below == margin? below) := by
    rw [firstIndent?_nest, margin?_nest, Bool.eq_iff_iff, beq_iff_eq, beq_iff_eq]
    exact (Option.map_injective fun a b hab => Nat.add_left_cancel hab).eq_iff
  rw [keepsMargin, hmargin, keepsMargin]

section Margin

variable {t u line : Text} {lines : List Text} {n : Nat}

/-- A margin that is taken away does not show how wide it was. -/
theorem cleanMargin_congr (ht : sourceLines t = line :: lines)
    (hu : sourceLines u = line :: lines.map (nest n))
    (h : keepsMargin (trimStart line) lines = false) : cleanMargin u = cleanMargin t := by
  rw [cleanMargin, hu, cleanMargin, ht]
  simp only [keepsMargin_nest, h, Bool.false_eq_true, if_false, dedent_nest]

/-- A body at the margin keeps its place. -/
theorem cleanMargin_of_keepsMargin (ht : sourceLines t = line :: lines)
    (h : keepsMargin (trimStart line) lines = true) :
    cleanMargin t = unlines (trimStart line :: dropEndWhile List.isEmpty lines) := by
  have hfirst : trimStart line ≠ [] := fun hnil => by rw [hnil] at h; cases h
  rw [cleanMargin, ht]
  simp only [h, if_true]
  rw [stripEmpty_cons hfirst]

theorem cleanMargin_nest_of_keepsMargin (hu : sourceLines u = line :: lines.map (nest n))
    (h : keepsMargin (trimStart line) lines = true) :
    cleanMargin u = unlines (trimStart line :: (dropEndWhile List.isEmpty lines).map (nest n)) := by
  rw [cleanMargin_of_keepsMargin hu ((keepsMargin_nest _ _ n).trans h), dropEndWhile_map]
  simp only [isEmpty_nest]

end Margin

/-! ## Reading -/

namespace Section

variable {heading : Heading} {m : Nat} {line : Text} {lines : List Text}

theorem IsSection.startsParagraph (h : IsSection heading m line lines) : StartsParagraph line where
  head := h.exists_line
  period := h.not_mem_line rfl (by decide) (by decide)
  paren := h.not_mem_line rfl (by decide) (by decide)

/-- A docstring that is one section has the same blocks wherever its body stands. -/
theorem IsSection.parse_nest (h : IsSection heading m line lines) (conventions : Conventions)
    (roles : List Text) (n : Nat) :
    Block.parse roles (conventions.normalize (unlines (line :: lines.map (Text.nest n)))) =
      Block.parse roles (conventions.normalize (unlines (line :: lines))) := by
  have hstands : ∀ l ∈ lines.map Text.trimEnd, StandsAt 1 l := fun l hl =>
    (h.body.trimEnd.stands l hl).mono h.body.pos
  have hnest := h.nest n
  obtain ⟨google, numpy⟩ := conventions
  cases google with
  | true =>
    have hsame : canonicalText .google (unlines (line :: lines.map (Text.nest n))) =
        canonicalText .google (unlines (line :: lines)) := by
      rw [canonicalText, hnest.trimmedLines_unlines, h.body.map_trimEnd_nest,
        h.trimEnd.canonical_google_nest, canonicalText, h.trimmedLines_unlines]
    simp only [Conventions.normalize, if_true, hsame]
  | false =>
    have hread {t u : Text} (ht : trimmedLines t = line :: lines.map Text.trimEnd)
        (hu : trimmedLines u = line :: (lines.map (Text.nest n)).map Text.trimEnd) :
        Block.parse roles u = Block.parse roles t :=
      Block.parse_nest roles h.startsParagraph hstands n ht (h.body.map_trimEnd_nest n ▸ hu)
    cases numpy with
    | true => exact hread h.trimmedLines_canonicalText_numpy hnest.trimmedLines_canonicalText_numpy
    | false => exact hread h.trimmedLines_unlines hnest.trimmedLines_unlines

/-- A heading and a body make a section without the empty lines at the end. -/
theorem isSection_of_isBody (hline : Heading.ofColonLine? line = some heading)
    (h : IsBody m lines) (hnewline : ∀ l ∈ lines, '\n' ∉ l) :
    IsSection heading m line (dropEndWhile List.isEmpty lines) where
  heading := hline
  body := h.dropEmpty
  newline l hl := hnewline l ((dropEndWhile_sublist _ _).subset hl)
  last he := absurd (of_getLast?_dropEndWhile he) (by decide)

end Section

/-- The documentation in a text does not depend on how far all lines but the first are
indented, nor does the error when it cannot be read. Where the first line is a heading, the
others have to be indented already: at the margin they are not its section. -/
theorem DocReader.read_hang (reader : DocReader) {t first : Text} {below : List Text} (n : Nat)
    (htab : '\t' ∉ t) (ht : splitOn '\n' t = first :: below)
    (h : Heading.ofColonLine? (trimStart first) = none ∨
      ∀ line ∈ below, blank line = false → 0 < indent line) :
    reader.read (some (hang (spaces n) t)) = reader.read (some t) := by
  have hlines := sourceLines_eq htab ht
  have hhang := sourceLines_hang htab ht n
  -- what is read depends on the text without its margin only
  have hclean (he : cleanMargin (hang (spaces n) t) = cleanMargin t) :
      reader.read (some (hang (spaces n) t)) = reader.read (some t) := by
    simp only [read, readText, canonical, he]
  cases hkeeps : keepsMargin (trimStart (cleared first)) (below.map cleared) with
  | false => exact hclean (cleanMargin_congr hlines hhang hkeeps)
  | true =>
    obtain ⟨hheading, hmargin⟩ := Bool.and_eq_true_iff.1 hkeeps
    obtain ⟨heading, hheading⟩ := Option.isSome_iff_exists.1 hheading
    have hindent := h.resolve_left (by rw [← trimStart_cleared, hheading]; exact nofun)
    have hstands : ∀ l ∈ below.map cleared, StandsAt 1 l :=
      List.forall_mem_map.2 fun line hline => standsAt_cleared (hindent line hline)
    rcases isBody_of_margin (eq_of_beq hmargin) hstands with hempty | ⟨m, hbody⟩
    · exact hclean (by rw [cleanMargin, hhang, map_nest_of_empty n hempty, ← hlines, ← cleanMargin])
    · have hnewline : ∀ l ∈ below.map cleared, '\n' ∉ l :=
        List.forall_mem_map.2 fun line hline hc =>
          (of_mem_splitOn (ht ▸ List.mem_cons_of_mem first hline)).1 (mem_cleared hc)
      have hsection := Section.isSection_of_isBody hheading hbody hnewline
      simp only [read, readText, canonical, cleanMargin_of_keepsMargin hlines hkeeps,
        cleanMargin_nest_of_keepsMargin hhang hkeeps,
        hsection.parse_nest reader.conventions reader.roles n]

/-- A section that is the whole docstring keeps its margin, and is read alike when the code
around it is nested more deeply. -/
theorem DocReader.read_hang_args :
    ('\t' ∉ "Args:\n  x: X,\n    or more\n \n  y: Y".toList ∧
      splitOn '\n' "Args:\n  x: X,\n    or more\n \n  y: Y".toList =
        "Args:".toList :: ["  x: X,".toList, "    or more".toList, " ".toList, "  y: Y".toList] ∧
      Heading.ofColonLine? (trimStart "Args:".toList) = some .parameters ∧
      ∀ line ∈ ["  x: X,".toList, "    or more".toList, " ".toList, "  y: Y".toList],
        blank line = false → 0 < indent line) ∧
    standard.read (some "Args:\n     x: X,\n       or more\n    \n     y: Y".toList) =
      standard.read (some "Args:\n  x: X,\n    or more\n \n  y: Y".toList) := by
  have hlines : splitOn '\n' "Args:\n  x: X,\n    or more\n \n  y: Y".toList =
      "Args:".toList :: ["  x: X,".toList, "    or more".toList, " ".toList, "  y: Y".toList] := by
    decide
  have hindent : ∀ line ∈ ["  x: X,".toList, "    or more".toList, " ".toList, "  y: Y".toList],
      blank line = false → 0 < indent line := by decide
  have hhang : hang (spaces 3) "Args:\n  x: X,\n    or more\n \n  y: Y".toList =
      "Args:\n     x: X,\n       or more\n    \n     y: Y".toList := by decide
  have hread := read_hang standard 3 (by decide) hlines (Or.inr hindent)
  rw [hhang] at hread
  exact ⟨⟨by decide, hlines, by decide, hindent⟩, hread⟩

end CallDoc
