import CallDoc.Docstring
import CallDoc.Proofs.Margin
import Mathlib.Data.List.Forall2

/-!
Blanks at the ends of lines. A line keeps them until the margin of its text has been taken
away, and no later step sees them. So they change what is read in one case only: a heading in
the first line is not recognized with a blank behind its colon, and its body then loses the
margin that made it the body of a section.
-/
namespace CallDoc

open Text

namespace Text

/-- The line with spaces, tabs and carriage returns put behind it. -/
def Padded (line padded : Text) : Prop :=
  ∃ gap, padded = line ++ gap ∧ ∀ c ∈ gap, c ∈ [' ', '\t', '\r']

/-! ## Expanding tabs -/

theorem exists_expandFrom_append (t u : Text) (column : Nat) :
    ∃ k, expandFrom column (t ++ u) = expandFrom column t ++ expandFrom k u := by
  induction t generalizing column with
  | nil => exact ⟨column, rfl⟩
  | cons c t ih =>
    rw [List.cons_append, expandFrom, expandFrom]
    split
    · obtain ⟨k, hk⟩ := ih (column + (8 - column % 8))
      exact ⟨k, by rw [hk, List.append_assoc]⟩
    · obtain ⟨k, hk⟩ := ih (column + 1)
      exact ⟨k, by rw [hk, List.cons_append]⟩

theorem blank_expandFrom {t : Text} (h : blank t = true) (column : Nat) :
    blank (expandFrom column t) = true := by
  induction t generalizing column with
  | nil => rfl
  | cons c t ih =>
    rw [blank, List.all_cons, Bool.and_eq_true] at h
    rw [expandFrom]
    split
    · rw [blank_append, blank_spaces, Bool.true_and, ih h.2]
    · rw [blank, List.all_cons, h.1, Bool.true_and]
      exact ih h.2 _

theorem expandFrom_ne_nil {t : Text} (h : t ≠ []) (column : Nat) : expandFrom column t ≠ [] := by
  obtain ⟨c, t, rfl⟩ := List.exists_cons_of_ne_nil h
  rw [expandFrom]
  split
  · have hpos : 0 < 8 - column % 8 := by omega
    rw [← List.length_pos_iff_ne_nil, List.length_append, length_spaces]
    omega
  · exact List.cons_ne_nil c _

section Padded

variable {line padded : Text} (h : Padded line padded)
include h

theorem Padded.exists_expandTabs :
    ∃ gap, expandTabs padded = expandTabs line ++ gap ∧ blank gap = true ∧
      (gap = [] → padded = line) := by
  obtain ⟨gap, rfl, hgap⟩ := h
  obtain ⟨k, hk⟩ := exists_expandFrom_append line gap 0
  have hspace : ∀ c ∈ [' ', '\t', '\r'], isBlank c = true := forall_mem_of_all (by decide)
  have hblank : blank gap = true := List.all_eq_true.2 fun c hc => hspace c (hgap c hc)
  refine ⟨expandFrom k gap, hk, blank_expandFrom hblank k, fun hnil => ?_⟩
  by_cases hne : gap = []
  · rw [hne, List.append_nil]
  · exact absurd hnil (expandFrom_ne_nil hne k)

theorem Padded.trimEnd_expandTabs : trimEnd (expandTabs padded) = trimEnd (expandTabs line) := by
  obtain ⟨gap, hgap, hblank, -⟩ := h.exists_expandTabs
  rw [hgap]
  exact dropEndWhile_append (List.all_eq_true.1 hblank)

/-- Blanks behind a line hide the heading in it. -/
theorem Padded.ofColonLine? (hne : padded ≠ line) :
    Heading.ofColonLine? (trimStart (expandTabs padded)) = none := by
  obtain ⟨gap, hgap, hblank, hnil⟩ := h.exists_expandTabs
  refine Section.ofColonLine?_of_last fun hlast => ?_
  obtain ⟨lead, hlead⟩ := List.dropWhile_suffix isBlank (l := expandTabs padded)
  have hcolon : (expandTabs line ++ gap).getLast? = some ':' := by
    rw [← hgap, ← hlead, List.getLast?_append, ← trimStart, hlast]
    rfl
  rw [List.getLast?_append_of_ne_nil _ fun he => hne (hnil he)] at hcolon
  exact absurd (List.all_eq_true.1 hblank ':' (List.mem_of_getLast? hcolon)) (by decide)

end Padded

theorem trimEnd_cleared (line : Text) : trimEnd (cleared line) = trimEnd line := by
  rw [cleared]
  split
  · rename_i h
    exact (trimEnd_of_blank h).symm
  · rfl

theorem trimEnd_trimStart (t : Text) : trimEnd (trimStart t) = trim t := by
  cases h : blank t with
  | true =>
    have hstart : trimStart t = [] := List.dropWhile_eq_nil_iff.2 (List.all_eq_true.1 h)
    rw [hstart, trim, trimEnd_of_blank h]
    rfl
  | false =>
    obtain ⟨lead, c, u, rfl, hlead, hc⟩ := exists_of_not_blank h
    have hcons : trimEnd (c :: u) = c :: trimEnd u := trimEnd_append_cons hc [] u
    rw [trim, trimEnd_append_cons hc, trimStart_append hlead, trimStart_append hlead,
      trimStart_cons hc, trimStart_cons hc, hcons]

theorem standsAt_trimStart {line : Text} (h : StandsAt 0 line) : StandsAt 0 (trimStart line) := by
  rcases h with rfl | ⟨hblank, -⟩
  · exact Or.inl rfl
  · obtain ⟨lead, c, u, rfl, hlead, hc⟩ := exists_of_not_blank hblank
    rw [trimStart_append hlead, trimStart_cons hc]
    exact Or.inr ⟨by rw [blank, List.all_cons, hc, Bool.false_and], Nat.zero_le _⟩

end Text

/-! ## The text without its margin -/

section CleanMargin

variable {t u line : Text} {below : List Text}

theorem newline_of_mem_sourceLines (h : line ∈ sourceLines t) : '\n' ∉ line := fun hc =>
  (of_mem_sourceLines h hc).elim (by decide) fun hc => hc.2 rfl

theorem standsAt_of_mem_sourceLines (h : line ∈ sourceLines t) : StandsAt 0 line := by
  obtain ⟨raw, -, rfl⟩ := List.mem_map.1 h
  exact standsAt_cleared fun _ => Nat.zero_le _

/-- Whether a body keeps its place, told by its lines without the blanks at their ends. -/
theorem keepsMargin_trimEnd (first : Text) (h : ∀ line ∈ below, StandsAt 0 line) :
    keepsMargin first (below.map trimEnd) = keepsMargin first below := by
  rw [keepsMargin, firstIndent?_trimEnd h, margin?_trimEnd h, keepsMargin]

/-- The lines of a text without its margin, as they are found in the lines without the blanks
at their ends. -/
theorem trimmedLines_cleanMargin (ht : sourceLines t = line :: below) :
    trimmedLines (cleanMargin t) = stripEmpty (trim line ::
      if keepsMargin (trimStart line) below then below.map trimEnd
      else dedent (below.map trimEnd)) := by
  obtain ⟨hline, hbelow⟩ := List.forall_mem_cons.1 fun l hl =>
    (standsAt_of_mem_sourceLines (ht ▸ hl) : StandsAt 0 l)
  obtain ⟨hnewline, hnewlines⟩ := List.forall_mem_cons.1 fun l hl =>
    (newline_of_mem_sourceLines (ht ▸ hl) : '\n' ∉ l)
  have hbody : ∀ l ∈ if keepsMargin (trimStart line) below then below else dedent below,
      StandsAt 0 l ∧ '\n' ∉ l := by
    split
    · exact fun l hl => ⟨hbelow l hl, hnewlines l hl⟩
    · refine fun l hl => ⟨standsAt_dedent hbelow l hl, ?_⟩
      obtain ⟨k, hk, rfl⟩ := List.mem_map.1 hl
      exact fun hc => hnewlines k hk (List.mem_of_mem_drop hc)
  rw [cleanMargin, ht]
  dsimp only
  rw [trimmedLines_unlines_of_newline _ (getLast?_stripEmpty _), ← stripEmpty_map, List.map_cons,
    trimEnd_trimStart, apply_ite (List.map trimEnd), dedent_trimEnd hbelow]
  · exact List.forall_mem_cons.2
      ⟨(standsAt_trimStart hline).isEmpty_trimEnd, fun l hl => (hbody l hl).1.isEmpty_trimEnd⟩
  · intro l hl
    rcases List.mem_cons.1 ((dropEndWhile_sublist _ _).subset
      ((List.dropWhile_sublist _).subset hl)) with rfl | hl
    · exact fun hc => hnewline ((List.dropWhile_suffix _).subset hc)
    · exact (hbody l hl).2

end CleanMargin

/-! ## Blanks at the ends of the lines -/

/-- The text starts with a heading, and the body below it stands to the right of the margin. -/
def StartsSection (t : Text) : Prop :=
  ∃ line below, sourceLines t = line :: below ∧ keepsMargin (trimStart line) below = true ∧
    0 < (margin? below).getD 0

theorem sourceLines_cons {t first : Text} {below : List Text}
    (ht : splitOn '\n' t = first :: below) :
    sourceLines t =
      cleared (expandTabs first) :: below.map fun line => cleared (expandTabs line) := by
  rw [sourceLines, ht]
  rfl

/-- Only at the margin is a body the same with its margin and without it. -/
theorem stripEmpty_dedent_iff {first : Text} {lines : List Text} (hfirst : first ≠ [])
    (h : ∀ line ∈ lines, StandsAt 0 line) (hindent : firstIndent? lines = margin? lines) :
    stripEmpty (first :: dedent lines) = stripEmpty (first :: lines) ↔
      ¬ 0 < (margin? lines).getD 0 := by
  constructor
  · rw [stripEmpty_cons hfirst, stripEmpty_cons hfirst]
    intro he
    have hsame := congrArg firstIndent? (List.cons.inj he).2
    rw [firstIndent?_dropEmpty, firstIndent?_dropEmpty, firstIndent?_dedent h, hindent] at hsame
    cases hmargin : margin? lines with
    | none => exact Nat.lt_irrefl 0
    | some m =>
      rw [hmargin, Option.map_some, Option.getD_some, Nat.sub_self] at hsame
      rw [Option.getD_some, ← Option.some.inj hsame]
      exact Nat.lt_irrefl 0
  · exact fun hzero => by rw [dedent_of_margin (Nat.eq_zero_of_not_pos hzero)]

theorem Text.map_trimEnd_of_padded {lines more : List Text} (h : List.Forall₂ Padded lines more) :
    (more.map fun line => cleared (expandTabs line)).map trimEnd =
      (lines.map fun line => cleared (expandTabs line)).map trimEnd := by
  induction h with
  | nil => rfl
  | @cons line padded _ _ hline _ ih =>
    have hsame : trimEnd (cleared (expandTabs padded)) = trimEnd (cleared (expandTabs line)) := by
      rw [trimEnd_cleared, trimEnd_cleared, hline.trimEnd_expandTabs]
    exact congrArg₂ List.cons hsame ih

section Padded

variable {t u : Text}

/-- What is left of a text with blanks at the ends of its lines is what is left of it without
them, but for the heading in the first line. -/
theorem trimmedLines_cleanMargin_padded {first padded : Text} {below more : List Text}
    (ht : splitOn '\n' t = first :: below) (hu : splitOn '\n' u = padded :: more)
    (hfirst : Padded first padded) (hmore : List.Forall₂ Padded below more) :
    ∃ lines, sourceLines t = cleared (expandTabs first) :: lines ∧
      trimmedLines (cleanMargin u) = stripEmpty (trim (cleared (expandTabs first)) ::
        if keepsMargin (trimStart (expandTabs padded)) lines then lines.map trimEnd
        else dedent (lines.map trimEnd)) := by
  have htlines := sourceLines_cons ht
  have hulines := sourceLines_cons hu
  have hsame := map_trimEnd_of_padded hmore
  refine ⟨_, htlines, ?_⟩
  have htrim : trim (cleared (expandTabs padded)) = trim (cleared (expandTabs first)) := by
    rw [trim, trimEnd_cleared, hfirst.trimEnd_expandTabs, ← trimEnd_cleared, ← trim]
  rw [trimmedLines_cleanMargin hulines, htrim, hsame, trimStart_cleared, ← keepsMargin_trimEnd,
    hsame, keepsMargin_trimEnd]
  · exact fun l hl => standsAt_of_mem_sourceLines (htlines ▸ List.mem_cons_of_mem _ hl)
  · exact fun l hl => standsAt_of_mem_sourceLines (hulines ▸ List.mem_cons_of_mem _ hl)

/-- Without the margin of its body a section has other lines. -/
theorem stripEmpty_dedent_iff_of_keepsMargin {line : Text} {lines : List Text}
    (hline : StandsAt 0 line) (h : ∀ l ∈ lines, StandsAt 0 l)
    (hkeeps : keepsMargin (trimStart line) lines = true) :
    stripEmpty (trim line :: dedent (lines.map trimEnd)) =
        stripEmpty (trim line :: lines.map trimEnd) ↔ ¬ 0 < (margin? lines).getD 0 := by
  obtain ⟨hheading, hindent⟩ := Bool.and_eq_true_iff.1 hkeeps
  have hne : trim line ≠ [] := by
    intro hnil
    have hempty := (standsAt_trimStart hline).isEmpty_trimEnd
    rw [trimEnd_trimStart, hnil] at hempty
    rw [List.isEmpty_iff.1 hempty.symm] at hheading
    cases hheading
  rw [stripEmpty_dedent_iff hne (List.forall_mem_map.2 fun l hl => (h l hl).trimEnd),
    margin?_trimEnd h]
  rw [firstIndent?_trimEnd h, margin?_trimEnd h]
  exact eq_of_beq hindent

/-- Blanks at the ends of the lines change the text without its margin exactly when it starts
with a section and they stand behind its heading too. -/
theorem trimmedLines_padded_iff (h : List.Forall₂ Padded (splitOn '\n' t) (splitOn '\n' u)) :
    trimmedLines (cleanMargin u) = trimmedLines (cleanMargin t) ↔
      (StartsSection t → (splitOn '\n' u).head? = (splitOn '\n' t).head?) := by
  obtain ⟨first, below, ht⟩ := List.exists_cons_of_ne_nil (splitOn_ne_nil '\n' t)
  rw [ht] at h
  obtain ⟨padded, more, hfirst, hmore, hu⟩ := List.forall₂_cons_left_iff.1 h
  obtain ⟨lines, htlines, hulines⟩ := trimmedLines_cleanMargin_padded ht hu hfirst hmore
  have hstands : ∀ l ∈ cleared (expandTabs first) :: lines, StandsAt 0 l := fun l hl =>
    standsAt_of_mem_sourceLines (htlines ▸ hl)
  obtain ⟨hline, hlines⟩ := List.forall_mem_cons.1 hstands
  have hstarts : StartsSection t ↔
      keepsMargin (trimStart (cleared (expandTabs first))) lines = true ∧
        0 < (margin? lines).getD 0 := by
    simp only [StartsSection, htlines, List.cons.injEq]
    exact ⟨fun ⟨_, _, ⟨hl, hls⟩, hsection⟩ => hl ▸ hls ▸ hsection,
      fun hsection => ⟨_, _, ⟨rfl, rfl⟩, hsection⟩⟩
  rw [trimmedLines_cleanMargin htlines, hulines, hstarts, ht, hu, List.head?_cons, List.head?_cons,
    Option.some_inj]
  by_cases heq : padded = first
  · simp only [heq, trimStart_cleared, implies_true]
  · have hhidden : keepsMargin (trimStart (expandTabs padded)) lines = false := by
      rw [keepsMargin, hfirst.ofColonLine? heq]
      rfl
    rw [hhidden, if_neg Bool.false_ne_true]
    cases hkeeps : keepsMargin (trimStart (cleared (expandTabs first))) lines with
    | false => simp
    | true =>
      rw [if_pos rfl, stripEmpty_dedent_iff_of_keepsMargin hline hlines hkeeps]
      simp [heq]

end Padded

/-! ## Reading -/

/-- What is read depends on the lines without the margin, and on nothing behind them. -/
theorem DocReader.read_congr (reader : DocReader) {t u : Text}
    (h : trimmedLines (cleanMargin u) = trimmedLines (cleanMargin t)) :
    reader.read (some u) = reader.read (some t) := by
  obtain ⟨⟨google, numpy⟩, roles⟩ := reader
  have hparse : Block.parse roles (Conventions.normalize ⟨google, numpy⟩ (cleanMargin u)) =
      Block.parse roles (Conventions.normalize ⟨google, numpy⟩ (cleanMargin t)) := by
    cases google <;> cases numpy <;>
      simp only [Conventions.normalize, Section.canonicalText, Block.parse, Line.ofText, h,
        Bool.false_eq_true, if_false, if_true]
  simp only [read, readText, canonical, hparse]

/-- Spaces, tabs and carriage returns behind the lines of a text do not change what is read,
unless they stand behind a heading in its first line whose body is indented. There the body
loses its margin, so that the text is another one. -/
theorem DocReader.read_padded {t u : Text}
    (h : List.Forall₂ Padded (splitOn '\n' t) (splitOn '\n' u)) :
    (trimmedLines (cleanMargin u) = trimmedLines (cleanMargin t) ↔
        (StartsSection t → (splitOn '\n' u).head? = (splitOn '\n' t).head?)) ∧
      ((StartsSection t → (splitOn '\n' u).head? = (splitOn '\n' t).head?) →
        ∀ reader : DocReader, reader.read (some u) = reader.read (some t)) :=
  ⟨trimmedLines_padded_iff h, fun hkept reader =>
    reader.read_congr ((trimmedLines_padded_iff h).2 hkept)⟩

/-- A section below a summary is read alike with a carriage return behind every line and more
blanks behind its heading. -/
theorem DocReader.read_padded_usage :
    (List.Forall₂ Padded (splitOn '\n' "Sum.\n\n\tArgs:\n\t  x: X".toList)
        (splitOn '\n' "Sum.\r\n\r\n\tArgs: \t\r\n\t  x: X\r".toList) ∧
      (StartsSection "Sum.\n\n\tArgs:\n\t  x: X".toList →
        (splitOn '\n' "Sum.\r\n\r\n\tArgs: \t\r\n\t  x: X\r".toList).head? =
          (splitOn '\n' "Sum.\n\n\tArgs:\n\t  x: X".toList).head?)) ∧
    standard.read (some "Sum.\r\n\r\n\tArgs: \t\r\n\t  x: X\r".toList) =
      standard.read (some "Sum.\n\n\tArgs:\n\t  x: X".toList) := by
  have hpadded : List.Forall₂ Padded (splitOn '\n' "Sum.\n\n\tArgs:\n\t  x: X".toList)
      (splitOn '\n' "Sum.\r\n\r\n\tArgs: \t\r\n\t  x: X\r".toList) :=
    .cons ⟨"\r".toList, rfl, forall_mem_of_all (by decide)⟩ <|
      .cons ⟨"\r".toList, rfl, forall_mem_of_all (by decide)⟩ <|
      .cons ⟨" \t\r".toList, rfl, forall_mem_of_all (by decide)⟩ <|
      .cons ⟨"\r".toList, rfl, forall_mem_of_all (by decide)⟩ .nil
  have hprose : StartsSection "Sum.\n\n\tArgs:\n\t  x: X".toList →
      (splitOn '\n' "Sum.\r\n\r\n\tArgs: \t\r\n\t  x: X\r".toList).head? =
        (splitOn '\n' "Sum.\n\n\tArgs:\n\t  x: X".toList).head? := by
    rintro ⟨line, below, hlines, hkeeps, -⟩
    obtain ⟨rfl, rfl⟩ := List.cons.inj hlines
    exact absurd hkeeps (by decide)
  exact ⟨⟨hpadded, hprose⟩, (read_padded hpadded).2 hprose standard⟩

/-- With a space behind its heading a section that is the whole text is read as prose. -/
theorem DocReader.read_padded_args :
    List.Forall₂ Padded (splitOn '\n' "Args:\n  x: X".toList)
        (splitOn '\n' "Args: \n  x: X".toList) ∧
      standard.read (some "Args:\n  x: X".toList) =
        .ok ⟨[], [], [⟨"x".toList, some "X".toList, none⟩], []⟩ ∧
      standard.read (some "Args: \n  x: X".toList) =
        .ok ⟨"Args:\nx: X".toList, "Args:\nx: X".toList, [], []⟩ := by
  refine ⟨.cons ⟨" ".toList, rfl, forall_mem_of_all (by decide)⟩ (.cons ⟨[], rfl, nofun⟩ .nil), ?_⟩
  decide +kernel

end CallDoc
