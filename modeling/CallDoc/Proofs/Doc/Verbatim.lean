import CallDoc.Proofs.Doc.Paragraphs
import CallDoc.Proofs.Markup.Quote

/-!
Literal blocks. What is indented below a paragraph that ends in two colons is kept as it stands:
its end and its margin are found from blanks alone, no line of it is looked at for markup, and the
description shows it behind four spaces.
-/
namespace CallDoc

open Text

/-- Lines of any characters, without blanks at their ends. Some line stands at the margin, and
neither the first nor the last is empty. -/
structure Text.IsVerbatim (code : List Text) : Prop where
  newline : ∀ line ∈ code, '\n' ∉ line
  trim : ∀ line ∈ code, trimEnd line = line
  first : code.head?.any (fun line => !line.isEmpty) = true
  last : code.getLast? ≠ some []
  margin : ∃ line ∈ code, line ≠ [] ∧ indent line = 0

/-! ## The announcement -/

section Announcement

variable {lead : Text} (hlead : isProse lead = true)
include hlead

theorem Inline.parse_announcement (roles : List Text) :
    parse roles (lead ++ [':']) = .ok [.text (lead ++ [':'])] := by
  have hprose : IsProseLines [lead] := ⟨List.cons_ne_nil _ _, List.forall_mem_singleton.2 hlead⟩
  have hplain := hprose.isPlain
  rw [unlines_singleton] at hplain
  have hcolon (previous? : Option Char) : scan roles previous? [':'] = .ok [.text [':']] := by
    have hnone : findAfter roles previous? [':'] = .ok none := by
      rw [findAfter]
      split <;> rfl
    rw [scan_cons_of_none (by decide) hnone, if_neg (by simp), scan]
    rfl
  rw [parse]
  generalize (none : Option Char) = previous?
  clear hlead hprose
  induction lead generalizing previous? with
  | nil => exact hcolon previous?
  | cons c t ih =>
    obtain ⟨hc, hmore⟩ := List.forall_mem_cons.1 hplain
    rw [List.cons_append, scan_cons_of_isPlain hc, ih hmore]
    rfl

theorem Text.startsParagraph_announcement : StartsParagraph (lead ++ "::".toList) := by
  have hstart := startsParagraph_of_isProse hlead
  obtain ⟨c, u, rfl, hc⟩ := hstart.head
  refine ⟨⟨c, u ++ "::".toList, rfl, hc⟩, ?_, ?_⟩
  · exact fun hmem => (List.mem_append.1 hmem).elim hstart.period (by decide)
  · exact fun hmem => (List.mem_append.1 hmem).elim hstart.paren (by decide)

theorem Text.trim_announcement : trim (lead ++ "::".toList) = lead ++ "::".toList := by
  obtain ⟨c, u, rfl, hc⟩ := (isSolid_of_isProse hlead).head
  exact IsSolid.trim ⟨⟨c, u ++ "::".toList, rfl, hc⟩, ⟨c :: u ++ [':'], ':', by simp, by decide⟩⟩

theorem Text.isSolid_announced : IsSolid (lead ++ [':']) := by
  obtain ⟨c, u, rfl, hc⟩ := (isSolid_of_isProse hlead).head
  exact ⟨⟨c, u ++ [':'], rfl, hc⟩, ⟨c :: u, ':', rfl, by decide⟩⟩

theorem Frame.announcesLiteral_announcement :
    announcesLiteral (lead ++ "::".toList) = (lead ++ [':'], true) := by
  have hbefore : before? "::".toList (lead ++ "::".toList) = some lead :=
    before?_eq_some_iff.2 rfl
  have hsolid := isSolid_of_isProse hlead
  have hend : endsBlank lead = false := by
    obtain ⟨u, c, rfl, hc⟩ := hsolid.last
    rw [endsBlank, List.getLast?_concat, Option.any_some, hc]
  rw [announcesLiteral, hbefore]
  simp only [List.isEmpty_eq_false_iff.2 hsolid.ne_nil, hend, Bool.false_eq_true, if_false]

/-- What hangs below the announcement is a literal block. -/
theorem Frame.first_announcement (number : Nat) {gap start : Line} {more body rest : List Line}
    (hgap : gap.isBlank = true) (hblank : start.isBlank = false)
    (hindented : start.isIndented = true) (hbody : Line.hanging more = (body, rest)) :
    first ⟨number, lead ++ "::".toList⟩ (gap :: start :: more) =
      ([.paragraph number (lead ++ [':']),
        .literal start.number (unlines ((Line.dedent (start :: body)).map Line.text))], rest) := by
  have hstart := startsParagraph_announcement hlead
  rw [first_of_startsParagraph hstart]
  unfold ofParagraph
  dsimp only
  rw [List.takeWhile_cons_of_neg (by simp [hgap]), List.dropWhile_cons_of_neg (by simp [hgap]),
    startsWith_doctest hstart]
  simp only [List.map_cons, List.map_nil, unlines_singleton, trim_announcement hlead]
  rw [announcesLiteral_announcement hlead, List.dropWhile_cons_of_pos hgap,
    List.dropWhile_cons_of_neg (by simp [hblank])]
  simp [hindented, hbody]

end Announcement

/-! ## The block -/

namespace Text.IsVerbatim

variable {code : List Text} (h : IsVerbatim code)
include h

theorem exists_cons : ∃ start more, code = start :: more ∧ start ≠ [] := by
  obtain ⟨start, hstart, hne⟩ := (Option.any_eq_true _ _).1 h.first
  obtain ⟨more, rfl⟩ := List.head?_eq_some_iff.1 hstart
  exact ⟨start, more, rfl, by simpa using hne⟩

theorem not_blank {line : Text} (hline : line ∈ code) (hne : line ≠ []) : blank line = false :=
  Bool.eq_false_iff.2 fun hblank =>
    hne ((h.trim line hline).symm.trans (trimEnd_of_blank hblank))

theorem trimEnd_nest {line : Text} (hline : line ∈ code) (n : Nat) :
    trimEnd (nest n line) = nest n line := by
  by_cases hne : line = []
  · rw [hne]
    rfl
  · rw [Text.trimEnd_nest n (Or.inr (h.not_blank hline hne)), h.trim line hline]

/-- The literal block takes its lines with all their blanks, and ends with the last of them. -/
theorem hanging_numbered {n : Nat} (hn : 0 < n) {start : Text} {more : List Text}
    (hcode : code = start :: more) {rest : List Line}
    (hrest : ∀ line, (rest.dropWhile Line.isBlank).head? = some line → line.isIndented = false)
    (number : Nat) :
    Line.hanging ((Line.numbered number more).map (Line.nest n) ++ rest) =
      ((Line.numbered number more).map (Line.nest n), rest) := by
  have hlast : dropEndWhile Line.isBlank (Line.numbered number more) =
      Line.numbered number more := by
    refine dropEndWhile_eq_self fun line hline => ?_
    have htext : more.getLast? = some line.text := by
      rw [← Line.map_text_numbered number more, List.getLast?_map, hline, Option.map_some]
    have hend : code.getLast? = some line.text := by
      rw [hcode, List.getLast?_cons, htext, Option.getD_some]
    exact h.not_blank (List.mem_of_getLast? hend) fun he => h.last (he ▸ hend)
  have hgap : ∀ line ∈ ([] : List Line), line.isBlank = true := List.forall_mem_nil _
  have hbody := Line.hanging_nest_append hn hlast hgap
  rw [List.append_nil, List.map_nil] at hbody
  rw [Line.hanging_append _ hrest, hbody, List.nil_append]

theorem dedent_numbered (n number : Nat) :
    (Line.dedent ((Line.numbered number code).map (Line.nest n))).map Line.text = code := by
  obtain ⟨line, hline, hne, hindent⟩ := h.margin
  have hmem := hline
  rw [← Line.map_text_numbered number code] at hmem
  obtain ⟨l, hl, htext⟩ := List.mem_map.1 hmem
  rw [Line.dedent_nest, Line.dedent_of_margin, Line.map_text_numbered]
  · exact fun l hl => h.trim l.text (Line.text_mem_of_mem_numbered hl)
  · refine ⟨l, hl, ?_, ?_⟩
    · rw [Line.isBlank, htext, h.not_blank hline hne]
    · rw [Line.isIndented, htext, hindent]
      rfl

end Text.IsVerbatim

/-! ## A document with a literal block -/

section Document

variable {lead tail : Text} {code : List Text}

theorem Line.numbered_verbatim (n : Nat) {start : Text} {more : List Text}
    (hcons : code = start :: more) :
    numbered 0 ([lead ++ "::".toList, []] ++ code.map (Text.nest n) ++ [[], tail]) =
      ⟨0, lead ++ "::".toList⟩ :: ⟨1, []⟩ :: nest n ⟨2, start⟩ ::
        ((numbered 3 more).map (nest n) ++
          [⟨code.length + 2, []⟩, ⟨code.length + 3, tail⟩]) := by
  have hlength : 3 + (more.map (Text.nest n)).length = code.length + 2 := by
    rw [hcons, List.length_map, List.length_cons]
    omega
  have hnest : numbered 3 (more.map (Text.nest n)) = (numbered 3 more).map (nest n) :=
    (map_numbered (Text.nest n) 3 more).symm
  rw [hcons, List.map_cons, List.append_assoc, List.cons_append, List.cons_append,
    List.nil_append, List.cons_append, numbered, numbered, numbered, numbered_append, hnest,
    ← hcons, hlength]
  rfl

/-- One line of prose below a blank line. -/
theorem Frame.cut_blank_prose (htail : isProse tail = true) (number next : Nat) :
    cut [⟨number, []⟩, ⟨next, tail⟩] = [.paragraph next tail] := by
  have hprose : IsProseLines [tail] := ⟨List.cons_ne_nil _ _, List.forall_mem_singleton.2 htail⟩
  have htext : ([⟨next, tail⟩] : List Line).map Line.text = [tail] := rfl
  have hafter : ∀ line, ([] : List Line).head? = some line → line.isBlank = true := nofun
  have hcut := Paragraph.cut_prose_append hprose htext hafter
  rw [List.append_nil, unlines_singleton, cut_of_isBlank (List.forall_mem_nil _)] at hcut
  rw [cut, if_pos (show Line.isBlank ⟨number, []⟩ = true from rfl), hcut]

/-- Prose stands at the margin, so that nothing indented goes on below a blank line. -/
theorem Line.isIndented_of_prose (htail : isProse tail = true) (number next : Nat) :
    ∀ line, (([⟨number, []⟩, ⟨next, tail⟩] : List Line).dropWhile isBlank).head? = some line →
      line.isIndented = false := by
  have hsolid := isSolid_of_isProse htail
  have hblank : isBlank ⟨next, tail⟩ = false := hsolid.blank
  intro line hline
  rw [List.dropWhile_cons_of_pos rfl, List.dropWhile_cons_of_neg (by simp [hblank])] at hline
  rw [← Option.some.inj hline, isIndented]
  exact decide_eq_false (Nat.not_lt_of_le (Nat.le_of_eq (hsolid.indent 0)))

theorem Block.chunksOfAll_verbatim (hcode : IsVerbatim code) :
    (chunksOfAll [] [.paragraph 0 [.text (lead ++ [':'])], .literal 2 (unlines code),
        .paragraph (code.length + 3) [.text tail]]).1 =
      [.prose 0 (lead ++ [':']), .prose 2 (unlines (code.map (spaces 4 ++ ·))),
        .prose (code.length + 3) tail] := by
  obtain ⟨start, more, hcons, -⟩ := hcode.exists_cons
  have hindent : '\n' ∉ quoteIndent := not_mem_spaces (by decide) 4
  have hshown : quoteIndent ++ hang quoteIndent (unlines code) =
      unlines (code.map (spaces 4 ++ ·)) := by
    rw [hcons, hang_unlines hindent (hcons ▸ hcode.newline), List.map_cons, unlines_append_head]
    rfl
  rw [chunksOfAll_paragraph, ← hshown]
  refine congrArg (Chunk.prose 0 (lead ++ [':']) :: Chunk.prose 2 _ :: ·) ?_
  exact chunksOfAll_paragraph (code.length + 3) tail []

/-- The pieces of the description with one blank line between any two. -/
theorem Text.unlines_verbatim {announced : Text} (hne : code ≠ []) :
    unlines ([announced, []] ++ code ++ [[], tail]) =
      announced ++ "\n\n".toList ++ (unlines code ++ "\n\n".toList ++ tail) := by
  have hlines : [announced, []] ++ code ++ [[], tail] =
      [announced] ++ [] :: (code ++ [] :: [tail]) := by simp
  rw [hlines, unlines_append_nil (List.cons_ne_nil _ _) (by simp),
    unlines_append_nil hne (List.cons_ne_nil _ _), unlines_singleton, unlines_singleton]

variable (hlead : isProse lead = true) (hcode : IsVerbatim code)
include hlead hcode

/-- The numbers of the lines leave a blank line on either side of the block. -/
theorem Chunk.join_verbatim (tail : Text) :
    join [.prose 0 (lead ++ [':']), .prose 2 (unlines (code.map (spaces 4 ++ ·))),
        .prose (code.length + 3) tail] =
      unlines ([lead ++ [':'], []] ++ code.map (spaces 4 ++ ·) ++ [[], tail]) := by
  have hne : code.map (spaces 4 ++ ·) ≠ [] := by
    obtain ⟨start, more, hcons, -⟩ := hcode.exists_cons
    simp [hcons]
  have hleadBreaks : (lead ++ [':']).count '\n' = 0 := List.count_eq_zero.2 fun hmem =>
    (List.mem_append.1 hmem).elim (isTrimmed_of_isProse hlead).newline (by decide)
  have hcodeBreaks := count_newline_unlines hne <| List.forall_mem_map.2 fun line hline hmem =>
    (List.mem_append.1 hmem).elim (not_mem_spaces (by decide) 4) (hcode.newline line hline)
  rw [List.length_map] at hcodeBreaks
  have hleadGap : 0 + (lead ++ [':']).count '\n' + 1 < 2 := by omega
  have hcodeGap : 2 + (unlines (code.map (spaces 4 ++ ·))).count '\n' + 1 < code.length + 3 := by
    omega
  rw [unlines_verbatim hne, join_cons_of_lt _ hleadGap, join_cons_of_lt _ hcodeGap]
  simp [join]

variable (htail : isProse tail = true)
include htail

theorem Text.trimmedLines_verbatim (n : Nat) :
    trimmedLines (unlines ([lead ++ "::".toList, []] ++ code.map (nest n) ++ [[], tail])) =
      [lead ++ "::".toList, []] ++ code.map (nest n) ++ [[], tail] := by
  have hlines : ∀ line ∈ [lead ++ "::".toList, []] ++ code.map (nest n) ++ [[], tail],
      '\n' ∉ line ∧ trimEnd line = line := by
    have hempty : '\n' ∉ ([] : Text) ∧ trimEnd [] = [] := ⟨List.not_mem_nil, rfl⟩
    have hannounced : '\n' ∉ lead ++ "::".toList ∧
        trimEnd (lead ++ "::".toList) = lead ++ "::".toList := by
      have hprose := isTrimmed_of_isProse hlead
      refine ⟨fun hmem => (List.mem_append.1 hmem).elim hprose.newline (by decide), ?_⟩
      exact dropEndWhile_append_of_ne_nil (m := "::".toList) (by decide) lead
    have hend := isTrimmed_of_isProse htail
    simp only [List.forall_mem_append, List.forall_mem_cons, List.forall_mem_map]
    refine ⟨⟨⟨hannounced, hempty, List.forall_mem_nil _⟩, fun line hline => ⟨?_, ?_⟩⟩,
      hempty, ⟨hend.newline, hend.trimEnd⟩, List.forall_mem_nil _⟩
    · exact fun hmem => (mem_nest hmem).elim (by decide) (hcode.newline line hline)
    · exact hcode.trimEnd_nest hline n
  rw [trimmedLines_unlines_of_newline fun line hline => (hlines line hline).1]
  · exact (List.map_congr_left fun line hline => (hlines line hline).2).trans (List.map_id _)
  · rw [List.getLast?_append_of_ne_nil _ (List.cons_ne_nil _ _)]
    exact fun he => (isSolid_of_isProse htail).ne_nil (Option.some.inj he)

theorem Frame.cut_verbatim {n : Nat} (hn : 0 < n) :
    cut (Line.numbered 0 ([lead ++ "::".toList, []] ++ code.map (nest n) ++ [[], tail])) =
      [.paragraph 0 (lead ++ [':']), .literal 2 (unlines code),
        .paragraph (code.length + 3) tail] := by
  obtain ⟨start, more, hcons, hne⟩ := hcode.exists_cons
  have hannounced : Line.isBlank ⟨0, lead ++ "::".toList⟩ = false := by
    obtain ⟨c, u, hc⟩ := (startsParagraph_announcement hlead).head
    rw [Line.isBlank, hc.1, blank, List.all_cons, isBlank_of_not_isMark hc.2, Bool.false_and]
  have hstart : (Line.nest n ⟨2, start⟩).isBlank = false :=
    (Line.isBlank_nest n _).trans (hcode.not_blank (hcons ▸ List.mem_cons_self) hne)
  have hbelow : (Line.nest n ⟨2, start⟩).isIndented = true :=
    (Line.isBelow_nest hn _).resolve_left (by rw [hstart]; decide)
  have hhanging := hcode.hanging_numbered hn hcons
    (Line.isIndented_of_prose htail (code.length + 2) (code.length + 3)) 3
  have hdedent : (Line.dedent (Line.nest n ⟨2, start⟩ ::
      (Line.numbered 3 more).map (Line.nest n))).map Line.text = code := by
    have hdedent := hcode.dedent_numbered n 2
    rwa [hcons, Line.numbered, List.map_cons, ← hcons] at hdedent
  rw [Line.numbered_verbatim n hcons, cut, hannounced, if_neg Bool.false_ne_true,
    first_announcement hlead 0 rfl hstart hbelow hhanging, hdedent, cut_blank_prose htail]
  rfl

/-- The description shows the block behind four spaces, and as far from the prose around it as one
blank line. -/
theorem Doc.ofBlocks_verbatim :
    Doc.ofBlocks [.paragraph 0 [.text (lead ++ [':'])], .literal 2 (unlines code),
        .paragraph (code.length + 3) [.text tail]] =
      .ok ⟨lead ++ [':'], unlines ([lead ++ [':'], []] ++ code.map (spaces 4 ++ ·) ++ [[], tail]),
        [], []⟩ := by
  have hjoin := Chunk.join_verbatim hlead hcode tail
  have hsolid :
      IsSolid (unlines ([lead ++ [':'], []] ++ code.map (spaces 4 ++ ·) ++ [[], tail])) := by
    obtain ⟨start, more, hcons, -⟩ := hcode.exists_cons
    rw [unlines_verbatim (by simp [hcons]), ← List.append_assoc, ← List.append_assoc,
      List.append_assoc (lead ++ [':']), List.append_assoc (lead ++ [':'])]
    exact (isSolid_announced hlead).of_append (isSolid_of_isProse htail)
  rw [← hjoin] at hsolid
  rw [Doc.ofBlocks, Block.summarize, Block.describe, Block.chunksOfAll_verbatim hcode,
    Chunk.description_of_isSolid hsolid, hjoin]
  rfl

end Document

/-- A literal block holds its lines as they are, whatever they look like. It ends before the next
line at the margin, and is shown with four spaces before every line. -/
theorem Block.parse_verbatim (roles : List Text) {lead tail : Text} {code : List Text} {n : Nat}
    (hlead : isProse lead = true) (hn : 0 < n) (hcode : IsVerbatim code)
    (htail : isProse tail = true) :
    ∃ blocks, blocks = [.paragraph 0 [.text (lead ++ [':'])], .literal 2 (unlines code),
        .paragraph (code.length + 3) [.text tail]] ∧
      parse roles (unlines ([lead ++ "::".toList, []] ++ code.map (nest n) ++ [[], tail])) =
        .ok blocks ∧
      Doc.ofBlocks blocks = .ok ⟨lead ++ [':'],
        unlines ([lead ++ [':'], []] ++ code.map (spaces 4 ++ ·) ++ [[], tail]), [], []⟩ := by
  refine ⟨_, rfl, ?_, Doc.ofBlocks_verbatim hlead hcode htail⟩
  have hprose : IsProseLines [tail] := ⟨List.cons_ne_nil _ _, List.forall_mem_singleton.2 htail⟩
  have hlast := Paragraph.toBlock_prose roles (ofLines roles) hprose (code.length + 3)
  rw [unlines_singleton] at hlast
  rw [parse, Line.ofText_eq_numbered, trimmedLines_verbatim hlead hcode htail, ofLines_eq,
    Frame.cut_verbatim hlead hcode htail hn, List.mapM_cons, List.mapM_cons, List.mapM_cons, hlast,
    Frame.toBlock, Inline.parse_announcement hlead]
  rfl

/-- A role without a name for it, a field, an item and a line of a session, none of them read. -/
theorem Block.parse_verbatim_field :
    (isProse "See 1".toList = true ∧ 0 < 2 ∧
      IsVerbatim ["  :a:`b` *c".toList, [], ":param x: y".toList, "\t>>> - d".toList] ∧
      isProse "End".toList = true) ∧
    parse [] "See 1::\n\n    :a:`b` *c\n\n  :param x: y\n  \t>>> - d\n\nEnd".toList =
      .ok [.paragraph 0 [.text "See 1:".toList],
        .literal 2 "  :a:`b` *c\n\n:param x: y\n\t>>> - d".toList,
        .paragraph 7 [.text "End".toList]] ∧
    Doc.ofBlocks [.paragraph 0 [.text "See 1:".toList],
        .literal 2 "  :a:`b` *c\n\n:param x: y\n\t>>> - d".toList,
        .paragraph 7 [.text "End".toList]] =
      .ok ⟨"See 1:".toList,
        "See 1:\n\n      :a:`b` *c\n    \n    :param x: y\n    \t>>> - d\n\nEnd".toList, [], []⟩ := by
  have hlead : isProse "See 1".toList = true := by decide +kernel
  have htail : isProse "End".toList = true := by decide +kernel
  have hcode : IsVerbatim ["  :a:`b` *c".toList, [], ":param x: y".toList, "\t>>> - d".toList] :=
    ⟨by decide, by decide, by decide, by decide, by decide⟩
  obtain ⟨blocks, hblocks, hparse, hdoc⟩ :=
    parse_verbatim [] (n := 2) hlead (by decide) hcode htail
  subst hblocks
  exact ⟨⟨hlead, by decide, hcode, htail⟩, hparse, hdoc⟩

end CallDoc
