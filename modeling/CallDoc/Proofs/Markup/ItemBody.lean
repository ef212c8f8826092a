import CallDoc.Proofs.Markup.Nesting
import CallDoc.Proofs.Results
import CallDoc.Proofs.Numeral.Marker

/-!
A document as the item of a list. The item holds the first line of the document behind its
bullet, and the other lines below it without their common indent. So it is read like the
document where a line below the first stands at the margin of the document, and as if they
were moved there where none does.
-/
namespace CallDoc

open Text

namespace Text

/-- The text as the item of a bullet list: the first line behind the bullet, and the others
moved below it. -/
def asItem (t : Text) : Text :=
  match lines t with
  | [] => "- ".toList
  | first :: below =>
    unlines (("- ".toList ++ first) :: below.map fun line =>
      if blank line then line else spaces 2 ++ line)

/-- The text with the lines below its first one moved to the margin. -/
def dedentBelow (t : Text) : Text :=
  match trimmedLines t with
  | [] => []
  | first :: below => unlines (first :: dedent below)

theorem trimEnd_move {line : Text} (n : Nat) :
    trimEnd (if blank line then line else spaces n ++ line) = nest n (trimEnd line) := by
  cases h : blank line with
  | true => rw [if_pos rfl, trimEnd_of_blank h]; rfl
  | false =>
    rw [if_neg Bool.false_ne_true, ← nest_of_ne_nil n (ne_nil_of_not_blank h),
      trimEnd_nest n (Or.inr h)]

/-- The lines of a text of which every line but the first is rewritten by `f`. -/
theorem trimmedLines_unlines_map {f : Text → Text} {head : Text} {below : List Text}
    (hhead : '\n' ∉ head) (hbelow : ∀ line ∈ below, '\n' ∉ f line) (hne : below = [] → head ≠ [])
    (hlast : ∀ line, below.getLast? = some line → f line ≠ []) :
    trimmedLines (unlines (head :: below.map f)) =
      trimEnd head :: below.map fun line => trimEnd (f line) := by
  have hend : (head :: below.map f).getLast? ≠ some [] := by
    rw [List.getLast?_cons, List.getLast?_map]
    intro he
    cases h : below.getLast? with
    | none =>
      rw [h] at he
      exact hne (List.getLast?_eq_none_iff.1 h) (Option.some.inj he)
    | some line =>
      rw [h] at he
      exact hlast line h (Option.some.inj he)
  have hnewline : ∀ line ∈ head :: below.map f, '\n' ∉ line :=
    List.forall_mem_cons.2 ⟨hhead, List.forall_mem_map.2 hbelow⟩
  rw [trimmedLines_unlines_of_newline hnewline hend, List.map_cons, List.map_map]
  rfl

section Lines

variable {t first : Text} {below : List Text} (ht : lines t = first :: below)
  (hlast : ∀ line, (first :: below).getLast? = some line → blank line = false)
include ht hlast

theorem trimmedLines_asItem (hblank : blank first = false) : trimmedLines (asItem t) =
    ('-' :: ' ' :: trimEnd first) :: (below.map trimEnd).map (nest 2) := by
  obtain ⟨hfirst, hbelow⟩ := List.forall_mem_cons.1 fun line hline =>
    newline_of_mem_lines (ht ▸ hline : line ∈ lines t)
  have hitem : asItem t = unlines (("- ".toList ++ first) :: below.map fun line =>
      if blank line then line else spaces 2 ++ line) := by rw [asItem, ht]
  have hhead : trimEnd ("- ".toList ++ first) = '-' :: ' ' :: trimEnd first :=
    dropEndWhile_append_of_ne_nil
      (ne_nil_of_not_blank ((blank_trimEnd first).trans hblank)) "- ".toList
  rw [hitem, trimmedLines_unlines_map, hhead, List.map_map]
  · exact congrArg _ (List.map_congr_left fun line _ => trimEnd_move 2)
  · exact fun hc => (List.mem_append.1 hc).elim (by decide) hfirst
  · intro line hline
    split
    · exact hbelow line hline
    · exact fun hc => (List.mem_append.1 hc).elim (not_mem_spaces (by decide) 2) (hbelow line hline)
  · exact fun _ => List.cons_ne_nil _ _
  · intro line hline
    have hsolid := hlast line (by rw [List.getLast?_cons, hline, Option.getD_some])
    rw [hsolid, if_neg Bool.false_ne_true]
    exact List.append_ne_nil_of_right_ne_nil _ (ne_nil_of_not_blank hsolid)

theorem trimmedLines_dedentBelow : trimmedLines (dedentBelow t) =
    trimEnd first :: (dedent (below.map trimEnd)).map trimEnd := by
  have hnewline : ∀ line ∈ first :: below, '\n' ∉ trimEnd line := fun line hline hc =>
    newline_of_mem_lines (ht ▸ hline) ((dropEndWhile_sublist _ _).subset hc)
  obtain ⟨hfirst, hbelow⟩ := List.forall_mem_cons.1 hnewline
  have htext : dedentBelow t = unlines (trimEnd first :: below.map fun line =>
      (trimEnd line).drop ((margin? (below.map trimEnd)).getD 0)) := by
    rw [dedentBelow, trimmedLines, ht]
    change unlines (_ :: dedent (below.map trimEnd)) = _
    rw [dedent, List.map_map]
    rfl
  rw [htext, trimmedLines_unlines_map hfirst, trimEnd_trimEnd, dedent, List.map_map, List.map_map]
  · rfl
  · exact fun line hline hc => hbelow line hline (List.mem_of_mem_drop hc)
  · rintro rfl
    exact ne_nil_of_not_blank ((blank_trimEnd first).trans (hlast first rfl))
  · intro line hline
    have hsolid := hlast line (by rw [List.getLast?_cons, hline, Option.getD_some])
    exact drop_margin_ne_nil _ (List.mem_map_of_mem (List.mem_of_getLast? hline))
      ((blank_trimEnd line).trans hsolid)

end Lines

end Text

namespace Line

/-- A list item whose other lines are all indented takes them all. -/
theorem hanging_of_getLast? {lines : List Line} (h : ∀ line ∈ lines, line.IsBelow)
    (hlast : ∀ line, lines.getLast? = some line → line.isBlank = false) :
    hanging lines = (lines, []) := by
  rw [hanging_of_isBelow h, dropEndWhile_eq_self hlast, List.drop_length]

end Line

namespace Frame

theorem items_of_hanging (next? : Nat → Text → Option Nat) (count offset : Nat) (line : Line)
    {below : List Line} (h : Line.hanging below = (below, [])) :
    items next? count offset line below =
      ([Line.bodyBelow { line with text := line.text.drop offset } below], []) := by
  rw [items_eq, h]
  rfl

/-- A dash and a space before a line start an item. -/
theorem first_dash {number : Nat} {t : Text} (hindent : indent t = 0) {below : List Line}
    (hbelow : Line.hanging below = (below, [])) :
    first ⟨number, '-' :: ' ' :: t⟩ below =
      ([.bullets number '-' [Line.bodyBelow ⟨number, t⟩ below]], []) := by
  have hoffset : bulletOffset ('-' :: ' ' :: t) = 2 := by
    have hspace : indent (' ' :: t) = 1 + indent t :=
      indent_append (show blank [' '] = true from rfl) t
    rw [bulletOffset, List.tail_cons, hspace, hindent]
  have hbullet : bullet? ('-' :: ' ' :: t) = some '-' := by
    rw [bullet?, if_pos ⟨Or.inr (Or.inr rfl), rfl⟩]
  have hexplicit : isExplicit ('-' :: ' ' :: t) = false := isExplicit_of_head (by decide)
  have hmargin : Line.isIndented ⟨number, '-' :: ' ' :: t⟩ = false := rfl
  have hheader : fieldHeader? ('-' :: ' ' :: t) = none := rfl
  unfold first
  simp only [hmargin, hexplicit, hheader, hbullet, hoffset, items_of_hanging _ _ _ _ hbelow,
    Bool.false_eq_true, if_false]
  rfl

end Frame

/-! ## The lines of an item -/

namespace Line

/-- Lines without blanks at their ends are blank only where they are empty. -/
theorem dedent_mapIdx {lines : List Text} (h : ∀ line ∈ lines, trimEnd line = line) :
    dedent (lines.mapIdx fun number text => ⟨number + 1, text⟩) =
      ((Text.dedent lines).map trimEnd).mapIdx fun number text => ⟨number + 1, text⟩ := by
  have hempty : ∀ line ∈ lines, (!Text.blank line) = !line.isEmpty := by
    intro line hline
    cases hblank : Text.blank line with
    | true =>
      have hnil : line = [] := (h line hline).symm.trans (trimEnd_of_blank hblank)
      rw [hnil]
      rfl
    | false =>
      cases line with
      | nil => cases hblank
      | cons c t => rfl
  have hmargin : margin (lines.mapIdx fun number text => ⟨number + 1, text⟩) =
      (margin? lines).getD 0 := by
    have htexts : (lines.mapIdx fun number text => Line.mk (number + 1) text).map text = lines :=
      List.ext_getElem? fun i => by simp [Function.comp_def]
    have hfilter : ((lines.mapIdx fun number text => Line.mk (number + 1) text).filter
        fun line => !line.isBlank).map (fun line => indent line.text) =
        (lines.filter fun line => !line.isEmpty).map indent := by
      rw [← List.filter_congr hempty]
      conv_rhs => rw [← htexts]
      rw [List.filter_map, List.map_map]
      rfl
    rw [margin, hfilter, margin?]
  rw [dedent, hmargin, Text.dedent]
  exact List.ext_getElem? fun i => by simp [Function.comp_def]

theorem isBelow_nest {n : Nat} (hn : 0 < n) (line : Line) : (line.nest n).IsBelow := by
  cases hblank : line.isBlank with
  | true => exact Or.inl ((isBlank_nest n line).trans hblank)
  | false =>
    refine Or.inr (decide_eq_true ?_)
    rw [indent_nest_text n hblank]
    omega

end Line

/-- The blocks of an item are those of the document with the lines below its first one moved to
the margin. -/
theorem Block.parse_asItem_dedentBelow (roles : List Text) {t first : Text} {below : List Text}
    (ht : lines t = first :: below)
    (hlast : ∀ line, (first :: below).getLast? = some line → blank line = false)
    (hblank : blank first = false) (hindent : indent first = 0) :
    parse roles (asItem t) =
      (parse roles (dedentBelow t)).map fun children => [.bullets 0 '-' [children]] := by
  have htrimmed : ∀ line ∈ below.map trimEnd, trimEnd line = line :=
    List.forall_mem_map.2 fun line _ => trimEnd_trimEnd line
  have hitem := Line.ofText_cons (trimmedLines_asItem ht hlast hblank)
  have hbody := Line.ofText_cons (trimmedLines_dedentBelow ht hlast)
  rw [← Line.dedent_mapIdx htrimmed] at hbody
  rw [Line.mapIdx_nest] at hitem
  have htexts : ((below.map trimEnd).mapIdx fun number text => Line.mk (number + 1) text).map
      Line.text = below.map trimEnd := List.ext_getElem? fun i => by simp [Function.comp_def]
  generalize (below.map trimEnd).mapIdx (fun number text => Line.mk (number + 1) text) = rest
    at hitem hbody htexts
  have hhanging : Line.hanging (rest.map (Line.nest 2)) = (rest.map (Line.nest 2), []) := by
    refine Line.hanging_of_getLast? (List.forall_mem_map.2 fun line _ =>
      Line.isBelow_nest (by decide) line) fun line hline => ?_
    rw [List.getLast?_map] at hline
    obtain ⟨l, hl, rfl⟩ := Option.map_eq_some_iff.1 hline
    have htext : (below.map trimEnd).getLast? = some l.text := by
      rw [← htexts, List.getLast?_map, hl, Option.map_some]
    rw [List.getLast?_map] at htext
    obtain ⟨last, hmem, he⟩ := Option.map_eq_some_iff.1 htext
    rw [Line.isBlank_nest, Line.isBlank, ← he, blank_trimEnd]
    exact hlast last (by rw [List.getLast?_cons, hmem, Option.getD_some])
  have hcut : Frame.cut (Line.ofText (asItem t)) =
      [.bullets 0 '-' [Line.ofText (dedentBelow t)]] := by
    have hmargin : indent (trimEnd first) = 0 := (indent_trimEnd hblank).trans hindent
    have hstart : (Line.mk 0 ('-' :: ' ' :: trimEnd first)).isBlank = false := rfl
    have hfirst : (Line.mk 0 (trimEnd first)).isBlank = false := (blank_trimEnd first).trans hblank
    rw [hitem, Frame.cut, if_neg (by simp [hstart]), Frame.first_dash hmargin hhanging, Frame.cut,
      Line.bodyBelow, hfirst, if_neg Bool.false_ne_true, Line.dedent_nest, hbody]
    rfl
  rw [parse, ofLines_eq, hcut, parse, List.mapM_cons, List.mapM_nil, Frame.toBlock, List.mapM_cons,
    List.mapM_nil]
  cases ofLines roles (Line.ofText (dedentBelow t)) <;> rfl

/-- A document is read in the same way as the item of a list, unless there are lines below its
first one and all of them are indented. -/
theorem Block.parse_asItem (roles : List Text) {t first : Text} {below : List Text}
    (ht : lines t = first :: below)
    (hlast : ∀ line, (first :: below).getLast? = some line → blank line = false)
    (hblank : blank first = false) (hindent : indent first = 0) :
    parse roles (asItem t) =
        (parse roles (dedentBelow t)).map (fun children => [.bullets 0 '-' [children]]) ∧
      ((below = [] ∨ ∃ line ∈ below, blank line = false ∧ indent line = 0) →
        parse roles (dedentBelow t) = parse roles t) := by
  refine ⟨parse_asItem_dedentBelow roles ht hlast hblank hindent, fun hbelow => ?_⟩
  have hdedent : dedent (below.map trimEnd) = below.map trimEnd := dedent_of_margin <| by
    rcases hbelow with rfl | ⟨line, hline, hsolid, hzero⟩
    · rfl
    · have := margin_le (List.mem_map_of_mem (f := trimEnd) hline)
        ((blank_trimEnd line).trans hsolid)
      rw [indent_trimEnd hsolid, hzero] at this
      exact Nat.le_zero.1 this
  have htrimmed : trimmedLines (dedentBelow t) = trimmedLines t := by
    rw [trimmedLines_dedentBelow ht hlast, hdedent, List.map_map, trimmedLines, ht, List.map_cons]
    exact congrArg _ (List.map_congr_left fun line _ => trimEnd_trimEnd line)
  rw [parse, Line.ofText, htrimmed]
  rfl

/-- A literal block in an item, below which a line stands at the margin of the item. -/
theorem Block.parse_asItem_literal :
    (lines "a::\n\n  c\nb".toList =
        "a::".toList :: ["".toList, "  c".toList, "b".toList] ∧
      (∀ line, ["a::".toList, "".toList, "  c".toList, "b".toList].getLast? = some line →
        blank line = false) ∧
      blank "a::".toList = false ∧ indent "a::".toList = 0 ∧
      ∃ line ∈ ["".toList, "  c".toList, "b".toList], blank line = false ∧ indent line = 0) ∧
    parse Role.usual "- a::\n\n    c\n  b".toList =
      (parse Role.usual "a::\n\n  c\nb".toList).map fun children =>
        [.bullets 0 '-' [children]] := by
  have hlines : lines "a::\n\n  c\nb".toList =
      "a::".toList :: ["".toList, "  c".toList, "b".toList] := by decide
  have hlast : ∀ line, ["a::".toList, "".toList, "  c".toList, "b".toList].getLast? = some line →
      blank line = false := fun line hline => Option.some.inj hline ▸ by decide
  have hmargin : ∃ line ∈ ["".toList, "  c".toList, "b".toList],
      blank line = false ∧ indent line = 0 := by decide
  have hitem : asItem "a::\n\n  c\nb".toList = "- a::\n\n    c\n  b".toList := by decide
  obtain ⟨hparse, hsame⟩ := parse_asItem Role.usual hlines hlast (by decide) (by decide)
  rw [hitem, hsame (Or.inr hmargin)] at hparse
  exact ⟨⟨hlines, hlast, by decide, by decide, hmargin⟩, hparse⟩

/-- A quote below the first line is none in the item, where nothing else stands at the margin. -/
theorem Block.parse_asItem_ne_quote :
    (lines "a\n\n  b".toList = "a".toList :: ["".toList, "  b".toList] ∧
      (∀ line, ["a".toList, "".toList, "  b".toList].getLast? = some line →
        blank line = false) ∧
      blank "a".toList = false ∧ indent "a".toList = 0) ∧
    ∃ blocks, parse Role.usual "a\n\n  b".toList = .ok blocks ∧
      parse Role.usual (asItem "a\n\n  b".toList) ≠ .ok [.bullets 0 '-' [blocks]] := by
  have hlast : ∀ line, ["a".toList, "".toList, "  b".toList].getLast? = some line →
      blank line = false := fun line hline => Option.some.inj hline ▸ by decide
  -- the two trees are told apart by what is shown of them
  have hwhole : (parse Role.usual "a\n\n  b".toList).map
      (fun blocks => describe [.bullets 0 '-' [blocks]]) = .ok "- a\n\n      b".toList := by
    decide +kernel
  have hitem : (parse Role.usual (asItem "a\n\n  b".toList)).map describe =
      .ok "- a\n\n  b".toList := by decide +kernel
  obtain ⟨blocks, hblocks, hshown⟩ := map_eq_ok_iff.1 hwhole
  refine ⟨⟨by decide, hlast, by decide, by decide⟩, blocks, hblocks, fun he => ?_⟩
  rw [he] at hitem
  exact absurd (hshown.symm.trans (Except.ok.inj hitem)) (by decide)

end CallDoc
