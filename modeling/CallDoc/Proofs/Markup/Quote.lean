import CallDoc.Proofs.Markup.ItemBody
import CallDoc.Proofs.Markup.Locality
import CallDoc.Proofs.Markup.Numbered

/-!
A document moved to the right as a whole. All of it is one quote then. The quote is read without
its margin, and so without the move; the blank lines at the ends of the document, which are not
in the quote, begin no block and do not change where one ends.
-/
namespace CallDoc

open Text

/-! ## Lines -/

namespace Text

/-- The text with every line that is not blank moved to the right. -/
def shifted (n : Nat) (t : Text) : Text :=
  unlines ((splitOn '\n' t).map fun line => if blank line then line else spaces n ++ line)

/-- The lines of a text are rewritten one by one, by what does not look at their ends. -/
theorem map_trimEnd_closeLines_map {f g : Text → Text}
    (htrim : ∀ line, trimEnd (f line) = g (trimEnd line))
    (hempty : ∀ line, (f line).isEmpty = line.isEmpty) (pieces : List Text) :
    (closeLines (pieces.map f)).map trimEnd = ((closeLines pieces).map trimEnd).map g := by
  induction pieces with
  | nil => rfl
  | cons piece more ih =>
    cases more with
    | nil =>
      rw [List.map_singleton, closeLines, closeLines, hempty]
      split
      · rfl
      · rw [List.map_singleton, List.map_singleton, List.map_singleton, htrim]
    | cons next more =>
      have hhead : trimEnd (dropReturn (f piece)) = g (trimEnd (dropReturn piece)) := by
        rw [trimEnd_dropReturn, trimEnd_dropReturn, htrim]
      exact congrArg₂ List.cons hhead ih

theorem trimmedLines_shifted (n : Nat) (t : Text) :
    trimmedLines (shifted n t) = (trimmedLines t).map (nest n) := by
  have hnewline : ∀ piece ∈ (splitOn '\n' t).map fun line =>
      if blank line then line else spaces n ++ line, '\n' ∉ piece := by
    refine List.forall_mem_map.2 fun piece hpiece => ?_
    have hpiece := (of_mem_splitOn hpiece).1
    split
    · exact hpiece
    · exact fun hc => (List.mem_append.1 hc).elim (not_mem_spaces (by decide) n) hpiece
  have hempty (line : Text) :
      (if blank line then line else spaces n ++ line).isEmpty = line.isEmpty := by
    cases hblank : blank line with
    | true => rfl
    | false =>
      have hne := ne_nil_of_not_blank hblank
      rw [if_neg Bool.false_ne_true, List.isEmpty_eq_false_iff.2 hne,
        List.isEmpty_eq_false_iff.2 (List.append_ne_nil_of_right_ne_nil _ hne)]
  rw [trimmedLines, lines, shifted, splitOn_unlines (by simp [splitOn_ne_nil]) hnewline]
  exact map_trimEnd_closeLines_map (fun _ => trimEnd_move n) hempty (splitOn '\n' t)

end Text

namespace Line

variable {lines : List Line}

theorem ofText_shifted (n : Nat) (t : Text) : ofText (shifted n t) = (ofText t).map (nest n) := by
  rw [ofText_eq_numbered, ofText_eq_numbered, trimmedLines_shifted, ← map_numbered]
  rfl

/-- Lines of which one stands at the margin have no margin in common. -/
theorem dedent_of_margin (htrim : ∀ line ∈ lines, trimEnd line.text = line.text)
    (h : ∃ line ∈ lines, line.isBlank = false ∧ line.isIndented = false) :
    dedent lines = lines := by
  obtain ⟨line, hline, hblank, hindented⟩ := h
  have hzero : indent line.text = 0 := by simpa [isIndented] using hindented
  have hmem : 0 ∈ (lines.filter fun l => !l.isBlank).map fun l => indent l.text :=
    List.mem_map.2 ⟨line, List.mem_filter.2 ⟨hline, by simp [hblank]⟩, hzero⟩
  have hmargin : margin lines = 0 := by
    rw [margin, List.min?_eq_some_iff.2 ⟨hmem, fun _ _ => Nat.zero_le _⟩, Option.getD_some]
  rw [dedent, hmargin]
  refine (List.map_congr_left fun l hl => ?_).trans (List.map_id lines)
  rw [List.drop_zero, htrim l hl]
  rfl

/-- What is moved to the right hangs, up to the blank lines at the end. -/
theorem hanging_nest_append {n : Nat} (hn : 0 < n) {core gap : List Line}
    (hcore : dropEndWhile isBlank core = core) (hgap : ∀ line ∈ gap, line.isBlank = true) :
    hanging ((core ++ gap).map (nest n)) = (core.map (nest n), gap.map (nest n)) := by
  have hbody : dropEndWhile isBlank ((core ++ gap).map (nest n)) = core.map (nest n) := by
    rw [dropEndWhile_map]
    simp only [isBlank_nest]
    rw [dropEndWhile_append hgap, hcore]
  rw [hanging_of_isBelow (List.forall_mem_map.2 fun line _ => isBelow_nest hn line), hbody,
    List.map_append, List.drop_left]

end Line

/-! ## Blocks -/

theorem Block.ofLines_nest_cons (roles : List Text) {n : Nat} (hn : 0 < n) {line : Line}
    {below : List Line} (htrim : ∀ l ∈ line :: below, trimEnd l.text = l.text)
    (hblank : line.isBlank = false)
    (h : ∃ l ∈ line :: below, l.isBlank = false ∧ l.isIndented = false) :
    ofLines roles ((line :: below).map (Line.nest n)) =
      (ofLines roles (line :: below)).map fun children => [.quote line.number children] := by
  obtain ⟨gap, hbelow, hgap⟩ := exists_append_dropEndWhile Line.isBlank below
  have hcore : dropEndWhile Line.isBlank (dropEndWhile Line.isBlank below) =
      dropEndWhile Line.isBlank below :=
    dropEndWhile_eq_self fun _ => of_getLast?_dropEndWhile
  generalize dropEndWhile Line.isBlank below = core at hbelow hcore
  subst hbelow
  have hindented : (line.nest n).isIndented = true :=
    (Line.isBelow_nest hn line).resolve_left (by rw [Line.isBlank_nest, hblank]; decide)
  have hbody : Line.dedent ((line :: core).map (Line.nest n)) = line :: core := by
    obtain ⟨l, hl, hsolid, hmargin⟩ := h
    rw [Line.dedent_nest, Line.dedent_of_margin fun l hl =>
      htrim l (List.mem_append_left gap (show l ∈ line :: core from hl))]
    refine ⟨l, (List.mem_append.1 (show l ∈ (line :: core) ++ gap from hl)).resolve_right
      fun hl => ?_, hsolid, hmargin⟩
    rw [hgap l hl] at hsolid
    cases hsolid
  rw [List.map_cons] at hbody
  have hcut : Frame.cut ((line :: (core ++ gap)).map (Line.nest n)) =
      [.quote line.number (line :: core)] := by
    rw [List.map_cons, Frame.cut, Line.isBlank_nest, hblank, if_neg Bool.false_ne_true,
      Frame.first_of_isIndented hindented, Line.hanging_nest_append hn hcore hgap, hbody,
      Frame.cut_of_isBlank]
    · rfl
    · exact List.forall_mem_map.2 fun l hl => (Line.isBlank_nest n l).trans (hgap l hl)
  have hread : ofLines roles (line :: (core ++ gap)) = ofLines roles (line :: core) :=
    ofLines_append_of_isBlank roles (line :: core) hgap
  rw [ofLines_eq, hcut, hread, List.mapM_cons, List.mapM_nil, Frame.toBlock]
  cases ofLines roles (line :: core) <;> rfl

/-- By induction on the blank lines at the start: lines moved to the right are one quote. -/
theorem Block.ofLines_nest (roles : List Text) {n : Nat} (hn : 0 < n) {lines : List Line}
    {start : Line} (hstart : lines.find? (fun line => !line.isBlank) = some start)
    (htrim : ∀ line ∈ lines, trimEnd line.text = line.text)
    (h : ∃ line ∈ lines, line.isBlank = false ∧ line.isIndented = false) :
    ofLines roles (lines.map (Line.nest n)) =
      (ofLines roles lines).map fun children => [.quote start.number children] := by
  induction lines with
  | nil => cases hstart
  | cons line below ih =>
    cases hblank : line.isBlank with
    | false =>
      rw [List.find?_cons_of_pos (by simp [hblank])] at hstart
      obtain rfl := Option.some.inj hstart
      exact ofLines_nest_cons roles hn htrim hblank h
    | true =>
      rw [List.find?_cons_of_neg (by simp [hblank])] at hstart
      rw [List.map_cons, ofLines_cons_of_isBlank roles ((Line.isBlank_nest n line).trans hblank),
        ofLines_cons_of_isBlank roles hblank]
      refine ih hstart (List.forall_mem_cons.1 htrim).2 ?_
      obtain ⟨l, hl, hsolid, hmargin⟩ := h
      refine ⟨l, (List.mem_cons.1 hl).resolve_left fun he => ?_, hsolid, hmargin⟩
      rw [he, hblank] at hsolid
      cases hsolid

theorem Line.find?_numbered (n : Nat) {ts : List Text} (h : ∃ t ∈ ts, Text.blank t = false) :
    ∃ start, (numbered n ts).find? (fun line => !line.isBlank) = some start ∧
      start.number = n + ts.findIdx fun t => !Text.blank t := by
  induction ts generalizing n with
  | nil =>
    obtain ⟨t, ht, -⟩ := h
    cases ht
  | cons t more ih =>
    rw [numbered, List.findIdx_cons]
    cases hblank : Text.blank t with
    | false => exact ⟨⟨n, t⟩, List.find?_cons_of_pos (by simp [isBlank, hblank]), rfl⟩
    | true =>
      obtain ⟨u, hu, hsolid⟩ := h
      have hmore : ∃ u ∈ more, Text.blank u = false := by
        refine ⟨u, (List.mem_cons.1 hu).resolve_left fun he => ?_, hsolid⟩
        rw [he, hblank] at hsolid
        cases hsolid
      obtain ⟨start, hstart, hnumber⟩ := ih (n + 1) hmore
      refine ⟨start, (List.find?_cons_of_neg (by simp [isBlank, hblank])).trans hstart, ?_⟩
      rw [hnumber, Bool.not_true, cond_false, Nat.add_assoc, Nat.add_comm 1]

/-- A document of which every line is moved to the right is read as the document in a quote, when
a line of it stands at the margin. -/
theorem Block.parse_shifted (roles : List Text) {t : Text} {n : Nat} (hn : 0 < n)
    (h : ∃ line ∈ lines t, blank line = false ∧ indent line = 0) :
    parse roles (shifted n t) = (parse roles t).map fun children =>
      [.quote ((lines t).findIdx fun line => !blank line) children] := by
  obtain ⟨line, hline, hblank, hindent⟩ := h
  have hmem : trimEnd line ∈ trimmedLines t := List.mem_map_of_mem hline
  have hsolid : blank (trimEnd line) = false := (blank_trimEnd line).trans hblank
  obtain ⟨start, hstart, hnumber⟩ := Line.find?_numbered 0 ⟨_, hmem, hsolid⟩
  have hindex : (trimmedLines t).findIdx (fun line => !blank line) =
      (lines t).findIdx fun line => !blank line := by
    rw [trimmedLines, List.findIdx_map]
    simp only [Function.comp_def, blank_trimEnd]
  rw [Nat.zero_add, hindex] at hnumber
  rw [parse, Line.ofText_shifted, parse, Line.ofText_eq_numbered, ← hnumber]
  refine ofLines_nest roles hn hstart (fun l hl => ?_) ?_
  · exact trimEnd_of_mem_trimmedLines (Line.text_mem_of_mem_numbered hl)
  · rw [← Line.map_text_numbered 0 (trimmedLines t)] at hmem
    obtain ⟨l, hl, htext⟩ := List.mem_map.1 hmem
    refine ⟨l, hl, ?_, ?_⟩
    · rw [Line.isBlank, htext, hsolid]
    · rw [Line.isIndented, htext, indent_trimEnd hblank, hindent]
      rfl

/-- A quote, a literal block and an unknown role in a document that starts with a blank line and
ends with one. -/
theorem Block.parse_shifted_quote :
    (0 < 3 ∧ ∃ line ∈ lines "\n  a\n\nb::\n\n  :c:`d`\n\n- e\n \n".toList,
      blank line = false ∧ indent line = 0) ∧
    parse [] "\n     a\n\n   b::\n\n     :c:`d`\n\n   - e\n \n".toList =
      (parse [] "\n  a\n\nb::\n\n  :c:`d`\n\n- e\n \n".toList).map fun children =>
        [.quote 1 children] := by
  have hmargin : ∃ line ∈ lines "\n  a\n\nb::\n\n  :c:`d`\n\n- e\n \n".toList,
      blank line = false ∧ indent line = 0 := by decide +kernel
  have hshifted : shifted 3 "\n  a\n\nb::\n\n  :c:`d`\n\n- e\n \n".toList =
      "\n     a\n\n   b::\n\n     :c:`d`\n\n   - e\n \n".toList := by decide +kernel
  have hindex : (lines "\n  a\n\nb::\n\n  :c:`d`\n\n- e\n \n".toList).findIdx
      (fun line => !blank line) = 1 := by decide +kernel
  have hparse := parse_shifted [] (n := 3) (by decide) hmargin
  rw [hshifted, hindex] at hparse
  exact ⟨⟨by decide, hmargin⟩, hparse⟩

end CallDoc
