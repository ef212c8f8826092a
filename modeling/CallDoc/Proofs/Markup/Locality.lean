import CallDoc.Proofs.Markup.Hanging
import CallDoc.Proofs.Markup.Renumber
import CallDoc.Proofs.Numeral.Marker

/-!
Blocks are local. Where a block ends it looks ahead over blank lines, but what it takes from
there are lines that are indented, or items of its own list. So a blank line and a line at the
margin that is no item of a list leave the blocks before them as they are, and two documents
with a blank line between them are read independently.
-/
namespace CallDoc

open Text

/-- A line at the margin that is no item of any list. -/
structure Line.StandsAlone (line : Line) : Prop where
  indented : line.isIndented = false
  bullet : Frame.bullet? line.text = none
  marker : Marker.ofLine? line.text = none

/-- Lines that start with a blank one, and below their blank lines with one that stands alone. -/
structure Line.Apart (rest : List Line) : Prop where
  blank : ∀ line, rest.head? = some line → line.isBlank = true
  next : ∀ line, (rest.dropWhile isBlank).head? = some line → line.StandsAlone

namespace Frame

variable {rest : List Line}

/-! ## Where a block ends -/

theorem items_append (next? : Nat → Text → Option Nat)
    (hrest : ∀ line, (rest.dropWhile Line.isBlank).head? = some line →
      line.isIndented = false ∧ ∀ count, next? count line.text = none)
    (count offset : Nat) (line : Line) (below : List Line) :
    items next? count offset line (below ++ rest) =
      ((items next? count offset line below).1,
        (items next? count offset line below).2 ++ rest) := by
  have hhanging (below : List Line) :=
    Line.hanging_append below fun line hline => (hrest line hline).1
  fun_induction items next? count offset line below with
  | case1 count offset line below item hnext =>
    rw [items_eq, hhanging, List.dropWhile_append, hnext]
    cases hbeyond : rest.dropWhile Line.isBlank with
    | nil => rfl
    | cons other more =>
      have hother := (hrest other (by rw [hbeyond]; rfl)).2 count
      simp only [List.isEmpty_nil, if_true, hother]
      rfl
  | case2 count offset line below item next more hnext hplace =>
    rw [items_eq, hhanging, List.dropWhile_append, hnext]
    simp only [List.isEmpty_cons, Bool.false_eq_true, if_false, List.cons_append, hplace]
    rfl
  | case3 count offset line below item next more hnext offset' hplace others ih =>
    rw [items_eq, hhanging, List.dropWhile_append, hnext]
    simp only [List.isEmpty_cons, Bool.false_eq_true, if_false, List.cons_append, hplace, ih]
    rfl

theorem startsList_append (hrest : ∀ line, rest.head? = some line → line.isBlank = true)
    (marker : Marker) (sequence : Sequence) (start : Nat) (below : List Line) :
    startsList marker sequence start (below ++ rest) = startsList marker sequence start below := by
  cases below with
  | nil =>
    cases rest with
    | nil => rfl
    | cons line rest => simp [startsList, hrest line rfl]
  | cons next below => rfl

theorem enumerator?_append (hrest : ∀ line, rest.head? = some line → line.isBlank = true)
    (text : Text) (below : List Line) :
    enumerator? text (below ++ rest) = enumerator? text below := by
  simp only [enumerator?, startsList_append hrest]

theorem ofParagraph_append (hrest : Line.Apart rest) (line : Line) (below : List Line) :
    ofParagraph line (below ++ rest) =
      ((ofParagraph line below).1, (ofParagraph line below).2 ++ rest) := by
  obtain ⟨htake, hdrop⟩ := span_append_of_head? (p := fun line => !line.isBlank) (m := rest)
    (fun line hline => by rw [hrest.blank line hline, Bool.not_true]) below
  have hhanging (below : List Line) :=
    Line.hanging_append below fun line hline => (hrest.next line hline).indented
  unfold ofParagraph
  simp only [htake, hdrop, List.dropWhile_append]
  split
  · rfl
  · split
    · cases hnext : (below.dropWhile fun line => !line.isBlank).dropWhile Line.isBlank with
      | nil =>
        cases hbeyond : rest.dropWhile Line.isBlank with
        | nil => rfl
        | cons other more =>
          have hother := (hrest.next other (by rw [hbeyond]; rfl)).indented
          simp [hother]
      | cons next more =>
        simp only [List.isEmpty_cons, Bool.false_eq_true, if_false, List.cons_append, hhanging]
        split <;> rfl
    · rfl

/-- A block does not reach lines that stand apart. -/
theorem first_append (hrest : Line.Apart rest) (line : Line) (below : List Line) :
    first line (below ++ rest) = ((first line below).1, (first line below).2 ++ rest) := by
  have hindented : ∀ line, (rest.dropWhile Line.isBlank).head? = some line →
      line.isIndented = false := fun line hline => (hrest.next line hline).indented
  have hbullets (bullet : Char) := items_append (nextBullet? bullet)
    (fun line hline => ⟨hindented line hline, fun count => by
      simp [nextBullet?, (hrest.next line hline).bullet]⟩) 1 (bulletOffset line.text) line below
  have hnumbers (marker : Marker) (sequence : Sequence) (start : Nat) :=
    items_append (nextNumber? marker sequence start)
      (fun line hline => ⟨hindented line hline, fun count => by
        simp [nextNumber?, (hrest.next line hline).marker]⟩) 1 marker.textOffset line below
  unfold first
  simp only [Line.hanging_append below hindented, hbullets, hnumbers,
    enumerator?_append hrest.blank, ofParagraph_append hrest]
  split
  · rfl
  · split
    · rfl
    · split
      · split <;> rfl
      · split
        · rfl
        · split <;> rfl

theorem cut_append (hrest : Line.Apart rest) (lines : List Line) :
    cut (lines ++ rest) = cut lines ++ cut rest := by
  fun_induction cut lines with
  | case1 => rfl
  | case2 line below hblank ih => rw [List.cons_append, cut, if_pos hblank, ih]
  | case3 line below hblank ih =>
    rw [List.cons_append, cut, if_neg hblank, first_append hrest, ih, List.append_assoc]

theorem cut_append_of_isBlank {gap : List Line} (h : ∀ line ∈ gap, line.isBlank = true)
    (rest : List Line) : cut (gap ++ rest) = cut rest := by
  induction gap with
  | nil => rfl
  | cons line gap ih =>
    obtain ⟨hline, hgap⟩ := List.forall_mem_cons.1 h
    rw [List.cons_append, cut, if_pos hline, ih hgap]

theorem cut_of_isBlank {gap : List Line} (h : ∀ line ∈ gap, line.isBlank = true) :
    cut gap = [] := by
  rw [← List.append_nil gap, cut_append_of_isBlank h, cut]

end Frame

/-! ## Two documents -/

/-- Blank lines at the end of a document are not seen. -/
theorem Block.ofLines_append_of_isBlank (roles : List Text) (lines : List Line) {gap : List Line}
    (hgap : ∀ line ∈ gap, line.isBlank = true) :
    ofLines roles (lines ++ gap) = ofLines roles lines := by
  have hnone : gap.dropWhile Line.isBlank = [] := List.dropWhile_eq_nil_iff.2 hgap
  have hapart : Line.Apart gap :=
    ⟨fun line hline => hgap line (List.mem_of_head? hline),
      fun line hline => by rw [hnone] at hline; cases hline⟩
  rw [ofLines_eq, Frame.cut_append hapart, Frame.cut_of_isBlank hgap, List.append_nil,
    ← ofLines_eq]

theorem Block.ofLines_append (roles : List Text) {rest : List Line} (hrest : Line.Apart rest)
    (lines : List Line) :
    ofLines roles (lines ++ rest) = do
      let before ← ofLines roles lines
      let after ← ofLines roles rest
      return before ++ after := by
  rw [ofLines_eq, Frame.cut_append hrest, List.mapM_append, ← ofLines_eq, ← ofLines_eq]

theorem Block.ofLines_cons_of_isBlank (roles : List Text) {line : Line}
    (hline : line.isBlank = true) (below : List Line) :
    ofLines roles (line :: below) = ofLines roles below := by
  rw [ofLines_eq, Frame.cut, if_pos hline, ← ofLines_eq]

theorem Frame.bullet?_trimEnd (t : Text) : bullet? (trimEnd t) = bullet? t := by
  cases t with
  | nil => rfl
  | cons c t =>
    rw [trimEnd, dropEndWhile_cons]
    split
    · rename_i hblank
      have hc : ¬((c = '*' ∨ c = '+' ∨ c = '-') ∧ openStart t) := by
        rintro ⟨rfl | rfl | rfl, -⟩ <;> simp [isBlank] at hblank
      rw [bullet?, bullet?, if_neg hc]
    · rw [bullet?, bullet?, ← trimEnd, openStart_trimEnd]

theorem Line.ofText_append {a : Text} (hne : a ≠ []) (hend : a.getLast? ≠ some '\n') (b : Text) :
    ofText (a ++ "\n\n".toList ++ b) = ofText a ++ ⟨(lines a).length, []⟩ ::
      (ofText b).map (renumber (· + ((lines a).length + 1))) := by
  have hlength : (trimmedLines a).length = (lines a).length := List.length_map ..
  have hnumbers (k : Nat) : (trimmedLines b).mapIdx (fun number text => Line.mk (number + k) text) =
      (ofText b).map (renumber (· + k)) :=
    List.ext_getElem? fun i => by simp [ofText, Function.comp_def, renumber]
  rw [ofText, trimmedLines_append hne hend, List.mapIdx_append, List.mapIdx_cons, hlength,
    ← hnumbers]
  simp only [Nat.add_assoc, Nat.add_comm 1, Nat.zero_add, ofText]

/-- Two documents with a blank line between them are read one after the other, and the numbers
of the lines go on. The second starts at the margin, and not with an item of a list: an item
might continue a list at the end of the first. -/
theorem Block.parse_append (roles : List Text) {a b first : Text} {below : List Text}
    (hne : a ≠ []) (hend : a.getLast? ≠ some '\n') (hb : lines b = first :: below)
    (hblank : blank first = false) (hindent : indent first = 0)
    (hbullet : Frame.bullet? first = none) (hmarker : Marker.ofLine? first = none) :
    parse roles (a ++ "\n\n".toList ++ b) = do
      let before ← parse roles a
      let after ← parse roles b
      return before ++ after.map (renumber (· + ((lines a).length + 1))) := by
  obtain ⟨more, hmore⟩ : ∃ more, Line.ofText b = ⟨0, trimEnd first⟩ :: more := by
    rw [Line.ofText, trimmedLines, hb, List.map_cons, List.mapIdx_cons]
    exact ⟨_, rfl⟩
  have halone : (Line.mk ((lines a).length + 1) (trimEnd first)).StandsAlone := by
    refine ⟨?_, (Frame.bullet?_trimEnd first).trans hbullet,
      (Marker.ofLine?_trimEnd first).trans hmarker⟩
    rw [Line.isIndented, indent_trimEnd hblank, hindent]
    rfl
  have hapart : Line.Apart (⟨(lines a).length, []⟩ ::
      (Line.ofText b).map (Line.renumber (· + ((lines a).length + 1)))) := by
    have hfirst : (Line.mk ((lines a).length + 1) (trimEnd first)).isBlank = false :=
      (blank_trimEnd first).trans hblank
    rw [hmore, List.map_cons, Line.renumber, Nat.zero_add]
    refine ⟨fun line hline => ?_, fun line hline => ?_⟩
    · obtain rfl := Option.some.inj hline
      rfl
    · rw [List.dropWhile_cons_of_pos rfl, List.dropWhile_cons_of_neg (by simp [hfirst])] at hline
      obtain rfl := Option.some.inj hline
      exact halone
  rw [parse, Line.ofText_append hne hend, ofLines_append roles hapart,
    ofLines_cons_of_isBlank roles rfl, ofLines_renumber, parse, parse]
  cases ofLines roles (Line.ofText a) with
  | error e => rfl
  | ok before => cases ofLines roles (Line.ofText b) <;> rfl

/-- A list, and behind it a document with a list further down. -/
theorem Block.parse_append_list :
    ("- a\n  b".toList ≠ [] ∧ "- a\n  b".toList.getLast? ≠ some '\n' ∧
      lines "c\n\n- d".toList = "c".toList :: ["".toList, "- d".toList] ∧
      blank "c".toList = false ∧ indent "c".toList = 0 ∧ Frame.bullet? "c".toList = none ∧
      Marker.ofLine? "c".toList = none) ∧
    parse Role.usual "- a\n  b\n\nc\n\n- d".toList = (do
      let before ← parse Role.usual "- a\n  b".toList
      let after ← parse Role.usual "c\n\n- d".toList
      return before ++ after.map (renumber (· + 3))) := by
  have hlines : lines "c\n\n- d".toList = "c".toList :: ["".toList, "- d".toList] := by decide
  exact ⟨⟨by decide, by decide, hlines, by decide, by decide, by decide, by decide⟩,
    parse_append Role.usual (a := "- a\n  b".toList) (by decide) (by decide) hlines (by decide)
      (by decide) (by decide) (by decide)⟩

end CallDoc
