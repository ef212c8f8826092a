import CallDoc.Proofs.Markup.Prose
import CallDoc.Proofs.Text.Nesting

/-!
Markup below a paragraph that stands at the margin, moved to the right as a whole. The lines
of the paragraph are trimmed, and everything else there is an indented block, which is read
without its indent.
-/
namespace CallDoc

open Text

namespace Line

def nest (n : Nat) (line : Line) : Line := { line with text := Text.nest n line.text }

/-- The line is blank or does not stand at the margin. -/
def IsBelow (line : Line) : Prop := line.isBlank = true ∨ line.isIndented = true

variable (n : Nat) {lines : List Line}

@[simp] theorem isBlank_nest (line : Line) : (line.nest n).isBlank = line.isBlank :=
  Text.blank_nest n line.text

theorem isBlank_comp_nest : isBlank ∘ nest n = isBlank := funext (isBlank_nest n)

theorem indent_nest_text {line : Line} (h : line.isBlank = false) :
    indent (line.nest n).text = n + indent line.text :=
  indent_nest n fun he => by rw [isBlank, he] at h; cases h

theorem isIndented_nest {line : Line} (h : line.isIndented = true) :
    (line.nest n).isIndented = true := by
  rw [isIndented, decide_eq_true_eq] at h ⊢
  have hne : line.text ≠ [] := fun he => by rw [he] at h; cases h
  change 0 < indent (Text.nest n line.text)
  rw [indent_nest n hne]
  omega

theorem isBelow_of_standsAt {t : Text} (h : StandsAt 1 t) (number : Nat) : IsBelow ⟨number, t⟩ := by
  rcases h with rfl | ⟨-, hindent⟩
  · exact Or.inl rfl
  · exact Or.inr (decide_eq_true hindent)

theorem IsBelow.nest {line : Line} (h : line.IsBelow) : (line.nest n).IsBelow :=
  h.imp (fun hblank => by rw [isBlank_nest, hblank]) (isIndented_nest n)

/-- Below a heading everything hangs but the blank lines at the end. -/
theorem hanging_of_isBelow (h : ∀ line ∈ lines, line.IsBelow) :
    hanging lines =
      (dropEndWhile isBlank lines, lines.drop (dropEndWhile isBlank lines).length) := by
  have hall : lines.takeWhile (fun line => line.isBlank || line.isIndented) = lines :=
    List.takeWhile_eq_self_iff.2 fun line hline => Bool.or_eq_true_iff.2 (h line hline)
  rw [hanging, hall]

theorem hanging_nest (h : ∀ line ∈ lines, line.IsBelow) :
    hanging (lines.map (nest n)) =
      ((hanging lines).1.map (nest n), (hanging lines).2.map (nest n)) := by
  have hnest : ∀ line ∈ lines.map (nest n), line.IsBelow :=
    List.forall_mem_map.2 fun line hline => (h line hline).nest n
  have hbody : dropEndWhile isBlank (lines.map (nest n)) =
      (dropEndWhile isBlank lines).map (nest n) := by
    rw [dropEndWhile_map]
    simp only [isBlank_nest]
  rw [hanging_of_isBelow hnest, hanging_of_isBelow h, hbody, List.length_map, List.map_drop]

theorem dedent_nest (lines : List Line) : dedent (lines.map (nest n)) = dedent lines := by
  have hindents : ((lines.map (nest n)).filter fun line => !line.isBlank).map
      (fun line => indent line.text) =
      ((lines.filter fun line => !line.isBlank).map fun line => indent line.text).map (n + ·) := by
    rw [List.filter_map, List.map_map, List.map_map]
    simp only [Function.comp_def, isBlank_nest]
    exact List.map_congr_left fun line hline =>
      indent_nest_text n (by simpa using (List.mem_filter.1 hline).2)
  rw [dedent, margin, hindents, min?_map_add, List.map_map, dedent, margin]
  cases hmin : ((lines.filter fun line => !line.isBlank).map fun line => indent line.text).min? with
  | none =>
    rw [List.min?_eq_none_iff, List.map_eq_nil_iff, List.filter_eq_nil_iff] at hmin
    refine List.map_congr_left fun line hline => ?_
    have hblank : line.isBlank = true := by simpa using hmin line hline
    have htext : trimEnd (Text.nest n line.text) = trimEnd line.text := by
      rw [trimEnd_of_blank ((Text.blank_nest n _).trans hblank), trimEnd_of_blank hblank]
    exact congrArg (Line.mk line.number) htext
  | some m =>
    exact List.map_congr_left fun line _ =>
      congrArg (fun t => Line.mk line.number (trimEnd t)) (drop_nest n line.text m)

end Line

namespace Frame

variable (n : Nat) {lines : List Line}

theorem first_of_isIndented {line : Line} (h : line.isIndented = true) (below : List Line) :
    first line below = ([.quote line.number (Line.dedent (line :: (Line.hanging below).1))],
      (Line.hanging below).2) := by
  rw [first, h]
  rfl

/-- Indented lines are quotes, and a quote does not show its indent. -/
theorem cut_nest (h : ∀ line ∈ lines, line.IsBelow) :
    cut (lines.map (Line.nest n)) = cut lines := by
  fun_induction cut lines with
  | case1 => rw [List.map_nil, cut]
  | case2 line below hblank ih =>
    rw [List.map_cons, cut, Line.isBlank_nest, if_pos hblank]
    exact ih (List.forall_mem_cons.1 h).2
  | case3 line below hblank ih =>
    obtain ⟨hline, hbelow⟩ := List.forall_mem_cons.1 h
    have hindented := hline.resolve_left hblank
    have hafter : ∀ l ∈ (first line below).2, l.IsBelow := fun l hmem =>
      hbelow l ((first_sublist line below).subset hmem)
    have hdedent := Line.dedent_nest n (line :: (Line.hanging below).1)
    rw [List.map_cons] at hdedent
    have ih := ih hafter
    rw [first_of_isIndented hindented] at ih ⊢
    rw [List.map_cons, cut, Line.isBlank_nest, if_neg hblank,
      first_of_isIndented (Line.isIndented_nest n hindented), Line.hanging_nest n hbelow, hdedent]
    exact congrArg _ ih

/-- The lines of a paragraph are joined without their indents, and a literal block loses its
own. -/
theorem ofParagraph_nest {line : Line} (hline : startsWith ">>>".toList line.text = false)
    (h : ∀ line ∈ lines, line.IsBelow) :
    ofParagraph line (lines.map (Line.nest n)) =
      ((ofParagraph line lines).1, (ofParagraph line lines).2.map (Line.nest n)) := by
  have hsolid : (fun line => !Line.isBlank line) ∘ Line.nest n = fun line => !Line.isBlank line :=
    funext fun line => congrArg (!·) (Line.isBlank_nest n line)
  have htexts : (line :: (lines.takeWhile fun line => !line.isBlank).map (Line.nest n)).map
        (fun line => trim line.text) =
      (line :: lines.takeWhile fun line => !line.isBlank).map fun line => trim line.text := by
    rw [List.map_cons, List.map_map, List.map_cons]
    exact congrArg _ (List.map_congr_left fun line _ => trim_nest n line.text)
  have hafter : ∀ l ∈ (lines.dropWhile fun line => !line.isBlank).dropWhile Line.isBlank,
      l.IsBelow := fun l hmem =>
    h l ((List.dropWhile_sublist _).subset ((List.dropWhile_sublist _).subset hmem))
  unfold ofParagraph
  dsimp only
  rw [hline, List.takeWhile_map, List.dropWhile_map, hsolid, htexts, List.dropWhile_map,
    Line.isBlank_comp_nest]
  cases hnext : (lines.dropWhile fun line => !line.isBlank).dropWhile Line.isBlank with
  | nil => simp
  | cons next more =>
    rw [hnext] at hafter
    obtain ⟨hbelow, hmore⟩ := List.forall_mem_cons.1 hafter
    have hnextBlank : next.isBlank = false := of_dropWhile_eq_cons hnext
    have hindented := hbelow.resolve_left (by simp [hnextBlank])
    have hdedent := Line.dedent_nest n (next :: (Line.hanging more).1)
    rw [List.map_cons] at hdedent
    simp only [List.map_cons, Line.isIndented_nest n hindented, hindented, if_true,
      Bool.false_eq_true, if_false, Line.hanging_nest n hmore, hdedent]
    split <;> rfl

/-- What stands below a paragraph that starts at the margin can be moved to the right. -/
theorem cut_cons_nest {line : Line} (hline : StartsParagraph line.text)
    (h : ∀ line ∈ lines, line.IsBelow) :
    cut (line :: lines.map (Line.nest n)) = cut (line :: lines) := by
  obtain ⟨c, u, htext, hc⟩ := hline.head
  have hdoctest : startsWith ">>>".toList line.text = false := by
    rw [htext] at hline ⊢
    exact startsWith_cons_of_ne (hline.ne (by decide)) _ u
  have hblank : line.isBlank = false := by
    rw [Line.isBlank, htext, blank, List.all_cons, isBlank_of_not_isMark hc, Bool.false_and]
  have hafter : ∀ l ∈ (ofParagraph line lines).2, l.IsBelow := fun l hmem =>
    h l ((ofParagraph_sublist line lines).subset hmem)
  rw [cut, hblank, if_neg Bool.false_ne_true, first_of_startsParagraph hline,
    ofParagraph_nest n hdoctest h, cut_nest n hafter, cut, hblank, if_neg Bool.false_ne_true,
    first_of_startsParagraph hline]

end Frame

/-! ## The block tree -/

theorem Line.ofText_cons {t first : Text} {below : List Text}
    (ht : trimmedLines t = first :: below) :
    ofText t = ⟨0, first⟩ :: below.mapIdx fun number text => ⟨number + 1, text⟩ := by
  rw [ofText, ht, List.mapIdx_cons]

theorem Line.mapIdx_nest (n : Nat) (below : List Text) :
    (below.map (Text.nest n)).mapIdx (fun number text => (⟨number + 1, text⟩ : Line)) =
      (below.mapIdx fun number text => (⟨number + 1, text⟩ : Line)).map (Line.nest n) :=
  List.ext_getElem? fun i => by
    simp only [List.getElem?_mapIdx, List.getElem?_map, Option.map_map]
    rfl

/-- Two texts have the same blocks when they begin with the same line of a paragraph and the
lines below it are the same ones but for their places. -/
theorem Block.parse_nest (roles : List Text) {first : Text} (hfirst : StartsParagraph first)
    {below : List Text} (hbelow : ∀ line ∈ below, StandsAt 1 line) (n : Nat) {t u : Text}
    (ht : trimmedLines t = first :: below)
    (hu : trimmedLines u = first :: below.map (Text.nest n)) : parse roles u = parse roles t := by
  have hlines : ∀ line ∈ below.mapIdx fun number text => (⟨number + 1, text⟩ : Line),
      line.IsBelow := fun _ hmem => by
    obtain ⟨i, hi, rfl⟩ := List.mem_mapIdx.1 hmem
    exact Line.isBelow_of_standsAt (hbelow _ (List.getElem_mem hi)) (i + 1)
  rw [parse, Line.ofText_cons hu, Line.mapIdx_nest, ofLines_eq, Frame.cut_cons_nest n hfirst hlines,
    ← ofLines_eq, ← Line.ofText_cons ht, parse]

end CallDoc
