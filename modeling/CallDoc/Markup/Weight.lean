import CallDoc.Markup.Frame

/-!
The size of the bodies that a list of lines is cut into: each is smaller than the lines
themselves, whether characters alone are counted or lines with them, as their weight does. A
quote loses its indent, a field, a list item or a directive its marker, and what stands below a
first line is smaller without it.
-/
namespace CallDoc

open Text

namespace Line

variable (each : Nat)

@[simp] theorem size_nil : size each [] = 0 := rfl

@[simp] theorem size_cons (line : Line) (lines : List Line) :
    size each (line :: lines) = line.text.length + each + size each lines := rfl

theorem size_le_of_sublist {a b : List Line} (h : a.Sublist b) : size each a ≤ size each b := by
  induction h with
  | slnil => exact Nat.le_refl _
  | cons line _ ih =>
    rw [size_cons]
    omega
  | cons_cons line _ ih =>
    rw [size_cons, size_cons]
    omega

theorem trimEnd_drop_length (t : Text) (n : Nat) : (trimEnd (t.drop n)).length ≤ t.length - n := by
  have h := dropEndWhile_length_le Text.isBlank (t.drop n)
  rwa [List.length_drop] at h

theorem size_map_drop_le (n : Nat) (lines : List Line) :
    size each (lines.map fun line => { line with text := trimEnd (line.text.drop n) }) ≤
      size each lines := by
  induction lines with
  | nil => exact Nat.le_refl _
  | cons line lines ih =>
    have hline := trimEnd_drop_length line.text n
    rw [List.map_cons, size_cons, size_cons]
    dsimp only
    omega

theorem size_dedent_le (lines : List Line) : size each (dedent lines) ≤ size each lines :=
  size_map_drop_le each _ lines

/-- A first line that is indented, as all lines below it are that are not blank, gives the
lines a margin. -/
theorem margin_pos {line : Line} {lines : List Line} (hline : line.isBlank = false)
    (h : ∀ l ∈ line :: lines, l.isBlank = false → l.isIndented = true) :
    0 < margin (line :: lines) := by
  have hne : (((line :: lines).filter fun l => !l.isBlank).map fun l => indent l.text) ≠ [] := by
    simp [hline]
  obtain ⟨m, hm⟩ := Option.isSome_iff_exists.1 (List.isSome_min?_of_ne_nil hne)
  obtain ⟨l, hl, rfl⟩ := List.mem_map.1 (List.min?_eq_some_iff.1 hm).1
  obtain ⟨hmem, hblank⟩ := List.mem_filter.1 hl
  have hindent := h l hmem (by simpa using hblank)
  rw [margin, hm, Option.getD_some]
  simpa [isIndented] using hindent

theorem size_dedent_lt {line : Line} {lines : List Line} (hline : line.isBlank = false)
    (h : ∀ l ∈ line :: lines, l.isBlank = false → l.isIndented = true) :
    size each (dedent (line :: lines)) < size each (line :: lines) := by
  have hmargin := margin_pos hline h
  have hfirst := trimEnd_drop_length line.text (margin (line :: lines))
  have hrest := size_map_drop_le each (margin (line :: lines)) lines
  have hpos : 0 < line.text.length := by
    cases htext : line.text with
    | nil => simp [isBlank, blank, htext] at hline
    | cons => simp
  rw [dedent, List.map_cons, size_cons, size_cons]
  dsimp only
  omega

theorem size_bodyBelow_le (first : Line) (below : List Line) :
    size each (bodyBelow first below) ≤ first.text.length + each + size each below := by
  have hbelow := size_dedent_le each below
  unfold bodyBelow
  split
  · simp only [List.nil_append]
    omega
  · simp only [List.cons_append, List.nil_append, size_cons]
    omega

theorem isIndented_of_mem_hanging {lines : List Line} {l : Line} (h : l ∈ (hanging lines).1)
    (hblank : l.isBlank = false) : l.isIndented = true := by
  have hmem := (dropEndWhile_sublist _ _).subset h
  have hl := List.all_takeWhile (p := fun l : Line => l.isBlank || l.isIndented) (l := lines)
  have := List.all_eq_true.1 hl l hmem
  simpa [hblank] using this

end Line

namespace Frame

variable (each : Nat)

theorem splitHeader?_length {previous : Char} {t header rest : Text}
    (h : splitHeader? previous t = some (header, rest)) : rest.length < t.length := by
  induction t generalizing previous header with
  | nil => cases h
  | cons c t ih =>
    rw [splitHeader?] at h
    split at h
    · obtain ⟨-, rfl⟩ := Prod.mk.inj (Option.some.inj h)
      exact Nat.lt_succ_self _
    · obtain ⟨⟨u, v⟩, hu, he⟩ := Option.map_eq_some_iff.1 h
      obtain ⟨-, rfl⟩ := Prod.mk.inj he
      exact Nat.lt_succ_of_lt (ih hu)

/-- The text behind a field's header is shorter than the line. -/
theorem fieldHeader?_length {t header rest : Text}
    (h : fieldHeader? t = some (header, rest)) : rest.length < t.length := by
  unfold fieldHeader? at h
  split at h
  · rename_i inner
    split at h
    · cases h
    · split at h
      · rename_i u v hu
        split at h
        · cases h
        · obtain ⟨-, rfl⟩ := Prod.mk.inj (Option.some.inj h)
          have htrim : (trimStart v).length ≤ v.length :=
            (List.dropWhile_sublist isBlank).length_le
          have hsplit := splitHeader?_length hu
          rw [List.length_cons]
          omega
      · cases h
  · cases h

theorem trim_length_le (t : Text) : (trim t).length ≤ t.length :=
  Nat.le_trans (List.dropWhile_sublist isBlank).length_le (dropEndWhile_length_le isBlank t)

theorem splitDirective?_length {t name argument : Text}
    (h : splitDirective? t = some (name, argument)) : argument.length < t.length := by
  induction t generalizing name with
  | nil => cases h
  | cons c t ih =>
    rw [splitDirective?] at h
    split at h
    · rename_i after hafter
      obtain ⟨-, rfl⟩ := Prod.mk.inj (Option.some.inj h)
      have hlen := congrArg List.length
        (after?_eq_some_iff.1 (Option.filter_eq_some_iff.1 hafter).1)
      have htrim := trim_length_le after
      rw [List.length_append] at hlen
      have hcolons : "::".toList.length = 2 := by decide
      omega
    · split at h
      · obtain ⟨⟨u, v⟩, hu, he⟩ := Option.map_eq_some_iff.1 h
        obtain ⟨-, rfl⟩ := Prod.mk.inj he
        exact Nat.lt_succ_of_lt (ih hu)
      · cases h

theorem directive?_length {t name argument : Text}
    (h : directive? t = some (name, argument)) : argument.length < t.length := by
  unfold directive? at h
  split at h
  · split at h
    · obtain ⟨⟨u, v⟩, hu, he⟩ := Option.map_eq_some_iff.1 h
      obtain ⟨-, rfl⟩ := Prod.mk.inj he
      exact Nat.lt_succ_of_lt (splitDirective?_length hu)
    · cases h
  · cases h

theorem ofDirective_size {line : Line} {name argument : Text} {content : List Line}
    (h : argument.length < line.text.length) :
    ∀ body ∈ (ofDirective line name argument content).bodies,
      Line.size each body < Line.size each (line :: content) := by
  intro body hbody
  rw [Line.size_cons]
  unfold ofDirective at hbody
  dsimp only at hbody
  split at hbody
  · cases hbody
  · split at hbody
    · cases hbody
    · split at hbody
      · obtain rfl := List.mem_singleton.1 hbody
        have := Line.size_dedent_le each content
        omega
      · split at hbody
        · obtain rfl := List.mem_singleton.1 hbody
          have := Line.size_bodyBelow_le each ⟨line.number, argument⟩ content
          dsimp only at this
          omega
        · cases hbody

theorem ofExplicit_size (line : Line) (content : List Line) :
    ∀ body ∈ (ofExplicit line content).bodies,
      Line.size each body < Line.size each (line :: content) := by
  intro body hbody
  unfold ofExplicit at hbody
  split at hbody
  · rename_i name argument h
    refine ofDirective_size each ?_ body hbody
    have hdirective := directive?_length h
    have htrim : (trimStart (line.text.drop 2)).length ≤ (line.text.drop 2).length :=
      (List.dropWhile_sublist isBlank).length_le
    rw [List.length_drop] at htrim
    omega
  · cases hbody

/-- No item of a list is larger than the lines of the list. -/
theorem items_size_le (next? : Nat → Text → Option Nat) (count offset : Nat) (line : Line)
    (below : List Line) :
    ∀ item ∈ (items next? count offset line below).1,
      Line.size each item ≤ Line.size each (line :: below) := by
  have hfirst (line : Line) (below : List Line) (offset : Nat) :
      Line.size each (Line.bodyBelow { line with text := line.text.drop offset }
        (Line.hanging below).1) ≤ Line.size each (line :: below) := by
    have hbody := Line.size_bodyBelow_le each { line with text := line.text.drop offset }
      (Line.hanging below).1
    have hhanging := Line.size_le_of_sublist each (Line.hanging_fst_sublist below)
    simp only [List.length_drop] at hbody
    rw [Line.size_cons]
    omega
  fun_induction items next? count offset line below with
  | case1 count offset line below item =>
    intro other hother
    obtain rfl := List.mem_singleton.1 hother
    exact hfirst ..
  | case2 count offset line below item =>
    intro other hother
    obtain rfl := List.mem_singleton.1 hother
    exact hfirst ..
  | case3 count offset line below item next more hnext offset' hplace others ih =>
    intro other hother
    rcases List.mem_cons.1 hother with rfl | hother
    · exact hfirst ..
    · have hrest := Line.size_le_of_sublist each
        ((hnext ▸ List.dropWhile_sublist Line.isBlank).trans (Line.hanging_snd_sublist below))
      have hothers := ih other hother
      rw [Line.size_cons each line]
      omega

/-- An item is smaller than the lines of the list when the marker of the first takes
something. -/
theorem items_size_lt (next? : Nat → Text → Option Nat) (count : Nat) {offset : Nat}
    {line : Line} (below : List Line) (hoffset : 0 < offset) (htext : line.text ≠ []) :
    ∀ item ∈ (items next? count offset line below).1,
      Line.size each item < Line.size each (line :: below) := by
  have hpos := List.length_pos_iff.2 htext
  have hbody := Line.size_bodyBelow_le each { line with text := line.text.drop offset }
    (Line.hanging below).1
  have hhanging := Line.size_le_of_sublist each (Line.hanging_fst_sublist below)
  simp only [List.length_drop] at hbody
  have hitem : Line.size each (Line.bodyBelow { line with text := line.text.drop offset }
      (Line.hanging below).1) < Line.size each (line :: below) := by
    rw [Line.size_cons]
    omega
  intro item hmem
  rw [items] at hmem
  split at hmem
  · obtain rfl := List.mem_singleton.1 hmem
    exact hitem
  · rename_i next more hnext
    split at hmem
    · obtain rfl := List.mem_singleton.1 hmem
      exact hitem
    · rename_i offset' hplace
      rcases List.mem_cons.1 hmem with rfl | hmem
      · exact hitem
      · have hothers := items_size_le each next? (count + 1) offset' next more item hmem
        have hrest := Line.size_le_of_sublist each
          ((hnext ▸ List.dropWhile_sublist Line.isBlank).trans (Line.hanging_snd_sublist below))
        rw [Line.size_cons each line]
        omega

theorem ne_nil_of_bullet? {t : Text} {bullet : Char} (h : bullet? t = some bullet) : t ≠ [] := by
  rintro rfl
  cases h

theorem ne_nil_of_ofLine? {t : Text} {marker : Marker} (h : Marker.ofLine? t = some marker) :
    t ≠ [] := by
  rintro rfl
  cases h

/-- A marker has at least its bracket. -/
theorem textOffset_pos {t : Text} {marker : Marker} (h : Marker.ofLine? t = some marker) :
    0 < marker.textOffset := by
  unfold Marker.ofLine? at h
  split at h
  · cases h
  · rename_i bracket token after hsplit
    split at h
    · obtain rfl := Option.some.inj h
      have hwrap : 0 < (bracket.wrap token).length := by cases bracket <;> simp [Bracket.wrap]
      exact Nat.lt_of_lt_of_le hwrap (Nat.le_add_right ..)
    · cases h

theorem ofLine?_of_enumerator? {text : Text} {below : List Line} {marker : Marker}
    {sequence : Sequence} {start : Nat}
    (h : enumerator? text below = some (marker, sequence, start)) :
    Marker.ofLine? text = some marker := by
  unfold enumerator? at h
  split at h
  · cases h
  · rename_i other hother
    split at h
    · cases h
    · split at h
      · cases h
        exact hother
      · cases h

theorem ofParagraph_bodies (line : Line) (below : List Line) :
    ∀ frame ∈ (ofParagraph line below).1, frame.bodies = [] := by
  intro frame hframe
  unfold ofParagraph at hframe
  dsimp only at hframe
  have hprose (t : Text) :
      ∀ frame ∈ (if t.isEmpty then [] else [Frame.paragraph line.number t]), frame.bodies = [] := by
    intro frame hframe
    split at hframe
    · cases hframe
    · rw [List.mem_singleton.1 hframe]
      rfl
  split at hframe
  · rw [List.mem_singleton.1 hframe]
    rfl
  · split at hframe
    · split at hframe
      · split at hframe
        · rcases List.mem_append.1 hframe with hframe | hframe
          · exact hprose _ frame hframe
          · rw [List.mem_singleton.1 hframe]
            rfl
        · exact hprose _ frame hframe
      · exact hprose _ frame hframe
    · exact hprose _ frame hframe

/-- The bodies of the block that starts on a line are smaller than the lines from there on. -/
theorem first_size {line : Line} (below : List Line) (hline : line.isBlank = false) :
    ∀ frame ∈ (first line below).1, ∀ body ∈ frame.bodies,
      Line.size each body < Line.size each (line :: below) := by
  intro frame hframe body hbody
  have hhanging := Line.size_le_of_sublist each (Line.hanging_fst_sublist below)
  have hwhole :
      Line.size each (line :: (Line.hanging below).1) ≤ Line.size each (line :: below) := by
    rw [Line.size_cons, Line.size_cons]
    omega
  unfold first at hframe
  dsimp only at hframe
  split at hframe
  · rename_i hindented
    obtain rfl := List.mem_singleton.1 hframe
    obtain rfl := List.mem_singleton.1 hbody
    refine Nat.lt_of_lt_of_le (Line.size_dedent_lt each hline fun l hl hblank => ?_) hwhole
    rcases List.mem_cons.1 hl with rfl | hl
    · exact hindented
    · exact Line.isIndented_of_mem_hanging hl hblank
  · split at hframe
    · obtain rfl := List.mem_singleton.1 hframe
      exact Nat.lt_of_lt_of_le (ofExplicit_size each line _ body hbody) hwhole
    · split at hframe
      · rename_i header rest hheader
        split at hframe
        · obtain rfl := List.mem_singleton.1 hframe
          obtain rfl := List.mem_singleton.1 hbody
          have hrest := fieldHeader?_length hheader
          have hfield := Line.size_bodyBelow_le each ⟨line.number, rest⟩ (Line.hanging below).1
          dsimp only at hfield
          rw [Line.size_cons]
          omega
        · cases hframe
      · split at hframe
        · rename_i bullet hbullet
          obtain rfl := List.mem_singleton.1 hframe
          exact items_size_lt each _ _ below (Nat.lt_of_lt_of_le Nat.zero_lt_one
            (Nat.le_add_right ..)) (ne_nil_of_bullet? hbullet) body hbody
        · split at hframe
          · rename_i marker sequence start hmarker
            obtain rfl := List.mem_singleton.1 hframe
            have hline := ofLine?_of_enumerator? hmarker
            exact items_size_lt each _ _ below (textOffset_pos hline) (ne_nil_of_ofLine? hline)
              body hbody
          · rw [ofParagraph_bodies line below frame hframe] at hbody
            cases hbody

/-- Every body is smaller than the lines it is cut from. -/
theorem cut_size (lines : List Line) :
    ∀ frame ∈ cut lines, ∀ body ∈ frame.bodies, Line.size each body < Line.size each lines := by
  fun_induction cut lines with
  | case1 => simp
  | case2 line below hblank ih =>
    intro frame hframe body hbody
    have := ih frame hframe body hbody
    rw [Line.size_cons]
    omega
  | case3 line below hblank ih =>
    intro frame hframe body hbody
    rcases List.mem_append.1 hframe with hframe | hframe
    · exact first_size each below (by simpa using hblank) frame hframe body hbody
    · have hrest := ih frame hframe body hbody
      have hsublist := Line.size_le_of_sublist each (first_sublist line below)
      rw [Line.size_cons]
      omega

theorem cut_weight (lines : List Line) :
    ∀ frame ∈ cut lines, ∀ body ∈ frame.bodies, Line.weight body < Line.weight lines :=
  cut_size 1 lines

end Frame
end CallDoc
