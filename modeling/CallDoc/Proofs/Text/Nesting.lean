import CallDoc.Proofs.Text.Lines

/-!
Lines moved to the right together, as the lines of a docstring are when the code around it is
nested more deeply. Empty lines stay empty. Whatever is measured against the margin of the
lines does not see the move: `dedent_nest` takes it away again.
-/
namespace CallDoc.Text

/-- The line with `n` more spaces in front of it, unless it is empty. -/
def nest (n : Nat) (line : Text) : Text := if line.isEmpty then [] else spaces n ++ line

/-! ## One line -/

/-- A line that is not blank, cut before its first character that is no blank. -/
theorem exists_of_not_blank {t : Text} (h : blank t = false) :
    ∃ lead c u, t = lead ++ c :: u ∧ blank lead = true ∧ isBlank c = false := by
  induction t with
  | nil => cases h
  | cons d t ih =>
    cases hd : isBlank d with
    | false => exact ⟨[], d, t, rfl, rfl, hd⟩
    | true =>
      rw [blank, List.all_cons, hd, Bool.true_and] at h
      obtain ⟨lead, c, u, rfl, hlead, hc⟩ := ih h
      exact ⟨d :: lead, c, u, rfl, by rw [blank, List.all_cons, hd]; exact hlead, hc⟩

theorem ne_nil_of_not_blank {line : Text} (h : blank line = false) : line ≠ [] := by
  rintro rfl
  cases h

theorem indent_lt_length {t : Text} (h : blank t = false) : indent t < t.length := by
  obtain ⟨lead, c, u, rfl, hlead, hc⟩ := exists_of_not_blank h
  rw [indent_append hlead, indent_cons_of_not_isBlank hc, List.length_append, List.length_cons]
  omega

theorem trimEnd_of_blank {t : Text} (h : blank t = true) : trimEnd t = [] := by
  have := dropEndWhile_append (l := []) (List.all_eq_true.1 h)
  rwa [List.nil_append] at this

theorem trimEnd_append_cons {c : Char} (hc : isBlank c = false) (lead u : Text) :
    trimEnd (lead ++ c :: u) = lead ++ c :: trimEnd u := by
  have hcons : dropEndWhile isBlank (c :: u) = c :: dropEndWhile isBlank u :=
    dropEndWhile_cons_of_neg hc u
  rw [trimEnd, dropEndWhile_append_of_ne_nil (by simp [hcons]), hcons, trimEnd]

theorem blank_append (a b : Text) : blank (a ++ b) = (blank a && blank b) := List.all_append

theorem trimStart_append {lead : Text} (hlead : blank lead = true) (t : Text) :
    trimStart (lead ++ t) = trimStart t :=
  List.dropWhile_append_of_pos (List.all_eq_true.1 hlead)

theorem trim_append {lead : Text} (hlead : blank lead = true) (t : Text) :
    trim (lead ++ t) = trim t := by
  cases h : blank t with
  | true =>
    have hwhole : blank (lead ++ t) = true := by rw [blank_append, hlead, h, Bool.and_self]
    rw [trim, trim, trimEnd_of_blank h, trimEnd_of_blank hwhole]
  | false =>
    obtain ⟨gap, c, u, rfl, -, hc⟩ := exists_of_not_blank h
    rw [trim, ← List.append_assoc, trimEnd_append_cons hc, List.append_assoc,
      trimStart_append hlead, trim, trimEnd_append_cons hc]

section Line

variable (n : Nat) (t : Text)

theorem nest_nil : nest n [] = [] := rfl

theorem nest_of_ne_nil {t : Text} (h : t ≠ []) : nest n t = spaces n ++ t := by
  rw [nest, if_neg (by simpa using h)]

/-- The place that a line is moved by is blank or nothing. -/
theorem exists_nest : ∃ lead, nest n t = lead ++ t ∧ blank lead = true := by
  by_cases h : t = []
  · exact ⟨[], by rw [h, nest_nil]; rfl, rfl⟩
  · exact ⟨spaces n, nest_of_ne_nil n h, blank_spaces n⟩

theorem mem_nest {n : Nat} {t : Text} {c : Char} (h : c ∈ nest n t) : c = ' ' ∨ c ∈ t := by
  by_cases ht : t = []
  · rw [ht, nest_nil] at h
    cases h
  · rw [nest_of_ne_nil n ht, List.mem_append] at h
    exact h.imp_left List.eq_of_mem_replicate

@[simp] theorem isEmpty_nest : (nest n t).isEmpty = t.isEmpty := by
  cases t with
  | nil => rfl
  | cons c t => rw [nest_of_ne_nil n (List.cons_ne_nil c t)]; simp

@[simp] theorem blank_nest : blank (nest n t) = blank t := by
  obtain ⟨lead, ht, hlead⟩ := exists_nest n t
  rw [ht, blank_append, hlead, Bool.true_and]

@[simp] theorem trim_nest : trim (nest n t) = trim t := by
  obtain ⟨lead, ht, hlead⟩ := exists_nest n t
  rw [ht, trim_append hlead]

theorem indent_nest {t : Text} (h : t ≠ []) : indent (nest n t) = n + indent t := by
  rw [nest_of_ne_nil n h, indent_append (blank_spaces n), length_spaces]

theorem drop_nest (m : Nat) : (nest n t).drop (n + m) = t.drop m := by
  by_cases h : t = []
  · rw [h, nest_nil, List.drop_nil, List.drop_nil]
  · rw [nest_of_ne_nil n h, ← List.drop_drop, List.drop_left' (length_spaces n)]

theorem isIndented_nest {t : Text} (h : t ≠ []) (m : Nat) :
    isIndented (n + m) (nest n t) = isIndented m t := by
  have htake : (spaces n ++ t).take (n + m) = spaces n ++ t.take m := by
    rw [List.take_append, length_spaces, Nat.add_sub_cancel_left,
      List.take_of_length_le (by rw [length_spaces]; exact Nat.le_add_right n m)]
  have hblank : (spaces n).all isBlank = true := blank_spaces n
  rw [isIndented, nest_of_ne_nil n h, htake, List.all_append, hblank, Bool.true_and,
    List.length_append, length_spaces, isIndented]
  simp only [Nat.add_lt_add_iff_left]

/-- Spaces in front of a line do not touch its end, unless it holds only blanks. -/
theorem trimEnd_nest {t : Text} (h : t = [] ∨ blank t = false) :
    trimEnd (nest n t) = nest n (trimEnd t) := by
  rcases h with rfl | h
  · rfl
  · obtain ⟨lead, c, u, rfl, -, hc⟩ := exists_of_not_blank h
    rw [trimEnd_append_cons hc, nest_of_ne_nil n (by simp), nest_of_ne_nil n (by simp),
      ← List.append_assoc, trimEnd_append_cons hc, List.append_assoc]

end Line

/-! ## The margin of several lines -/

theorem min?_map_add (n : Nat) (l : List Nat) : (l.map (n + ·)).min? = l.min?.map (n + ·) := by
  cases h : l.min? with
  | none =>
    rw [List.min?_eq_none_iff] at h
    rw [h]
    rfl
  | some m =>
    obtain ⟨hm, hle⟩ := List.min?_eq_some_iff.1 h
    rw [Option.map_some, List.min?_eq_some_iff]
    refine ⟨List.mem_map_of_mem hm, fun k hk => ?_⟩
    obtain ⟨i, hi, rfl⟩ := List.mem_map.1 hk
    exact Nat.add_le_add_left (hle i hi) n

/-- Where lines stand, when each is rewritten so that its place becomes another one. -/
theorem map_indent_map {f : Text → Text} {g : Nat → Nat} {lines : List Text}
    (hempty : ∀ line ∈ lines, (f line).isEmpty = line.isEmpty)
    (hindent : ∀ line ∈ lines, line ≠ [] → indent (f line) = g (indent line)) :
    ((lines.map f).filter fun l => !l.isEmpty).map indent =
      ((lines.filter fun l => !l.isEmpty).map indent).map g := by
  have hfilter : (lines.map f).filter (fun l => !l.isEmpty) =
      (lines.filter fun l => !l.isEmpty).map f := by
    rw [List.filter_map]
    exact congrArg _ (List.filter_congr fun line hline => congrArg (!·) (hempty line hline))
  rw [hfilter, List.map_map, List.map_map]
  refine List.map_congr_left fun line hline => ?_
  obtain ⟨hline, hne⟩ := List.mem_filter.1 hline
  exact hindent line hline (by simpa using hne)

theorem stripEmpty_map {f : Text → Text} {lines : List Text}
    (h : ∀ line ∈ lines, (f line).isEmpty = line.isEmpty) :
    stripEmpty (lines.map f) = (stripEmpty lines).map f := by
  have hdrop : dropEndWhile (fun line => (f line).isEmpty) lines =
      dropEndWhile List.isEmpty lines := dropEndWhile_congr h
  rw [stripEmpty, dropEndWhile_map, hdrop, List.dropWhile_map, stripEmpty]
  exact congrArg _ (dropWhile_congr fun line hline =>
    h line ((dropEndWhile_sublist _ _).subset hline))

theorem stripEmpty_cons {first : Text} (h : first ≠ []) (lines : List Text) :
    stripEmpty (first :: lines) = first :: dropEndWhile List.isEmpty lines := by
  have hfirst : first.isEmpty = false := List.isEmpty_eq_false_iff.2 h
  rw [stripEmpty, dropEndWhile_cons_of_neg hfirst, List.dropWhile_cons_of_neg (by simp [hfirst])]

theorem margin_le {lines : List Text} {line : Text} (hline : line ∈ lines)
    (hblank : blank line = false) : (margin? lines).getD 0 ≤ indent line := by
  have hmem : line ∈ lines.filter fun l => !l.isEmpty :=
    List.mem_filter.2 ⟨hline, by simp [ne_nil_of_not_blank hblank]⟩
  cases h : margin? lines with
  | none => exact Nat.zero_le _
  | some m => exact (List.min?_eq_some_iff.1 h).2 _ (List.mem_map_of_mem hmem)

theorem drop_margin_ne_nil {line : Text} (lines : List Text) (hline : line ∈ lines)
    (hblank : blank line = false) : line.drop ((margin? lines).getD 0) ≠ [] := by
  have hmargin := margin_le hline hblank
  have hlength := indent_lt_length hblank
  rw [ne_eq, List.drop_eq_nil_iff]
  omega

theorem dedent_of_margin {lines : List Text} (h : (margin? lines).getD 0 = 0) :
    dedent lines = lines := by
  rw [dedent, h]
  exact List.map_id lines

section Lines

variable (n : Nat) (lines : List Text)

theorem isEmpty_comp_nest : List.isEmpty ∘ nest n = List.isEmpty := funext (isEmpty_nest n)

theorem map_indent_nest : ((lines.map (nest n)).filter fun l => !l.isEmpty).map indent =
    ((lines.filter fun l => !l.isEmpty).map indent).map (n + ·) :=
  map_indent_map (fun line _ => isEmpty_nest n line) fun _ _ hne => indent_nest n hne

theorem map_nest_of_empty {lines : List Text} (h : ∀ line ∈ lines, line = []) :
    lines.map (nest n) = lines :=
  (List.map_congr_left fun line hline => by rw [h line hline]; rfl).trans (List.map_id lines)

theorem margin?_nest : margin? (lines.map (nest n)) = (margin? lines).map (n + ·) := by
  rw [margin?, map_indent_nest, min?_map_add, margin?]

theorem firstIndent?_eq_head? :
    firstIndent? lines = ((lines.filter fun l => !l.isEmpty).map indent).head? := by
  rw [firstIndent?, List.head?_map, List.head?_filter]

theorem firstIndent?_nest :
    firstIndent? (lines.map (nest n)) = (firstIndent? lines).map (n + ·) := by
  rw [firstIndent?_eq_head?, map_indent_nest, List.head?_map, firstIndent?_eq_head?]

/-- Without their margin lines do not show how far they were moved. -/
theorem dedent_nest : dedent (lines.map (nest n)) = dedent lines := by
  cases h : margin? lines with
  | none =>
    have hnil : lines.filter (fun l => !l.isEmpty) = [] := by
      rwa [margin?, List.min?_eq_none_iff, List.map_eq_nil_iff] at h
    have hempty : ∀ line ∈ lines, line = [] := fun line hline => by
      simpa using List.filter_eq_nil_iff.1 hnil line hline
    rw [map_nest_of_empty n hempty]
  | some m =>
    rw [dedent, margin?_nest, h, List.map_map, dedent, h]
    exact List.map_congr_left fun line _ => drop_nest n line m

theorem stripEmpty_nest : stripEmpty (lines.map (nest n)) = (stripEmpty lines).map (nest n) :=
  stripEmpty_map fun line _ => isEmpty_nest n line

end Lines

/-! ## Lines that stand below a heading -/

/-- The line is empty, or has something at `m` places to the right or further. -/
def StandsAt (m : Nat) (line : Text) : Prop := line = [] ∨ blank line = false ∧ m ≤ indent line

/-- What keeps lines from being empty keeps the last one from it. -/
theorem getLast?_map_ne_nil {f : Text → Text} {lines : List Text}
    (hf : ∀ line ∈ lines, (f line).isEmpty = line.isEmpty) (h : lines.getLast? ≠ some []) :
    (lines.map f).getLast? ≠ some [] := by
  rw [List.getLast?_map]
  intro he
  obtain ⟨line, hline, hempty⟩ := Option.map_eq_some_iff.1 he
  have hnil := hf line (List.mem_of_getLast? hline)
  rw [hempty] at hnil
  exact h (by rw [hline, List.isEmpty_iff.1 hnil.symm])

section StandsAt

variable {m n : Nat} {line : Text}

theorem StandsAt.blank (h : StandsAt m line) (hne : line ≠ []) : blank line = false :=
  (h.resolve_left hne).1

theorem StandsAt.mono (h : StandsAt m line) {k : Nat} (hk : k ≤ m) : StandsAt k line :=
  h.imp_right fun ⟨hblank, hm⟩ => ⟨hblank, Nat.le_trans hk hm⟩

theorem StandsAt.trimEnd_nest (h : StandsAt m line) (n : Nat) :
    trimEnd (nest n line) = nest n (trimEnd line) :=
  Text.trimEnd_nest n (h.imp_right And.left)

theorem StandsAt.nest (h : StandsAt m line) (n : Nat) : StandsAt (n + m) (nest n line) := by
  rcases h with rfl | ⟨hblank, hm⟩
  · exact Or.inl rfl
  · have hne : line ≠ [] := fun he => by rw [he] at hblank; cases hblank
    refine Or.inr ⟨by rw [blank_nest, hblank], ?_⟩
    rw [indent_nest n hne]
    exact Nat.add_le_add_left hm n

/-- The end of a line says nothing about its place. -/
theorem StandsAt.exists_trimEnd (h : StandsAt m line) (hne : line ≠ []) :
    Text.trimEnd line ≠ [] ∧ Text.blank (Text.trimEnd line) = false ∧
      indent (Text.trimEnd line) = indent line := by
  obtain ⟨lead, c, u, rfl, hlead, hc⟩ := exists_of_not_blank (h.blank hne)
  rw [trimEnd_append_cons hc, indent_append hlead, indent_append hlead,
    indent_cons_of_not_isBlank hc, indent_cons_of_not_isBlank hc]
  refine ⟨by simp, ?_, rfl⟩
  have hblank : Text.blank (c :: Text.trimEnd u) = false := by
    rw [Text.blank, List.all_cons, hc, Bool.false_and]
  rw [blank_append, hblank, Bool.and_false]

theorem StandsAt.trimEnd (h : StandsAt m line) : StandsAt m (trimEnd line) := by
  by_cases hne : line = []
  · exact Or.inl (by rw [hne]; rfl)
  · obtain ⟨-, hblank, hindent⟩ := h.exists_trimEnd hne
    exact Or.inr ⟨hblank, by rw [hindent]; exact (h.resolve_left hne).2⟩

theorem StandsAt.isEmpty_trimEnd (h : StandsAt m line) :
    (Text.trimEnd line).isEmpty = line.isEmpty := by
  by_cases hne : line = []
  · rw [hne]; rfl
  · rw [List.isEmpty_eq_false_iff.2 hne, List.isEmpty_eq_false_iff.2 (h.exists_trimEnd hne).1]

theorem StandsAt.isIndented (h : StandsAt m line) (hne : line ≠ []) : isIndented m line = true := by
  obtain ⟨lead, c, u, rfl, hlead, hc⟩ := exists_of_not_blank (h.blank hne)
  have hm := (h.resolve_left hne).2
  rw [indent_append hlead, indent_cons_of_not_isBlank hc, Nat.add_zero] at hm
  have htake : ((lead ++ c :: u).take m).all isBlank = true := by
    rw [List.take_append_of_le_length hm]
    exact List.all_eq_true.2 fun d hd => List.all_eq_true.1 hlead d (List.mem_of_mem_take hd)
  rw [Text.isIndented, htake, Bool.true_and, decide_eq_true_eq, List.length_append,
    List.length_cons]
  omega

/-- A line that does not stand at the margin starts with a blank. -/
theorem StandsAt.head? (h : StandsAt m line) (hm : 0 < m) :
    ∀ c, line.head? = some c → isBlank c = true := by
  rintro c hc
  obtain ⟨u, rfl⟩ := List.head?_eq_some_iff.1 hc
  have hindent := (h.resolve_left (List.cons_ne_nil c u)).2
  refine Bool.not_eq_false _ |>.mp fun hblank => ?_
  rw [indent_cons_of_not_isBlank hblank] at hindent
  omega

end StandsAt

/-! ## Blanks at the ends of lines -/

theorem trimEnd_drop {line : Text} {k : Nat} (hk : k ≤ indent line) (hblank : blank line = false) :
    trimEnd (line.drop k) = (trimEnd line).drop k := by
  obtain ⟨lead, c, u, rfl, hlead, hc⟩ := exists_of_not_blank hblank
  rw [indent_append hlead, indent_cons_of_not_isBlank hc, Nat.add_zero] at hk
  rw [List.drop_append_of_le_length hk, trimEnd_append_cons hc, trimEnd_append_cons hc,
    List.drop_append_of_le_length hk]

theorem indent_drop {line : Text} {k : Nat} (hk : k ≤ indent line) (hblank : blank line = false) :
    indent (line.drop k) = indent line - k := by
  obtain ⟨lead, c, u, rfl, hlead, hc⟩ := exists_of_not_blank hblank
  have hdrop : blank (lead.drop k) = true :=
    List.all_eq_true.2 fun d hd => List.all_eq_true.1 hlead d (List.mem_of_mem_drop hd)
  rw [indent_append hlead, indent_cons_of_not_isBlank hc, Nat.add_zero] at hk ⊢
  rw [List.drop_append_of_le_length hk, indent_append hdrop, indent_cons_of_not_isBlank hc,
    Nat.add_zero, List.length_drop]

theorem blank_drop {line : Text} {k : Nat} (hk : k ≤ indent line) (hblank : blank line = false) :
    blank (line.drop k) = false := by
  obtain ⟨lead, c, u, rfl, hlead, hc⟩ := exists_of_not_blank hblank
  rw [indent_append hlead, indent_cons_of_not_isBlank hc, Nat.add_zero] at hk
  rw [List.drop_append_of_le_length hk, blank_append, blank, blank, List.all_cons, hc,
    Bool.false_and, Bool.and_false]

theorem firstIndent?_dropEmpty (lines : List Text) :
    firstIndent? (dropEndWhile List.isEmpty lines) = firstIndent? lines := by
  obtain ⟨gap, hlines, hgap⟩ := exists_append_dropEndWhile List.isEmpty lines
  have hnone : gap.find? (fun l => !l.isEmpty) = none :=
    List.find?_eq_none.2 fun l hl => by simp [hgap l hl]
  rw [firstIndent?, firstIndent?, hlines, List.find?_append, hnone, Option.or_none, ← hlines]

theorem getLast?_stripEmpty (lines : List Text) : (stripEmpty lines).getLast? ≠ some [] := by
  intro he
  obtain ⟨lead, hlead⟩ := List.dropWhile_suffix List.isEmpty (l := dropEndWhile List.isEmpty lines)
  have hlast : (dropEndWhile List.isEmpty lines).getLast? = some [] := by
    rw [← hlead, List.getLast?_append, ← stripEmpty, he]
    rfl
  exact absurd (of_getLast?_dropEndWhile hlast) (by decide)

section Stands

variable {m : Nat} {lines : List Text} (h : ∀ line ∈ lines, StandsAt m line)
include h

theorem map_indent_trimEnd : ((lines.map trimEnd).filter fun l => !l.isEmpty).map indent =
    (lines.filter fun l => !l.isEmpty).map indent := by
  rw [map_indent_map (f := trimEnd) (g := id) (fun line hline => (h line hline).isEmpty_trimEnd)
    fun line hline hne => ((h line hline).exists_trimEnd hne).2.2, List.map_id]

theorem margin?_trimEnd : margin? (lines.map trimEnd) = margin? lines := by
  rw [margin?, map_indent_trimEnd h, margin?]

theorem firstIndent?_trimEnd : firstIndent? (lines.map trimEnd) = firstIndent? lines := by
  rw [firstIndent?_eq_head?, map_indent_trimEnd h, firstIndent?_eq_head?]

theorem dedent_trimEnd : dedent (lines.map trimEnd) = (dedent lines).map trimEnd := by
  rw [dedent, margin?_trimEnd h, dedent, List.map_map, List.map_map]
  refine List.map_congr_left fun line hline => ?_
  by_cases hne : line = []
  · rw [hne, Function.comp_apply, Function.comp_apply, List.drop_nil]
    exact List.drop_nil
  · have hblank := (h line hline).blank hne
    exact (trimEnd_drop (margin_le hline hblank) hblank).symm

theorem firstIndent?_dedent :
    firstIndent? (dedent lines) = (firstIndent? lines).map (· - (margin? lines).getD 0) := by
  have hdrop : ∀ line ∈ lines, line ≠ [] →
      line.drop ((margin? lines).getD 0) ≠ [] ∧
        indent (line.drop ((margin? lines).getD 0)) = indent line - (margin? lines).getD 0 :=
    fun line hline hne => ⟨drop_margin_ne_nil lines hline ((h line hline).blank hne),
      indent_drop (margin_le hline ((h line hline).blank hne)) ((h line hline).blank hne)⟩
  rw [firstIndent?_eq_head?, dedent, map_indent_map, List.head?_map, firstIndent?_eq_head?]
  · intro line hline
    by_cases hne : line = []
    · rw [hne, List.drop_nil]
    · rw [List.isEmpty_eq_false_iff.2 hne, List.isEmpty_eq_false_iff.2 (hdrop line hline hne).1]
  · exact fun line hline hne => (hdrop line hline hne).2

theorem standsAt_dedent : ∀ line ∈ dedent lines, StandsAt 0 line := by
  refine List.forall_mem_map.2 fun line hline => ?_
  by_cases hne : line = []
  · exact Or.inl (by rw [hne, List.drop_nil])
  · have hblank := (h line hline).blank hne
    exact Or.inr ⟨blank_drop (margin_le hline hblank) hblank, Nat.zero_le _⟩

end Stands

/-- Lines of which no one stands further to the left than the first that is not empty, and
that one not at the margin. -/
structure IsBody (m : Nat) (lines : List Text) : Prop where
  pos : 0 < m
  first : firstIndent? lines = some m
  stands : ∀ line ∈ lines, StandsAt m line

section IsBody

variable {m : Nat} {lines : List Text}

theorem IsBody.ne_nil (h : IsBody m lines) : lines ≠ [] := by
  rintro rfl
  cases h.first

theorem IsBody.map_trimEnd_nest (h : IsBody m lines) (n : Nat) :
    (lines.map (Text.nest n)).map Text.trimEnd = (lines.map Text.trimEnd).map (Text.nest n) := by
  rw [List.map_map, List.map_map]
  exact List.map_congr_left fun line hline => (h.stands line hline).trimEnd_nest n

theorem IsBody.nest (h : IsBody m lines) (n : Nat) : IsBody (n + m) (lines.map (nest n)) where
  pos := Nat.add_pos_right n h.pos
  first := by rw [firstIndent?_nest, h.first, Option.map_some]
  stands := List.forall_mem_map.2 fun line hline => (h.stands line hline).nest n

theorem IsBody.trimEnd (h : IsBody m lines) : IsBody m (lines.map trimEnd) where
  pos := h.pos
  first := (firstIndent?_trimEnd h.stands).trans h.first
  stands := List.forall_mem_map.2 fun line hline => (h.stands line hline).trimEnd

theorem IsBody.dropEmpty (h : IsBody m lines) : IsBody m (dropEndWhile List.isEmpty lines) where
  pos := h.pos
  first := (firstIndent?_dropEmpty lines).trans h.first
  stands line hline := h.stands line ((dropEndWhile_sublist _ _).subset hline)

/-- Indented lines are a body when their margin is the place of the first of them, unless
there is nothing in them. -/
theorem isBody_of_margin (hmargin : firstIndent? lines = margin? lines)
    (hindent : ∀ line ∈ lines, StandsAt 1 line) :
    (∀ line ∈ lines, line = []) ∨ ∃ m, IsBody m lines := by
  cases hfirst : firstIndent? lines with
  | none =>
    rw [firstIndent?, Option.map_eq_none_iff, List.find?_eq_none] at hfirst
    exact Or.inl fun line hline => by simpa using hfirst line hline
  | some m =>
    have hmin := (List.min?_eq_some_iff.1 (hmargin.symm.trans hfirst)).2
    have hpos : 0 < m := by
      obtain ⟨line, hline, rfl⟩ := Option.map_eq_some_iff.1 hfirst
      have hne : line ≠ [] := by simpa using List.find?_some hline
      exact ((hindent line (List.mem_of_find?_eq_some hline)).resolve_left hne).2
    refine Or.inr ⟨m, hpos, hfirst, fun line hline => ?_⟩
    by_cases hne : line = []
    · exact Or.inl hne
    · have hmem : line ∈ lines.filter fun l => !l.isEmpty :=
        List.mem_filter.2 ⟨hline, by simpa using hne⟩
      exact Or.inr ⟨(hindent line hline).blank hne, hmin _ (List.mem_map_of_mem hmem)⟩

end IsBody

end CallDoc.Text
