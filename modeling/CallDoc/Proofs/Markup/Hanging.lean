import CallDoc.Proofs.Markup.Prose

/-!
What hangs below a line: the indented lines after it, up to the next line at the margin. They
are read without their common indent.
-/
namespace CallDoc.Line

open Text

/-- Lines hang below each other as they do without what follows, when that starts at the margin
below its blank lines. -/
theorem hanging_append (lines : List Line) {rest : List Line}
    (hrest : ∀ line, (rest.dropWhile isBlank).head? = some line → line.isIndented = false) :
    hanging (lines ++ rest) = ((hanging lines).1, (hanging lines).2 ++ rest) := by
  have hblanks : (rest.takeWhile fun line => line.isBlank || line.isIndented) =
      rest.takeWhile isBlank := by
    induction rest with
    | nil => rfl
    | cons line rest ih =>
      cases hblank : line.isBlank with
      | true =>
        rw [List.dropWhile_cons_of_pos hblank] at hrest
        rw [List.takeWhile_cons_of_pos (by simp [hblank]), List.takeWhile_cons_of_pos hblank,
          ih hrest]
      | false =>
        rw [List.dropWhile_cons_of_neg (by simp [hblank])] at hrest
        have hindent := hrest line rfl
        rw [List.takeWhile_cons_of_neg (by simp [hblank, hindent]),
          List.takeWhile_cons_of_neg (by simp [hblank])]
  have hbody : dropEndWhile isBlank
      ((lines ++ rest).takeWhile fun line => line.isBlank || line.isIndented) =
      (hanging lines).1 := by
    rw [List.takeWhile_append]
    split
    · rename_i hall
      -- all lines hang, and so do the blank ones at the start of the rest, which do not count
      rw [hblanks, dropEndWhile_append fun line hline =>
        List.all_eq_true.1 (List.all_takeWhile (p := isBlank)) line hline, hanging,
        (List.takeWhile_prefix _).eq_of_length hall]
    · rfl
  have hlength : (hanging lines).1.length ≤ lines.length := (hanging_fst_sublist lines).length_le
  rw [hanging, hbody, List.drop_append_of_le_length hlength]
  rfl

theorem hanging_of_indented {body : List Line}
    (hbody : ∀ line ∈ body, line.isBlank = false ∧ line.isIndented = true) :
    hanging body = (body, []) := by
  have htake : (body.takeWhile fun line => line.isBlank || line.isIndented) = body :=
    List.takeWhile_eq_self_iff.2 fun line hline => by simp [(hbody line hline).2]
  have hdrop : dropEndWhile isBlank body = body :=
    dropEndWhile_eq_self fun line hline => (hbody line (List.mem_of_getLast? hline)).1
  rw [hanging, htake, hdrop, List.drop_length]

theorem margin_of_indent {lines : List Line} {n : Nat} (hne : lines ≠ [])
    (h : ∀ line ∈ lines, line.isBlank = false ∧ indent line.text = n) : margin lines = n := by
  have hfilter : lines.filter (fun line => !line.isBlank) = lines :=
    List.filter_eq_self.2 fun line hline => by simp [(h line hline).1]
  have hmap : lines.map (fun line => indent line.text) = List.replicate lines.length n :=
    List.map_eq_replicate_iff.2 fun line hline => (h line hline).2
  obtain ⟨k, hk⟩ : ∃ k, lines.length = k + 1 :=
    ⟨lines.length - 1, by have := List.length_pos_iff.2 hne; omega⟩
  rw [margin, hfilter, hmap, hk, List.min?_replicate]
  simp

/-- Lines of prose that are all moved to the right have their places back without it. -/
theorem dedent_pad {prose : List Text} (hprose : ∀ line ∈ prose, isProse line = true) {n : Nat}
    {lines : List Line} (hlines : lines.map Line.text = Text.pad n prose) :
    (dedent lines).map Line.text = prose := by
  by_cases hne : lines = []
  · subst hne
    obtain rfl := List.map_eq_nil_iff.1 hlines.symm
    rfl
  · have hindent (line : Line) (hline : line ∈ lines) :
        line.isBlank = false ∧ indent line.text = n := by
      have hmem : line.text ∈ Text.pad n prose := hlines ▸ List.mem_map_of_mem hline
      obtain ⟨t, ht, he⟩ := List.mem_map.1 hmem
      have hsolid := isSolid_of_isProse (hprose t ht)
      rw [isBlank, ← he]
      exact ⟨hsolid.blank_append _, hsolid.indent n⟩
    rw [dedent, margin_of_indent hne hindent, List.map_map]
    change lines.map ((fun t => trimEnd (t.drop n)) ∘ Line.text) = prose
    rw [← List.map_map, hlines, Text.pad, List.map_map]
    refine (List.map_congr_left fun t ht => ?_).trans (List.map_id prose)
    have hdrop : (spaces n ++ t).drop n = t := List.drop_left' (List.length_replicate ..)
    exact (congrArg trimEnd hdrop).trans (isSolid_of_isProse (hprose t ht)).trimEnd

end CallDoc.Line
