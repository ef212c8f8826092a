import CallDoc.Margin
import CallDoc.Proofs.Markup.Prose
import CallDoc.Proofs.Section.Heading
import CallDoc.Proofs.Text.Nesting

/-!
Documentation that stands at the margin already is not changed when its margin is taken
away.
-/
namespace CallDoc

open Text

theorem Text.expandTabs_of_not_mem {t : Text} (h : '\t' ∉ t) : expandTabs t = t := by
  suffices hfrom : ∀ column, expandFrom column t = t from hfrom 0
  induction t with
  | nil => exact fun _ => rfl
  | cons c t ih =>
    rw [List.mem_cons, not_or] at h
    intro column
    rw [expandFrom, if_neg fun he => h.1 he.symm, ih h.2]

theorem Text.mem_expandFrom {t : Text} {c : Char} {column : Nat} (h : c ∈ expandFrom column t) :
    c = ' ' ∨ c ∈ t := by
  induction t generalizing column with
  | nil => cases h
  | cons d t ih =>
    rw [expandFrom] at h
    split at h
    · exact (List.mem_append.1 h).elim (fun h => Or.inl (List.eq_of_mem_replicate h)) fun h =>
        (ih h).imp_right (List.mem_cons_of_mem d)
    · rcases List.mem_cons.1 h with rfl | h
      · exact Or.inr List.mem_cons_self
      · exact (ih h).imp_right (List.mem_cons_of_mem d)

/-- Nothing is left of a line that holds only blanks. -/
def Text.cleared (line : Text) : Text := if blank line then [] else line

theorem Text.trimStart_cleared (line : Text) : trimStart (cleared line) = trimStart line := by
  rw [cleared]
  split
  · rename_i h
    exact (trimStart_append h []).symm.trans (by rw [List.append_nil])
  · rfl

theorem Text.mem_cleared {line : Text} {c : Char} (h : c ∈ cleared line) : c ∈ line := by
  rw [cleared] at h
  split at h
  · cases h
  · exact h

theorem Text.standsAt_cleared {line : Text} {m : Nat}
    (h : blank line = false → m ≤ indent line) : StandsAt m (cleared line) := by
  rw [cleared]
  cases hblank : blank line with
  | true => exact Or.inl rfl
  | false => exact Or.inr ⟨hblank, h hblank⟩

theorem of_mem_sourceLines {t line : Text} (h : line ∈ sourceLines t) {c : Char} (hc : c ∈ line) :
    c = ' ' ∨ c ∈ t ∧ c ≠ '\n' := by
  obtain ⟨raw, hraw, rfl⟩ := List.mem_map.1 h
  obtain ⟨hnewline, hmem⟩ := of_mem_splitOn hraw
  exact (mem_expandFrom (mem_cleared hc)).imp_right fun hc =>
    ⟨hmem c hc, fun he => hnewline (he ▸ hc)⟩

theorem sourceLines_unlines {lines : List Text} (hne : lines ≠ [])
    (h : ∀ line ∈ lines, IsTrimmed line) : sourceLines (unlines lines) = lines := by
  rw [sourceLines, splitOn_unlines hne fun line hline => (h line hline).newline]
  refine (List.map_congr_left fun line hline => ?_).trans (List.map_id lines)
  have htrimmed := h line hline
  rw [expandTabs_of_not_mem htrimmed.tab]
  dsimp only
  split
  · rename_i hblank
    exact (htrimmed.eq_nil hblank).symm
  · rfl

/-- Lines of which one stands at the margin already. -/
theorem dedent_of_indent {lines : List Text}
    (h : lines = [] ∨ ∃ line ∈ lines, line ≠ [] ∧ indent line = 0) : dedent lines = lines := by
  rcases h with rfl | ⟨line, hline, hne, hindent⟩
  · rfl
  · have hmem : 0 ∈ (lines.filter fun l => !l.isEmpty).map indent :=
      List.mem_map.2 ⟨line, List.mem_filter.2 ⟨hline, by simp [hne]⟩, hindent⟩
    have hmargin : margin? lines = some 0 := by
      rw [margin?, List.min?_eq_some_iff]
      exact ⟨hmem, fun n _ => Nat.zero_le n⟩
    exact dedent_of_margin (by rw [hmargin]; rfl)

/-- Prose with lines below it that have no margin. -/
theorem cleanMargin_unlines {prose rest : List Text} (hprose : IsProseLines prose)
    (htrim : ∀ line ∈ rest, IsTrimmed line)
    (hindent : rest = [] ∨ ∃ line ∈ rest, line ≠ [] ∧ indent line = 0)
    (hlast : (prose ++ rest).getLast? ≠ some []) :
    cleanMargin (unlines (prose ++ rest)) = unlines (prose ++ rest) := by
  obtain ⟨first, more, rfl⟩ := List.exists_cons_of_ne_nil hprose.ne_nil
  obtain ⟨hfirst, hmore⟩ := List.forall_mem_cons.1 hprose.prose
  have hsolid := isSolid_of_isProse hfirst
  have hall : ∀ line ∈ first :: more ++ rest, IsTrimmed line := fun line hline =>
    (List.mem_append.1 hline).elim (fun hline => isTrimmed_of_isProse (hprose.prose line hline))
      (htrim line)
  have hbelow : more ++ rest = [] ∨ ∃ line ∈ more ++ rest, line ≠ [] ∧ indent line = 0 := by
    cases more with
    | nil => exact hindent
    | cons line more =>
      have hline := isSolid_of_isProse (hmore line List.mem_cons_self)
      exact Or.inr ⟨line, List.mem_cons_self, hline.ne_nil, hline.indent 0⟩
  have hheading : Heading.ofColonLine? first = none :=
    Section.ofColonLine?_of_prose (Or.inr (endsInProse_of_isProse hfirst))
  have hstart : trimStart first = first := hsolid.trimStart_append [] rfl
  have hhead : (first :: more ++ rest).head? ≠ some [] := fun he =>
    hsolid.ne_nil (Option.some.inj he)
  have hstrip : stripEmpty (first :: (more ++ rest)) = first :: (more ++ rest) := by
    have hstrip : stripEmpty (first :: more ++ rest ++ []) = first :: more ++ rest :=
      stripEmpty_append hhead hlast nofun
    rwa [List.append_nil] at hstrip
  rw [List.cons_append] at hall ⊢
  rw [cleanMargin, sourceLines_unlines (List.cons_ne_nil first (more ++ rest)) hall]
  simp only [keepsMargin, hstart, hheading, dedent_of_indent hbelow,
    Option.isSome_none, Bool.false_and, Bool.false_eq_true, if_false, hstrip]

end CallDoc
