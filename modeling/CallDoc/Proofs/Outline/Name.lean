import CallDoc.Proofs.Outline.Basic

/-!
The names of entries as they are spelled, with stars or with escaped stars before them.
-/
namespace CallDoc.Outline

open Text Section

theorem isName_mem {t : Text} (h : isName t = true) {c : Char} (hc : c ∈ t) :
    isLetterOrDigit c = true ∨ c = '_' ∨ c = '.' := by
  rw [isName, Bool.and_eq_true, List.all_eq_true] at h
  simpa [or_assoc] using h.2 c hc

theorem isName_head {t : Text} (h : isName t = true) :
    ∃ c u, t = c :: u ∧ (isLetter c = true ∨ c = '_') := by
  rw [isName, Bool.and_eq_true] at h
  cases t with
  | nil => cases h.1
  | cons c u => exact ⟨c, u, rfl, by simpa using h.1⟩

/-- No mark but the underscore and the dot is in a name. -/
theorem isName_ne {t : Text} (h : isName t = true) {c d : Char} (hc : c ∈ t)
    (hd : isMark d = true) (hother : d ≠ '_' ∧ d ≠ '.') : c ≠ d := by
  rcases isName_mem h hc with hletter | rfl | rfl
  · exact ne_of_isProseCharacter (isProseCharacter_of_isLetterOrDigit hletter) hd
  · exact hother.1.symm
  · exact hother.2.symm

theorem isWord_of_isName {t : Text} (h : isName t = true) : IsWord t := by
  obtain ⟨c, u, hname, -⟩ := isName_head h
  refine ⟨by simp [hname], fun c hc => ?_, fun c hc => ?_⟩
  · rcases isName_mem h hc with hletter | rfl | rfl
    · exact isBlank_of_isProseCharacter (isProseCharacter_of_isLetterOrDigit hletter)
    · rfl
    · rfl
  · refine ⟨?_, ?_, ?_⟩ <;> exact isName_ne h hc (by decide) (by decide)

/-- What stands before a name and does not belong to it is taken away. -/
theorem plainName_append {lead t : Text} (hlead : ∀ c ∈ lead, c = '*' ∨ c = '\\')
    (h : isName t = true) : Frame.plainName (lead ++ t) = t := by
  have hfilter : t.filter (fun c => c != '\\') = t :=
    List.filter_eq_self.2 fun c hc => bne_iff_ne.2 (isName_ne h hc (by decide) (by decide))
  rw [Frame.plainName, List.filter_append, hfilter, List.dropWhile_append_of_pos]
  · obtain ⟨c, u, hname, -⟩ := isName_head h
    have hstar : c ≠ '*' := isName_ne h (hname ▸ List.mem_cons_self) (by decide) (by decide)
    rw [hname]
    exact List.dropWhile_cons_of_neg (by simp [hstar])
  · intro c hc
    obtain ⟨hmem, hkept⟩ := List.mem_filter.1 hc
    exact beq_iff_eq.2 ((hlead c hmem).resolve_right (bne_iff_ne.1 hkept))

namespace Entry

/-- The text is the name with something before it that does not belong to it. -/
def Spells (e : Entry) (t : Text) : Prop :=
  ∃ lead, t = lead ++ e.name ∧ ∀ c ∈ lead, c = '*' ∨ c = '\\'

variable (e : Entry)

theorem spells_name : e.Spells e.name := ⟨[], rfl, nofun⟩

theorem spells_spelling : e.Spells e.spelling :=
  ⟨List.replicate e.stars '*', rfl, fun _ hc => Or.inl (List.eq_of_mem_replicate hc)⟩

/-- A backslash is put before each star. -/
theorem escapeStars_spelling :
    escapeStars e.spelling = (List.replicate e.stars "\\*".toList).flatten ++ e.name := by
  obtain ⟨c, u, hname, -⟩ := isName_head e.named
  have hstar : c ≠ '*' := isName_ne e.named (hname ▸ List.mem_cons_self) (by decide) (by decide)
  have hstars : e.stars = 0 ∨ e.stars = 1 ∨ e.stars = 2 := by have := e.starred; omega
  rw [spelling, hname]
  rcases hstars with h | h | h <;> simp [h, escapeStars, List.replicate, hstar]

theorem spells_escaped : e.Spells (escapeStars e.spelling) := by
  refine ⟨_, e.escapeStars_spelling, fun c hc => ?_⟩
  obtain ⟨star, hstar, hc⟩ := List.mem_flatten.1 hc
  rw [List.eq_of_mem_replicate hstar] at hc
  revert hc
  simp
  tauto

variable {e} {t : Text}

theorem Spells.plainName (h : e.Spells t) : Frame.plainName t = e.name := by
  obtain ⟨lead, rfl, hlead⟩ := h
  exact plainName_append hlead e.named

theorem Spells.last_ne (h : e.Spells t) {d : Char} (hd : isMark d = true)
    (hother : d ≠ '_' ∧ d ≠ '.') : t.getLast? ≠ some d := by
  obtain ⟨lead, rfl, -⟩ := h
  obtain ⟨c, u, hname, -⟩ := isName_head e.named
  rw [List.getLast?_append_of_ne_nil _ (by simp [hname])]
  exact fun he => isName_ne e.named (List.mem_of_getLast? he) hd hother rfl

theorem Spells.isWord (h : e.Spells t) : IsWord t := by
  obtain ⟨lead, rfl, hlead⟩ := h
  have hname := isWord_of_isName e.named
  refine ⟨by simp [hname.ne_nil], fun c hc => ?_, fun c hc => ?_⟩ <;>
    rcases List.mem_append.1 hc with hc | hc
  · rcases hlead c hc with rfl | rfl <;> rfl
  · exact hname.blank c hc
  · rcases hlead c hc with rfl | rfl <;> decide
  · exact hname.mark c hc

end Entry
end CallDoc.Outline
