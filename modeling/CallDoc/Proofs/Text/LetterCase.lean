import CallDoc.Proofs.Text.Prose
import CallDoc.Text.LetterCase

/-!
Lower case leaves blanks and marks where they are.
-/
namespace CallDoc.Text

theorem smallLetter_of_isMark {c : Char} (h : isMark c = true) : smallLetter c = c := by
  have htable : ∀ stride ∈ lowerCaseStrides, ∀ gap ∈ gaps, 0xA9 < stride.1 ∧
      (stride.2.1 < gap.1 ∨ gap.2 < stride.1) := by decide +kernel
  rcases Bool.or_eq_true_iff.1 h with h | h
  · obtain ⟨hascii, gap, hgap, hlow, hhigh⟩ := gap_of_isBlank h
    have hupper : isUpper c = false := by
      refine Bool.eq_false_iff.2 fun hupper => ?_
      have := toNat_of_isLetterOrDigit (c := c) (by simp [isLetterOrDigit, isLetter, hupper])
      omega
    unfold smallLetter
    split
    · rw [asciiSmall, hupper, if_neg Bool.false_ne_true]
    · split
      · rename_i low high step small hfind
        have hrange := htable _ (List.mem_of_find?_eq_some hfind) gap hgap
        have hfound := List.find?_some hfind
        simp only [Bool.and_eq_true, decide_eq_true_eq] at hrange hfound
        omega
      · rfl
  · have hmarks : ∀ c ∈ "\\\x60*_.:()<>+-=~^#\x27\x22\r".toList, smallLetter c = c :=
      forall_mem_of_all (by decide)
    exact hmarks c (List.contains_iff_mem.1 h)

/-- A mark stays in its place when the text is put in lower case: at the start, at the end,
or somewhere between. -/
theorem lowercaseAfter_append {c : Char} (h : isMark c = true) (a b seen : Text) :
    ∃ x y, lowercaseAfter seen (a ++ c :: b) = x ++ c :: y ∧ (a = [] → x = []) ∧
      (b = [] → y = []) := by
  have hsigma : (c == 'Σ') = false := beq_eq_false_iff_ne.2 fun he => by
    rw [he] at h
    revert h
    decide
  have hdotted : (c == 'İ') = false := beq_eq_false_iff_ne.2 fun he => by
    rw [he] at h
    revert h
    decide
  induction a generalizing seen with
  | nil =>
    refine ⟨[], lowercaseAfter (c :: seen) b, ?_, fun _ => rfl, ?_⟩
    · rw [List.nil_append, lowercaseAfter]
      simp [hsigma, hdotted, smallLetter_of_isMark h]
    · rintro rfl
      rfl
  | cons d a ih =>
    obtain ⟨x, y, hx, -, hy⟩ := ih (d :: seen)
    rw [List.cons_append, lowercaseAfter, hx]
    exact ⟨_, y, (List.append_assoc ..).symm, nofun, hy⟩

theorem mem_lowercase {c : Char} (h : isMark c = true) {t : Text} (hc : c ∈ t) :
    c ∈ lowercase t := by
  obtain ⟨a, b, rfl⟩ := List.append_of_mem hc
  obtain ⟨x, y, hx, -⟩ := lowercaseAfter_append h a b []
  rw [lowercase, hx]
  simp

theorem head?_lowercase {c : Char} (h : isMark c = true) {t : Text} (hc : t.head? = some c) :
    (lowercase t).head? = some c := by
  obtain ⟨u, rfl⟩ := List.head?_eq_some_iff.1 hc
  obtain ⟨x, y, hx, hnil, -⟩ := lowercaseAfter_append h [] u []
  rw [List.nil_append, hnil rfl] at hx
  rw [lowercase, hx]
  rfl

theorem getLast?_lowercase {c : Char} (h : isMark c = true) {t : Text}
    (hc : t.getLast? = some c) : (lowercase t).getLast? = some c := by
  obtain ⟨u, rfl⟩ := List.getLast?_eq_some_iff.1 hc
  obtain ⟨x, y, hx, -, hnil⟩ := lowercaseAfter_append h u [] []
  rw [lowercase, hx, hnil rfl, List.getLast?_concat]

/-- What comes before the small letters is nothing else in lower case. -/
theorem eq_of_smallLetter {c d : Char} (hpos : 0 < d.toNat) (hd : d.toNat < 97)
    (h : smallLetter c = d) : c = d := by
  have hcode {n : Nat} (hn : Char.ofNat n = d) : n = d.toNat := by
    by_cases hvalid : n.isValidChar
    · rw [Char.ofNat, dif_pos hvalid] at hn
      exact congrArg Char.toNat hn
    · rw [Char.ofNat, dif_neg hvalid] at hn
      exact absurd hpos (by rw [← hn]; decide)
  unfold smallLetter at h
  split at h
  · unfold asciiSmall at h
    split at h
    · rename_i hupper
      have := hcode h
      simp only [isUpper, Bool.and_eq_true, decide_eq_true_eq, Char.le_def,
        UInt32.le_iff_toNat_le] at hupper
      have hcapital : 'A'.toNat ≤ c.toNat := hupper.1
      have hcode : 'A'.toNat = 65 := rfl
      omega
    · exact h
  · split at h
    · rename_i low high step small hfind
      have hsmall : ∀ stride ∈ lowerCaseStrides, 97 ≤ stride.2.2.2 := by decide +kernel
      have hlow : 97 ≤ small := hsmall _ (List.mem_of_find?_eq_some hfind)
      have := hcode h
      omega
    · exact h

theorem of_mem_lowercaseAfter {c : Char} (hpos : 0 < c.toNat) (hc : c.toNat < 97)
    {seen t : Text} (h : c ∈ lowercaseAfter seen t) : c ∈ t := by
  induction t generalizing seen with
  | nil => exact h
  | cons d t ih =>
    rw [lowercaseAfter] at h
    rcases List.mem_append.1 h with h | h
    · have hlarge : ∀ small ∈ ['ς', 'σ', 'i', '\u0307'], 97 ≤ small.toNat :=
        forall_mem_of_all (by decide)
      have hnone : c ∉ ['ς', 'σ', 'i', '\u0307'] := fun hmem => absurd (hlarge c hmem) (by omega)
      simp only [List.mem_cons, List.not_mem_nil, or_false, not_or] at hnone
      split at h
      · split at h <;> simp_all
      · split at h
        · simp_all
        · rw [List.mem_singleton] at h
          exact List.mem_cons.2 (Or.inl (eq_of_smallLetter hpos hc h.symm).symm)
    · exact .tail d (ih h)

/-- Only a period is a period in lower case. -/
theorem head?_of_lowercase_dot {t : Text} (h : (lowercase t).head? = some '.') :
    t.head? = some '.' := by
  cases t with
  | nil => cases h
  | cons c t =>
    rw [lowercase, lowercaseAfter] at h
    split at h
    · split at h <;> cases h
    · split at h
      · cases h
      · exact congrArg some (eq_of_smallLetter (by decide) (by decide) (Option.some.inj h))

end CallDoc.Text
