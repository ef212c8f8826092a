import CallDoc.Proofs.Numeral.Marker

/-!
The text of an enumerated item. It begins behind the blanks that follow the marker, where the line
is cut at the marker's offset. The offset counts the bytes of these blanks and the cut counts
characters, so that the two meet exactly where every blank takes a single byte.
-/
namespace CallDoc

open Text

namespace Text

theorem length_le_utf8Width (t : Text) : t.length ≤ utf8Width t := by
  induction t with
  | nil => exact Nat.le_refl 0
  | cons c t ih =>
    have hpos := c.utf8Size_pos
    change t.length + 1 ≤ c.utf8Size + utf8Width t
    omega

theorem utf8Width_eq_length_iff {t : Text} :
    utf8Width t = t.length ↔ ∀ c ∈ t, c.utf8Size = 1 := by
  induction t with
  | nil => exact iff_of_true rfl (List.forall_mem_nil _)
  | cons c t ih =>
    have hpos := c.utf8Size_pos
    have hle := length_le_utf8Width t
    rw [List.forall_mem_cons, ← ih]
    change c.utf8Size + utf8Width t = t.length + 1 ↔ _
    omega

end Text

namespace Marker

variable {line : Text} {m : Marker}

/-- The blanks behind a marker, where the text of the item begins behind them. -/
def blanks (after : Text) : Text := after.takeWhile isBlank

theorem exists_of_ofLine? (h : ofLine? line = some m) :
    ∃ after, line = m.bracket.wrap m.token ++ after ∧
      m.textOffset = (m.bracket.wrap m.token).length +
        if blank after then 1 else utf8Width (blanks after) := by
  unfold ofLine? at h
  split at h
  · cases h
  · rename_i bracket token after hsplit
    split at h
    · obtain rfl := Option.some.inj h
      exact ⟨after, (split?_eq_some_iff.1 hsplit).1, rfl⟩
    · cases h

/-- Blanks at the end of a line with a marker all stand behind the marker. -/
theorem trimEnd_of_wrap {bracket : Bracket} {token after : Text}
    (h : trimEnd (bracket.wrap token ++ after) = bracket.wrap token ++ after) :
    trimEnd after = after := by
  obtain ⟨lead, c, hwrap, hc⟩ := exists_wrap bracket token
  rw [hwrap, List.append_assoc, List.singleton_append, trimEnd_append_cons hc] at h
  exact (List.cons.inj (List.append_cancel_left h)).2

/-- Of the text behind the marker as many characters are lost as the blanks before it have bytes
beyond the first of each. -/
theorem exists_drop_textOffset (hend : trimEnd line = line) (h : ofLine? line = some m) :
    ∃ after, line = m.bracket.wrap m.token ++ after ∧ line.drop m.textOffset =
      (trimStart after).drop (utf8Width (blanks after) - (blanks after).length) := by
  obtain ⟨after, hline, hoffset⟩ := exists_of_ofLine? h
  refine ⟨after, hline, ?_⟩
  rw [hline] at hend
  cases hblank : blank after with
  | true =>
    have hempty : after = [] := by rw [← trimEnd_of_wrap hend, trimEnd_of_blank hblank]
    subst hempty
    rw [hline, hoffset, List.drop_append]
    simp [trimStart]
  | false =>
    have hafter : blanks after ++ trimStart after = after := List.takeWhile_append_dropWhile
    have hwidth := length_le_utf8Width (blanks after)
    rw [hblank, if_neg Bool.false_ne_true] at hoffset
    rw [hline, hoffset, List.drop_append, List.drop_of_length_le (Nat.le_add_right _ _),
      List.nil_append, Nat.add_sub_cancel_left]
    nth_rewrite 2 [← hafter]
    rw [List.drop_append, List.drop_of_length_le hwidth, List.nil_append]

/-- The line is cut at the text behind the marker exactly where the blanks between them take one
byte each. Otherwise the cut falls into the text, by as many characters as there are bytes more. -/
theorem drop_textOffset_iff (hend : trimEnd line = line) (h : ofLine? line = some m) :
    ∃ after, line = m.bracket.wrap m.token ++ after ∧
      line.drop m.textOffset =
        (trimStart after).drop (utf8Width (blanks after) - (blanks after).length) ∧
      (line.drop m.textOffset = trimStart after ↔ ∀ c ∈ blanks after, c.utf8Size = 1) := by
  obtain ⟨after, hline, hdrop⟩ := exists_drop_textOffset hend h
  refine ⟨after, hline, hdrop, ?_⟩
  rw [hdrop, ← utf8Width_eq_length_iff]
  constructor
  · intro hwhole
    have hlength := congrArg List.length hwhole
    rw [List.length_drop] at hlength
    by_cases hempty : trimStart after = []
    · -- nothing but blanks, of which none is left at the end of a line
      have hblank : blank after = true :=
        List.all_eq_true.2 (List.dropWhile_eq_nil_iff.1 hempty)
      rw [hline] at hend
      have hnone : after = [] := (trimEnd_of_wrap hend).symm.trans (trimEnd_of_blank hblank)
      rw [hnone]
      rfl
    · have hpos := List.length_pos_iff.2 hempty
      have hle := length_le_utf8Width (blanks after)
      omega
  · intro hwidth
    rw [hwidth, Nat.sub_self, List.drop_zero]

/-- A tab and a space take a byte each. -/
theorem drop_textOffset_iff_tab :
    let line := "(iv)\t one".toList
    let m : Marker := ⟨.parens, "iv".toList, 6⟩
    (trimEnd line = line ∧ ofLine? line = some m) ∧ line.drop m.textOffset = "one".toList := by
  intro line m
  have hend : trimEnd line = line := by decide
  have hmarker : ofLine? line = some m := by decide
  obtain ⟨after, hline, -, hiff⟩ := drop_textOffset_iff hend hmarker
  have hafter : after = "\t one".toList := by
    have hwrap : line = m.bracket.wrap m.token ++ "\t one".toList := by decide
    exact (List.append_cancel_left (hwrap.symm.trans hline)).symm
  subst hafter
  have hblanks : ∀ c ∈ blanks "\t one".toList, c.utf8Size = 1 :=
    forall_mem_of_all (by decide +kernel)
  have htext : trimStart "\t one".toList = "one".toList := by decide +kernel
  exact ⟨⟨hend, hmarker⟩, (hiff.2 hblanks).trans htext⟩

/-- An ideographic space takes three bytes, and two letters of the text are lost with it. -/
theorem drop_textOffset_wide :
    let line := "1.\u3000one".toList
    trimEnd line = line ∧ ofLine? line = some ⟨.period, "1".toList, 5⟩ ∧
      line = Bracket.period.wrap "1".toList ++ "\u3000one".toList ∧
      trimStart "\u3000one".toList = "one".toList ∧ line.drop 5 = "e".toList := by
  decide

end Marker
end CallDoc
