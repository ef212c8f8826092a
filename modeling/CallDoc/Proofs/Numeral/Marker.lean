import CallDoc.Numeral.Marker
import CallDoc.Proofs.Text.Nesting

/-!
The marker of an enumerated item does not depend on blanks at the end of its line.
-/
namespace CallDoc

open Text

/-! ## Blanks at the end of a line -/

namespace Text

theorem blank_trimEnd (t : Text) : blank (trimEnd t) = blank t := by
  cases h : blank t with
  | true => rw [trimEnd_of_blank h]; rfl
  | false =>
    obtain ⟨lead, c, u, rfl, -, hc⟩ := exists_of_not_blank h
    rw [trimEnd_append_cons hc, blank_append]
    simp [blank, hc]

theorem openStart_trimEnd (t : Text) : openStart (trimEnd t) = openStart t := by
  cases t with
  | nil => rfl
  | cons c t =>
    rw [trimEnd, dropEndWhile_cons]
    cases hc : isBlank c with
    | true => split <;> simp [openStart, hc]
    | false => simp [openStart]

/-- The blanks at the start of a line that holds something else. -/
theorem takeWhile_isBlank_trimEnd {t : Text} (h : blank t = false) :
    (trimEnd t).takeWhile isBlank = t.takeWhile isBlank := by
  obtain ⟨lead, c, u, rfl, hlead, hc⟩ := exists_of_not_blank h
  rw [trimEnd_append_cons hc, List.takeWhile_append_of_pos (List.all_eq_true.1 hlead),
    List.takeWhile_append_of_pos (List.all_eq_true.1 hlead),
    List.takeWhile_cons_of_neg (by simp [hc]), List.takeWhile_cons_of_neg (by simp [hc])]

theorem indent_trimEnd {t : Text} (h : blank t = false) : indent (trimEnd t) = indent t :=
  congrArg List.length (takeWhile_isBlank_trimEnd h)

end Text

/-! ## The parts of a marker -/

/-- What can stand between a bracket's marks: nothing that closes the marker before its end, and
no parenthesis that opens another one. -/
def Bracket.Holds : Bracket → Text → Prop
  | .parens, token => ')' ∉ token
  | _, token => '.' ∉ token ∧ ')' ∉ token ∧ token.head? ≠ some '('

namespace Marker

/-- The last character of a marker is its bracket. -/
theorem exists_wrap (bracket : Bracket) (token : Text) :
    ∃ lead c, bracket.wrap token = lead ++ [c] ∧ isBlank c = false := by
  cases bracket with
  | parens => exact ⟨'(' :: token, ')', rfl, rfl⟩
  | closing => exact ⟨token, ')', rfl, rfl⟩
  | period => exact ⟨token, '.', rfl, rfl⟩

/-- Neither a period nor a closing parenthesis. -/
def isInside (c : Char) : Bool := c != '.' && c != ')'

theorem isInside_eq_false_iff {c : Char} : isInside c = false ↔ c = '.' ∨ c = ')' := by
  rw [isInside, Bool.and_eq_false_iff, bne_eq_false_iff_eq, bne_eq_false_iff_eq]

theorem split?_of_head? {t : Text} (h : t.head? ≠ some '(') : split? t =
    match t.dropWhile isInside with
    | '.' :: after => some (.period, t.takeWhile isInside, after)
    | _ :: after => some (.closing, t.takeWhile isInside, after)
    | [] => none := by
  unfold split?
  split
  · exact absurd rfl h
  · rfl

/-- A text without a parenthesis at its start is cut at its first mark. -/
theorem split?_append {token : Text} (hinside : ∀ c ∈ token, isInside c = true)
    (hopen : token.head? ≠ some '(') {mark : Char} (hmark : isInside mark = false) (after : Text) :
    split? (token ++ mark :: after) =
      some (if mark = '.' then .period else .closing, token, after) := by
  have hhead : (token ++ mark :: after).head? ≠ some '(' := by
    cases token with
    | nil =>
      intro he
      obtain rfl := Option.some.inj he
      cases hmark
    | cons c token => exact hopen
  rw [split?_of_head? hhead, List.takeWhile_append_of_pos hinside,
    List.takeWhile_cons_of_neg (by simp [hmark]), List.append_nil,
    List.dropWhile_append_of_pos hinside, List.dropWhile_cons_of_neg (by simp [hmark])]
  rcases isInside_eq_false_iff.1 hmark with rfl | rfl <;> rfl

theorem isInside_of_not_mem {token : Text} (hperiod : '.' ∉ token) (hparen : ')' ∉ token) :
    ∀ c ∈ token, isInside c = true := by
  intro c hc
  by_contra h
  rcases isInside_eq_false_iff.1 (Bool.eq_false_iff.2 h) with rfl | rfl
  · exact hperiod hc
  · exact hparen hc

theorem split?_wrap {bracket : Bracket} {token : Text} (h : bracket.Holds token) (after : Text) :
    split? (bracket.wrap token ++ after) = some (bracket, token, after) := by
  cases bracket with
  | parens =>
    change (splitFirst? ')' ((token ++ [')']) ++ after)).map _ = _
    rw [List.append_assoc, List.singleton_append, splitFirst?_append h]
    rfl
  | closing =>
    obtain ⟨hperiod, hparen, hopen⟩ := h
    rw [Bracket.wrap, List.append_assoc, List.singleton_append,
      split?_append (isInside_of_not_mem hperiod hparen) hopen (by decide)]
    rfl
  | period =>
    obtain ⟨hperiod, hparen, hopen⟩ := h
    rw [Bracket.wrap, List.append_assoc, List.singleton_append,
      split?_append (isInside_of_not_mem hperiod hparen) hopen (by decide)]
    rfl

/-- The text up to the first mark can stand in front of it. -/
theorem holds_takeWhile {t : Text} (h : t.head? ≠ some '(') :
    '.' ∉ t.takeWhile isInside ∧ ')' ∉ t.takeWhile isInside ∧
      (t.takeWhile isInside).head? ≠ some '(' := by
  have hinside : ∀ c ∈ t.takeWhile isInside, isInside c = true :=
    fun c hc => List.all_eq_true.1 List.all_takeWhile c hc
  refine ⟨fun hc => absurd (hinside _ hc) (by decide),
    fun hc => absurd (hinside _ hc) (by decide), fun he => h ?_⟩
  cases t with
  | nil => cases he
  | cons c t =>
    rw [List.takeWhile_cons] at he
    split at he
    · exact he
    · cases he

/-- A marker is cut off a line exactly where it was put in front of it. -/
theorem split?_eq_some_iff {t token after : Text} {bracket : Bracket} :
    split? t = some (bracket, token, after) ↔
      t = bracket.wrap token ++ after ∧ bracket.Holds token := by
  refine ⟨fun h => ?_, fun ⟨ht, hholds⟩ => ht ▸ split?_wrap hholds after⟩
  by_cases hopen : t.head? = some '('
  · obtain ⟨u, rfl⟩ := List.head?_eq_some_iff.1 hopen
    obtain ⟨⟨u, v⟩, hu, he⟩ := Option.map_eq_some_iff.1 h
    cases he
    refine ⟨?_, not_mem_of_splitFirst? hu⟩
    rw [splitFirst?_eq hu]
    simp [Bracket.wrap]
  · have hcut := List.takeWhile_append_dropWhile (p := isInside) (l := t)
    have hholds := holds_takeWhile hopen
    rw [split?_of_head? hopen] at h
    cases hdrop : t.dropWhile isInside with
    | nil =>
      rw [hdrop] at h
      cases h
    | cons mark rest =>
      rw [hdrop] at h hcut
      have hmark : isInside mark = false := of_dropWhile_eq_cons hdrop
      rcases isInside_eq_false_iff.1 hmark with rfl | rfl
      · cases h
        exact ⟨hcut.symm.trans (List.append_cons ..), hholds⟩
      · cases h
        exact ⟨hcut.symm.trans (List.append_cons ..), hholds⟩

theorem split?_trimEnd (t : Text) : split? (trimEnd t) =
    (split? t).map fun (bracket, token, after) => (bracket, token, trimEnd after) := by
  cases h : split? t with
  | none =>
    refine Option.eq_none_iff_forall_ne_some.2 fun ⟨bracket, token, after⟩ hsplit => ?_
    obtain ⟨hwrap, hholds⟩ := split?_eq_some_iff.1 hsplit
    obtain ⟨blanks, ht, -⟩ := exists_append_dropEndWhile isBlank t
    rw [← trimEnd, hwrap, List.append_assoc] at ht
    rw [split?_eq_some_iff.2 ⟨ht, hholds⟩] at h
    cases h
  | some parts =>
    obtain ⟨bracket, token, after⟩ := parts
    obtain ⟨rfl, hholds⟩ := split?_eq_some_iff.1 h
    obtain ⟨lead, c, hwrap, hc⟩ := exists_wrap bracket token
    refine split?_eq_some_iff.2 ⟨?_, hholds⟩
    rw [hwrap, List.append_assoc, List.singleton_append, trimEnd_append_cons hc,
      List.append_assoc, List.singleton_append]

theorem ofLine?_trimEnd (t : Text) : ofLine? (trimEnd t) = ofLine? t := by
  rw [ofLine?, split?_trimEnd, ofLine?]
  cases split? t with
  | none => rfl
  | some parts =>
    obtain ⟨bracket, token, after⟩ := parts
    simp only [Option.map_some, openStart_trimEnd, blank_trimEnd]
    cases hblank : blank after with
    | true => rfl
    | false => rw [takeWhile_isBlank_trimEnd hblank]

end Marker

end CallDoc
