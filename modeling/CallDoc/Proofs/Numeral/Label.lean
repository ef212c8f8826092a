import Mathlib.Data.List.Forall2
import CallDoc.Proofs.Numeral.Marker
import CallDoc.Proofs.Numeral.Sequence

/-!
Labels of list items. The labels of a list are as wide as each other, and a line that starts
with one has the marker of its numeral, with the text of the item behind the label.
-/
namespace CallDoc

open Text

theorem Text.utf8Width_spaces (n : Nat) : utf8Width (spaces n) = n := by
  induction n with
  | zero => rfl
  | succ n ih =>
    rw [spaces, List.replicate_succ]
    change ' '.utf8Size + utf8Width (spaces n) = n + 1
    rw [ih]
    exact Nat.add_comm 1 n

/-- What stands before item number `n` of a list whose items start `width` to the right. -/
structure IsLabel (s : Sequence) (bracket : Bracket) (width n : Nat) (label : Text) : Prop where
  length : label.length = width
  written : ∃ numeral gap, s.numeral? n = some numeral ∧ 0 < gap ∧
    label = bracket.wrap numeral ++ spaces gap

theorem le_foldl_max {l : List Nat} {n : Nat} (h : n ∈ l) (init : Nat) : n ≤ l.foldl max init := by
  have hinit : ∀ (l : List Nat) (init : Nat), init ≤ l.foldl max init := by
    intro l
    induction l with
    | nil => exact fun init => Nat.le_refl init
    | cons m l ih => exact fun init => (Nat.le_max_left init m).trans (ih _)
  induction l generalizing init with
  | nil => cases h
  | cons m l ih =>
    rcases List.mem_cons.1 h with rfl | h
    · exact (Nat.le_max_right init n).trans (hinit l _)
    · exact ih h _

/-- Where all items have a numeral, the widest label decides on the width of all. -/
theorem Sequence.isLabel_labels {s : Sequence} (bracket : Bracket) {start count : Nat}
    (hbound : start + count < UInt64.size)
    (h : ∀ n ∈ List.range' start count, (s.numeral? n).isSome) :
    ∃ width, List.Forall₂ (IsLabel s bracket width) (List.range' start count)
      (s.labels bracket start count) := by
  obtain ⟨width, hwidth⟩ : ∃ width, width = (((s.enumerators start count).map fun numeral =>
      bracket.wrap numeral ++ [' ']).map List.length).foldl max 0 := ⟨_, rfl⟩
  rw [labels, ← hwidth]
  rw [s.enumerators_eq hbound] at hwidth ⊢
  rw [List.map_map, List.map_map]
  refine ⟨width, List.forall₂_map_right_iff.2 (List.forall₂_same.2 fun n hn => ?_)⟩
  obtain ⟨numeral, hnumeral⟩ := Option.isSome_iff_exists.1 (h n hn)
  have hle : (bracket.wrap numeral ++ [' ']).length ≤ width := by
    rw [hwidth, List.map_map, List.map_map]
    refine le_foldl_max (List.mem_map.2 ⟨n, hn, ?_⟩) 0
    simp [hnumeral]
  have hpad : (bracket.wrap numeral ++ [' ']) ++
      spaces (width - (bracket.wrap numeral ++ [' ']).length) =
      bracket.wrap numeral ++ spaces (width - (bracket.wrap numeral).length) := by
    have hgap : width - (bracket.wrap numeral).length =
        width - (bracket.wrap numeral ++ [' ']).length + 1 := by
      rw [List.length_append, List.length_singleton] at hle ⊢
      omega
    rw [List.append_assoc, hgap, spaces, spaces, List.replicate_succ, List.singleton_append]
  rw [List.length_append, List.length_singleton] at hle
  simp only [Function.comp_apply, hnumeral, Option.getD_some, padEnd, hpad]
  refine ⟨?_, numeral, _, hnumeral, Nat.sub_pos_of_lt hle, rfl⟩
  rw [List.length_append, length_spaces]
  omega

theorem Sequence.length_labels (s : Sequence) (bracket : Bracket) {start count : Nat}
    (h : start + count < UInt64.size) : (s.labels bracket start count).length = count := by
  simp [labels, s.enumerators_eq h]

theorem Sequence.closes_of_mem_labels {s : Sequence} {bracket : Bracket} {start count : Nat}
    {label : Text} (h : label ∈ s.labels bracket start count) : ')' ∈ label ∨ '.' ∈ label := by
  obtain ⟨written, hwritten, rfl⟩ := List.mem_map.1 h
  obtain ⟨numeral, -, rfl⟩ := List.mem_map.1 hwritten
  cases bracket <;> simp [Bracket.wrap, padEnd]

/-- Labels are made of letters and digits, their brackets and spaces. -/
theorem Sequence.not_mem_of_mem_labels (s : Sequence) {bracket : Bracket} {start count : Nat}
    {label : Text} {c : Char} (hletter : isLetterOrDigit c = false)
    (hmark : c ∉ ['(', ')', '.', ' ']) (h : label ∈ s.labels bracket start count) : c ∉ label := by
  obtain ⟨written, hwritten, rfl⟩ := List.mem_map.1 h
  obtain ⟨numeral, hnumeral, rfl⟩ := List.mem_map.1 hwritten
  obtain ⟨n, -, rfl⟩ := List.mem_map.1 hnumeral
  have hnumeral : c ∉ (s.numeral? n).getD (Text.ofNat n) := by
    intro hc
    cases hn : s.numeral? n with
    | none =>
      rw [hn] at hc
      rw [isLetterOrDigit, isDigit_of_mem_ofNat hc, Bool.or_true] at hletter
      cases hletter
    | some numeral =>
      rw [hn] at hc
      rw [(isLetterOrDigit_of_numeral? hn).2 c hc] at hletter
      cases hletter
  simp only [List.mem_cons, List.not_mem_nil, or_false, not_or] at hmark
  obtain ⟨hopen, hclose, hperiod, hspace⟩ := hmark
  have hgap : ∀ n, c ∉ spaces n := not_mem_spaces hspace
  cases bracket <;> simp [Bracket.wrap, padEnd, hnumeral, hopen, hclose, hperiod, hspace, hgap]

theorem Bracket.holds_of_isLetterOrDigit {bracket : Bracket} {token : Text}
    (h : ∀ c ∈ token, isLetterOrDigit c = true) : bracket.Holds token := by
  have hne : ∀ d, isLetterOrDigit d = false → d ∉ token := fun d hd hmem =>
    ne_of_class (h d hmem) hd rfl
  have hopen : token.head? ≠ some '(' := fun he =>
    hne '(' (by decide) (List.mem_of_head? he)
  cases bracket with
  | parens => exact hne ')' (by decide)
  | closing | period => exact ⟨hne '.' (by decide), hne ')' (by decide), hopen⟩

namespace IsLabel

variable {s : Sequence} {bracket : Bracket} {width n : Nat} {label : Text}

theorem exists_cons (h : IsLabel s bracket width n label) :
    ∃ c t, label = c :: t ∧ (c = '(' ∨ isLetterOrDigit c = true) := by
  obtain ⟨numeral, gap, hnumeral, -, rfl⟩ := h.written
  obtain ⟨hne, hletters⟩ := Sequence.isLetterOrDigit_of_numeral? hnumeral
  obtain ⟨c, t, rfl⟩ := List.exists_cons_of_ne_nil hne
  cases bracket with
  | parens => exact ⟨'(', _, rfl, Or.inl rfl⟩
  | closing | period => exact ⟨c, _, rfl, Or.inr (hletters c List.mem_cons_self)⟩

/-- The marker of a line that starts with the label has the ordinal of the label. -/
theorem ofLine?_append (h : IsLabel s bracket width n label) {t : Text} (ht : IsSolid t) :
    ∃ numeral, s.numeral? n = some numeral ∧
      Marker.ofLine? (label ++ t) = some ⟨bracket, numeral, width⟩ := by
  have hlength := h.length
  obtain ⟨numeral, gap, hnumeral, hgap, rfl⟩ := h.written
  obtain ⟨hne, hletters⟩ := Sequence.isLetterOrDigit_of_numeral? hnumeral
  refine ⟨numeral, hnumeral, ?_⟩
  have htoken : Marker.isToken numeral = true := by
    have hall : numeral.all isLetterOrDigit = true := List.all_eq_true.2 hletters
    rw [Marker.isToken, hall, List.isEmpty_eq_false_iff.2 hne]
    simp
  have hopen : openStart (spaces gap ++ t) = true := by
    obtain ⟨k, rfl⟩ := Nat.exists_eq_add_one_of_ne_zero (Nat.ne_zero_of_lt hgap)
    rfl
  have htake : (spaces gap ++ t).takeWhile isBlank = spaces gap := by
    obtain ⟨c, u, rfl, hc⟩ := ht.head
    rw [List.takeWhile_append_of_pos (List.all_eq_true.1 (blank_spaces gap)),
      List.takeWhile_cons_of_neg (by simp [hc]), List.append_nil]
  rw [Marker.ofLine?, List.append_assoc,
    Marker.split?_wrap (Bracket.holds_of_isLetterOrDigit hletters)]
  dsimp only
  rw [htoken, hopen, ht.blank_append, htake, utf8Width_spaces]
  rw [List.length_append, length_spaces] at hlength
  simp [hlength]

end IsLabel

end CallDoc
