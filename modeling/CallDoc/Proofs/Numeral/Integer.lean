import CallDoc.Numeral.Integer
import CallDoc.Proofs.Text.Prose

/-!
Decimal integers read back as they were written: a natural number from its digits, and an
integer of 64 bits from its digits and sign.
-/
namespace CallDoc

namespace Text

theorem isDigit_of_mem_ofNat {n : Nat} {c : Char} (h : c ∈ ofNat n) : isDigit c = true :=
  Nat.isDigit_of_mem_toDigits (by decide) (by decide) h

theorem all_isDigit_ofNat (n : Nat) : (ofNat n).all isDigit = true := by
  rw [List.all_eq_true]
  exact fun c => isDigit_of_mem_ofNat

theorem ofNat_ne_nil (n : Nat) : ofNat n ≠ [] := Nat.toDigits_ne_nil

theorem exists_ofNat_eq_cons (n : Nat) : ∃ c t, ofNat n = c :: t ∧ isDigit c = true := by
  obtain ⟨c, t, h⟩ := List.exists_cons_of_ne_nil (ofNat_ne_nil n)
  exact ⟨c, t, h, isDigit_of_mem_ofNat (n := n) (by simp [h])⟩

end Text

namespace Numeral

open Text

theorem ofDigits_ofNat (n : Nat) : ofDigits (ofNat n) = n := by
  have h : Nat.ofDigitChars 10 (ofNat n) 0 = n := Nat.ofDigitChars_ten_toDigits
  rw [Nat.ofDigitChars] at h
  simpa only [ofDigits, Nat.mul_comm] using h

theorem natural?_ofNat (n : Nat) : natural? (ofNat n) = some n := by
  rw [natural?, all_isDigit_ofNat, List.isEmpty_eq_false_iff.2 (ofNat_ne_nil n), ofDigits_ofNat]
  rfl

/-- Digits carry no sign. -/
theorem splitSign_ofNat (n : Nat) : splitSign (ofNat n) = (false, ofNat n) := by
  have hdigit : ∀ c ∈ ofNat n, isDigit c = true := fun c => isDigit_of_mem_ofNat
  unfold splitSign
  split
  · rename_i t ht
    rw [ht] at hdigit
    exact absurd (hdigit '-' List.mem_cons_self) (by decide)
  · rename_i t ht
    rw [ht] at hdigit
    exact absurd (hdigit '+' List.mem_cons_self) (by decide)
  · rfl

/-- The magnitude is read first, and then the sign in front of it. -/
theorem int64?_ofInt {i : Int} (hlow : -0x8000000000000000 ≤ i) (hhigh : i < 0x8000000000000000) :
    int64? (ofInt i) = some i := by
  have hsplit : splitSign (ofInt i) = (decide (i < 0), ofNat i.natAbs) := by
    cases i with
    | ofNat n => simp [ofInt, splitSign_ofNat, Int.not_lt.2 (Int.natCast_nonneg n)]
    | negSucc n => simp [ofInt, splitSign, Int.negSucc_lt_zero]
  have hvalue : (if decide (i < 0) = true then -(i.natAbs : Int) else i.natAbs) = i := by
    simp only [decide_eq_true_eq]
    split <;> omega
  rw [int64?, hsplit]
  simp only [natural?_ofNat, Option.bind_some]
  rw [hvalue, if_pos ⟨hlow, hhigh⟩]

theorem int64?_bounds {t : Text} {n : Int} (h : int64? t = some n) :
    -0x8000000000000000 ≤ n ∧ n < 0x8000000000000000 := by
  obtain ⟨digits, -, hvalue⟩ := Option.bind_eq_some_iff.1 h
  obtain ⟨hbounds, hn⟩ := Option.ite_none_right_eq_some.1 hvalue
  exact Option.some.inj hn ▸ hbounds

end Numeral
end CallDoc
