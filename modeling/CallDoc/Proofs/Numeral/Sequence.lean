import CallDoc.Numeral.Marker
import CallDoc.Proofs.Numeral.Integer
import CallDoc.Proofs.Numeral.Roman

/-!
The numerals of every sequence read back as their ordinals, and are made of letters and
digits alone. What a sequence reads as an ordinal has a numeral in it.
-/
namespace CallDoc.Sequence

open Text

theorem place?_letter (first : Char) (hfirst : first = 'a' ∨ first = 'A') :
    ∀ n ∈ List.range' 1 26, place? first [Char.ofNat (first.toNat + (n - 1))] = some n ∧
      isLetterOrDigit (Char.ofNat (first.toNat + (n - 1))) = true := by
  rcases hfirst with rfl | rfl <;> decide

theorem letter?_eq_some {first : Char} (hfirst : first = 'a' ∨ first = 'A') {n : Nat}
    {numeral : Text} (h : letter? first n = some numeral) :
    place? first numeral = some n ∧ numeral ≠ [] ∧ ∀ c ∈ numeral, isLetterOrDigit c = true := by
  rw [letter?] at h
  split at h
  · rename_i hn
    obtain rfl := Option.some.inj h
    obtain ⟨hplace, hletter⟩ := place?_letter first hfirst n (List.mem_range'_1.2 (by omega))
    exact ⟨hplace, List.cons_ne_nil _ _, by simpa using hletter⟩
  · cases h

/-- A numeral in capitals comes back from its small letters. -/
theorem map_asciiCapital_asciiSmall {numeral : Text}
    (h : ∀ c ∈ numeral, c ∈ "IVXLCDM".toList) :
    (numeral.map asciiSmall).map asciiCapital = numeral ∧
      (numeral.map asciiSmall).all isLower = true := by
  have hletters : ∀ c ∈ "IVXLCDM".toList,
      asciiCapital (asciiSmall c) = c ∧ isLower (asciiSmall c) = true :=
    forall_mem_of_all (by decide)
  constructor
  · rw [List.map_map]
    exact (List.map_congr_left fun c hc => (hletters c (h c hc)).1).trans (List.map_id numeral)
  · rw [List.all_map, List.all_eq_true]
    exact fun c hc => (hletters c (h c hc)).2

/-- Arabic ordinals are numbers of 64 bits, and every other sequence ends long before. -/
theorem ordinal?_numeral {s : Sequence} {n : Nat} (hbound : n < UInt64.size) {numeral : Text}
    (h : s.numeral? n = some numeral) : s.ordinal? numeral = some n := by
  cases s with
  | arabic =>
    obtain rfl := Option.some.inj h
    rw [ordinal?, Numeral.natural?_ofNat]
    simp [Option.filter, hbound]
  | lowerAlpha => exact (letter?_eq_some (Or.inl rfl) h).1
  | upperAlpha => exact (letter?_eq_some (Or.inr rfl) h).1
  | lowerRoman =>
    obtain ⟨capitals, hcapitals, rfl⟩ := Option.map_eq_some_iff.1 h
    obtain ⟨hback, hlower⟩ :=
      map_asciiCapital_asciiSmall fun c => Roman.mem_letters_of_mem_numeral? hcapitals
    rw [ordinal?, if_pos hlower, hback, Roman.value?_numeral hcapitals]
  | upperRoman => exact Roman.value?_numeral h

theorem letter?_place {first : Char} {t : Text} {n : Nat} (h : place? first t = some n) :
    letter? first n = some t := by
  unfold place? at h
  split at h
  · rename_i c
    obtain ⟨⟨hfirst, hlast⟩, hn⟩ := Option.ite_none_right_eq_some.1 h
    obtain rfl := Option.some.inj hn
    have hle : first.toNat ≤ c.toNat := hfirst
    have hplace : first.toNat + (c.toNat - first.toNat + 1 - 1) = c.toNat := by omega
    rw [letter?, if_pos (by omega), hplace, Char.ofNat_toNat]
  · cases h

/-- A small letter comes back from its capital. -/
theorem asciiSmall_asciiCapital {c : Char} (h : isLower c = true) :
    asciiSmall (asciiCapital c) = c := by
  have hle (a b : Char) : (a ≤ b) = (a.toNat ≤ b.toNat) := rfl
  have hcodes : 'a'.toNat = 97 ∧ 'z'.toNat = 122 := by decide
  have hletters : ∀ n ∈ List.range' 97 26,
      asciiSmall (asciiCapital (Char.ofNat n)) = Char.ofNat n := by decide
  simp only [isLower, Bool.and_eq_true, decide_eq_true_eq, hle] at h
  have hback := hletters c.toNat (List.mem_range'_1.2 (by omega))
  rwa [Char.ofNat_toNat] at hback

/-- Only arabic numerals have several spellings, with zeros in front. -/
theorem numeral?_ordinal {s : Sequence} (hs : s ≠ .arabic) {t : Text} {n : Nat}
    (h : s.ordinal? t = some n) : s.numeral? n = some t := by
  cases s with
  | arabic => exact absurd rfl hs
  | lowerAlpha => exact letter?_place h
  | upperAlpha => exact letter?_place h
  | lowerRoman =>
    obtain ⟨hlower, hvalue⟩ := Option.ite_none_right_eq_some.1 h
    have hback : (t.map asciiCapital).map asciiSmall = t := by
      rw [List.map_map]
      exact (List.map_congr_left fun c hc =>
        asciiSmall_asciiCapital (List.all_eq_true.1 hlower c hc)).trans (List.map_id t)
    rw [numeral?, Roman.numeral?_value hvalue, Option.map_some, hback]
  | upperRoman => exact Roman.numeral?_value h

theorem isSome_numeral?_of_ordinal? {s : Sequence} {t : Text} {n : Nat}
    (h : s.ordinal? t = some n) : (s.numeral? n).isSome = true := by
  by_cases hs : s = .arabic
  · rw [hs]
    rfl
  · rw [numeral?_ordinal hs h]
    rfl

theorem isLetterOrDigit_of_numeral? {s : Sequence} {n : Nat} {numeral : Text}
    (h : s.numeral? n = some numeral) :
    numeral ≠ [] ∧ ∀ c ∈ numeral, isLetterOrDigit c = true := by
  cases s with
  | arabic =>
    obtain rfl := Option.some.inj h
    refine ⟨ofNat_ne_nil n, fun c hc => ?_⟩
    rw [isLetterOrDigit, isDigit_of_mem_ofNat hc, Bool.or_true]
  | lowerAlpha => exact (letter?_eq_some (Or.inl rfl) h).2
  | upperAlpha => exact (letter?_eq_some (Or.inr rfl) h).2
  | lowerRoman =>
    obtain ⟨capitals, hcapitals, rfl⟩ := Option.map_eq_some_iff.1 h
    have hletters : ∀ c ∈ "IVXLCDM".toList, isLetterOrDigit (asciiSmall c) = true :=
      forall_mem_of_all (by decide)
    refine ⟨by simpa using Roman.ne_nil_of_numeral? hcapitals, fun c hc => ?_⟩
    obtain ⟨d, hd, rfl⟩ := List.mem_map.1 hc
    exact hletters d (Roman.mem_letters_of_mem_numeral? hcapitals hd)
  | upperRoman =>
    have hletters : ∀ c ∈ "IVXLCDM".toList, isLetterOrDigit c = true :=
      forall_mem_of_all (by decide)
    exact ⟨Roman.ne_nil_of_numeral? h, fun c hc =>
      hletters c (Roman.mem_letters_of_mem_numeral? h hc)⟩

end CallDoc.Sequence
