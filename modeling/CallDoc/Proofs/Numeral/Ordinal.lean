import CallDoc.Proofs.Numeral.Sequence

/-!
The tokens that a sequence reads as an ordinal. Among decimal digits only leading zeros are
without meaning, so that a number has one spelling up to them, and letters have one spelling at
all: what a sequence reads is what it writes. A Roman numeral can be read from the front, group by
group, because no group of letters is a beginning of what the smaller ones write.
-/
namespace CallDoc

open Text

namespace Numeral

theorem digitChar_of_isDigit {c : Char} (h : isDigit c = true) :
    c.toNat - '0'.toNat < 10 ∧ Nat.digitChar (c.toNat - '0'.toNat) = c := by
  have hle (a b : Char) : (a ≤ b) = (a.toNat ≤ b.toNat) := rfl
  have hcodes : '0'.toNat = 48 ∧ '9'.toNat = 57 := by decide
  simp only [isDigit, Bool.and_eq_true, decide_eq_true_eq, hle] at h
  have hlt : c.toNat - '0'.toNat < 10 := by omega
  refine ⟨hlt, Char.toNat_inj.1 ?_⟩
  rw [Nat.toNat_digitChar_of_lt_ten hlt]
  omega

/-- A digit behind a number that has no leading zero. -/
theorem ofNat_append_singleton {n : Nat} (hn : 0 < n) {c : Char} (h : isDigit c = true) :
    ofNat n ++ [c] = ofNat (n * 10 + (c.toNat - '0'.toNat)) := by
  obtain ⟨hlt, hc⟩ := digitChar_of_isDigit h
  have happend := Nat.toDigits_append_toDigits (b := 10) (by decide) hn hlt
  rwa [Nat.toDigits_of_lt_base hlt, hc, Nat.mul_comm] at happend

/-- By induction on the digits, which are read from the front. -/
theorem ofNat_append_digits {n : Nat} (hn : 0 < n) {digits : Text}
    (h : ∀ c ∈ digits, isDigit c = true) :
    ofNat n ++ digits =
      ofNat (digits.foldl (fun n c => n * 10 + (c.toNat - '0'.toNat)) n) := by
  induction digits generalizing n with
  | nil => exact List.append_nil _
  | cons c digits ih =>
    obtain ⟨hc, hmore⟩ := List.forall_mem_cons.1 h
    rw [List.foldl_cons, ← ih (by omega) hmore, ← ofNat_append_singleton hn hc, List.append_assoc,
      List.singleton_append]

theorem ofDigits_zeros_append (zeros : Nat) (digits : Text) :
    ofDigits (List.replicate zeros '0' ++ digits) = ofDigits digits := by
  induction zeros with
  | zero => rfl
  | succ zeros ih => exact ih

/-- Digits are zeros and the decimal of what they denote. -/
theorem exists_zeros_of_digits {digits : Text} (hne : digits ≠ [])
    (h : ∀ c ∈ digits, isDigit c = true) :
    ∃ zeros, digits = List.replicate zeros '0' ++ ofNat (ofDigits digits) := by
  induction digits with
  | nil => exact absurd rfl hne
  | cons c digits ih =>
    obtain ⟨hc, hmore⟩ := List.forall_mem_cons.1 h
    by_cases hzero : c = '0'
    · subst hzero
      have hvalue : ofDigits ('0' :: digits) = ofDigits digits := ofDigits_zeros_append 1 digits
      rw [hvalue]
      cases hdigits : digits with
      | nil => exact ⟨0, rfl⟩
      | cons d more =>
        rw [← hdigits]
        obtain ⟨zeros, hzeros⟩ := ih (by rw [hdigits]; exact List.cons_ne_nil d more) hmore
        refine ⟨zeros + 1, ?_⟩
        rw [List.replicate_succ, List.cons_append, ← hzeros]
    · obtain ⟨hlt, hchar⟩ := digitChar_of_isDigit hc
      have hpos : 0 < c.toNat - '0'.toNat := Nat.pos_of_ne_zero fun hvalue => hzero (by
        rw [hvalue] at hchar
        exact hchar.symm)
      have hfirst : ofNat (c.toNat - '0'.toNat) = [c] := by
        rw [ofNat, Nat.toDigits_of_lt_base hlt, hchar]
      have hvalue : ofDigits (c :: digits) =
          digits.foldl (fun n c => n * 10 + (c.toNat - '0'.toNat)) (c.toNat - '0'.toNat) := by
        rw [ofDigits, List.foldl_cons, Nat.zero_mul, Nat.zero_add]
      have happend := ofNat_append_digits hpos hmore
      rw [hfirst, List.singleton_append, ← hvalue] at happend
      exact ⟨0, happend⟩

/-- A number is read from its decimal with any number of zeros before it, and from nothing
else. -/
theorem natural?_eq_some_iff {t : Text} {n : Nat} :
    natural? t = some n ↔ ∃ zeros, t = List.replicate zeros '0' ++ ofNat n := by
  constructor
  · intro h
    obtain ⟨hdigits, hn⟩ := Option.ite_none_left_eq_some.1 h
    simp only [Bool.or_eq_true, not_or, Bool.not_eq_true', Bool.not_eq_false, List.isEmpty_iff]
      at hdigits
    obtain rfl := Option.some.inj hn
    exact exists_zeros_of_digits hdigits.1 (List.all_eq_true.1 hdigits.2)
  · rintro ⟨zeros, rfl⟩
    have hne : List.replicate zeros '0' ++ ofNat n ≠ [] := fun h =>
      ofNat_ne_nil n (List.append_eq_nil_iff.1 h).2
    have hall : (List.replicate zeros '0' ++ ofNat n).all isDigit = true := by
      rw [List.all_append, all_isDigit_ofNat, Bool.and_true, List.all_eq_true]
      exact fun c hc => List.eq_of_mem_replicate hc ▸ rfl
    rw [natural?, hall, List.isEmpty_eq_false_iff.2 hne, ofDigits_zeros_append, ofDigits_ofNat]
    rfl

end Numeral

namespace Roman

/-- The groups of letters are taken from the front of a text in their order, each as often as it
stands there before the next is tried: they are worth `n`, and `rest` is left. -/
inductive Takes : List (Nat × Text) → Text → (n : Nat) → (rest : Text) → Prop
  | done {t} : Takes [] t 0 t
  | take {value letters more t u n rest} (h : after? letters t = some u)
      (htakes : Takes ((value, letters) :: more) u n rest) :
      Takes ((value, letters) :: more) t (value + n) rest
  | skip {value letters more t n rest} (h : after? letters t = none)
      (htakes : Takes more t n rest) : Takes ((value, letters) :: more) t n rest

/-- A group is no beginning of what later groups write: none of them starts like it, or none has
its last letter. -/
def Distinguished (letters : Text) (more : List (Nat × Text)) : Prop :=
  (∀ g ∈ more, g.2.head? ≠ letters.head?) ∨
    ∃ c ∈ letters, ∀ g ∈ more, c ∉ g.2

instance (letters : Text) (more : List (Nat × Text)) : Decidable (Distinguished letters more) :=
  -- the second half is searched for in the letters, and not among all characters
  @instDecidableOr _ _ inferInstance (List.decidableBEx (fun c => ∀ g ∈ more, c ∉ g.2) letters)

theorem Takes.replicate {value : Nat} {letters : Text} {more : List (Nat × Text)} {t rest : Text}
    {n : Nat} (h : Takes ((value, letters) :: more) t n rest) (k : Nat) :
    Takes ((value, letters) :: more) ((List.replicate k letters).flatten ++ t) (k * value + n)
      rest := by
  induction k with
  | zero => simpa using h
  | succ k ih =>
    have hvalue : (k + 1) * value + n = value + (k * value + n) := by
      rw [Nat.succ_mul]
      omega
    rw [List.replicate_succ, List.flatten_cons, List.append_assoc, hvalue]
    exact .take (after?_eq_some_iff.2 rfl) ih

/-- The first letter of a numeral is that of one of its groups. -/
theorem exists_head?_of_write {gs : List (Nat × Text)} (hgs : ∀ g ∈ gs, g.2 ≠ []) {n : Nat}
    {c : Char} (h : (write gs n).head? = some c) : ∃ g ∈ gs, g.2.head? = some c := by
  induction gs generalizing n with
  | nil => cases h
  | cons g gs ih =>
    obtain ⟨value, letters⟩ := g
    obtain ⟨hne, hmore⟩ := List.forall_mem_cons.1 hgs
    obtain ⟨d, u, hletters⟩ := List.exists_cons_of_ne_nil hne
    dsimp only at hletters
    rw [write] at h
    cases hk : n / value with
    | zero =>
      rw [hk] at h
      obtain ⟨g, hg, hc⟩ := ih hmore h
      exact ⟨g, .tail _ hg, hc⟩
    | succ k =>
      rw [hk, List.replicate_succ, List.flatten_cons, hletters] at h
      exact ⟨_, List.mem_cons_self, by rw [hletters]; exact h⟩

theorem Distinguished.after?_eq_none {letters : Text} {more : List (Nat × Text)}
    (h : Distinguished letters more) (hmore : ∀ g ∈ more, g.2 ≠ []) (hne : letters ≠ []) (n : Nat) :
    after? letters (write more n) = none := by
  rw [Option.eq_none_iff_forall_ne_some]
  intro u hu
  have hwrite := after?_eq_some_iff.1 hu
  rcases h with h | ⟨c, hc, h⟩
  · obtain ⟨c, v, rfl⟩ := List.exists_cons_of_ne_nil hne
    obtain ⟨g, hg, hhead⟩ := exists_head?_of_write hmore (n := n) (c := c) (by rw [hwrite]; rfl)
    exact h g hg hhead
  · have hwritten : c ∈ write more n := by
      rw [hwrite]
      exact List.mem_append_left u hc
    obtain ⟨g, hg, hmem⟩ := mem_write hwritten
    exact h g hg hmem

/-- Each group of the list is no beginning of what the groups behind it write. -/
def AreDistinguished : List (Nat × Text) → Prop
  | [] => True
  | g :: more => (g.2 ≠ [] ∧ Distinguished g.2 more) ∧ AreDistinguished more

theorem AreDistinguished.ne_nil {gs : List (Nat × Text)} (h : AreDistinguished gs) :
    ∀ g ∈ gs, g.2 ≠ [] := by
  induction gs with
  | nil => exact List.forall_mem_nil _
  | cons g gs ih => exact List.forall_mem_cons.2 ⟨h.1.1, ih h.2⟩

instance decidableAreDistinguished : (gs : List (Nat × Text)) → Decidable (AreDistinguished gs)
  | [] => inferInstanceAs (Decidable True)
  | g :: more =>
    have := decidableAreDistinguished more
    inferInstanceAs (Decidable ((g.2 ≠ [] ∧ Distinguished g.2 more) ∧ AreDistinguished more))

theorem areDistinguished_groups : AreDistinguished groups := by decide

/-- By induction on the groups: as many are taken as were written, and what the groups behind them
have written does not begin with another one. -/
theorem exists_takes_write {gs : List (Nat × Text)} (h : AreDistinguished gs) (n : Nat) :
    ∃ m, Takes gs (write gs n) m [] ∧ m + gs.foldl (fun n g => n % g.1) n = n := by
  induction gs generalizing n with
  | nil => exact ⟨0, .done, Nat.zero_add n⟩
  | cons g gs ih =>
    obtain ⟨value, letters⟩ := g
    obtain ⟨⟨hne, hletters⟩, hmore⟩ := h
    obtain ⟨m, htakes, hm⟩ := ih hmore (n % value)
    have hnone := hletters.after?_eq_none hmore.ne_nil hne (n % value)
    refine ⟨n / value * value + m, (Takes.skip hnone htakes).replicate (n / value), ?_⟩
    have hdiv := Nat.div_add_mod' n value
    rw [List.foldl_cons]
    dsimp only
    omega

/-- Taking the groups from the front and writing their sum anew accepts the same numerals. -/
theorem value?_eq_some_iff_takes {t : Text} {n : Nat} :
    value? t = some n ↔ Takes groups t n [] ∧ numeral? n = some t := by
  constructor
  · intro h
    have hnumeral := numeral?_value h
    obtain rfl := Option.some.inj (Option.ite_none_right_eq_some.1 hnumeral).2
    obtain ⟨m, htakes, hm⟩ := exists_takes_write areDistinguished_groups n
    rw [foldl_mod_groups, Nat.add_zero] at hm
    exact ⟨hm ▸ htakes, hnumeral⟩
  · exact fun h => value?_numeral h.2

end Roman

namespace Sequence

theorem ordinal?_arabic_eq_some_iff {t : Text} {n : Nat} :
    arabic.ordinal? t = some n ↔
      n < UInt64.size ∧ ∃ zeros, t = List.replicate zeros '0' ++ Text.ofNat n := by
  rw [ordinal?, Option.filter_eq_some_iff, Numeral.natural?_eq_some_iff, decide_eq_true_eq]
  exact and_comm

/-- Letters do not count far. -/
theorem lt_of_numeral? {s : Sequence} (hs : s ≠ .arabic) {n : Nat} {t : Text}
    (h : s.numeral? n = some t) : n < 5000 := by
  have hletter {first : Char} (h : letter? first n = some t) : n < 5000 := by
    have := (Option.ite_none_right_eq_some.1 h).1
    omega
  have hroman {capitals : Text} (h : Roman.numeral? n = some capitals) : n < 5000 := by
    have := (Option.ite_none_right_eq_some.1 h).1
    omega
  cases s with
  | arabic => exact absurd rfl hs
  | lowerAlpha | upperAlpha => exact hletter h
  | lowerRoman =>
    obtain ⟨capitals, hcapitals, -⟩ := Option.map_eq_some_iff.1 h
    exact hroman hcapitals
  | upperRoman => exact hroman h

/-- A sequence reads back the numerals that it writes. Sequences of letters read nothing else, and
arabic numbers are read with zeros before them as well. -/
theorem ordinal?_inverse (s : Sequence) (n : Nat) (t : Text) :
    ((s = .arabic → n < UInt64.size) → s.numeral? n = some t → s.ordinal? t = some n) ∧
      (s ≠ .arabic → s.ordinal? t = some n → s.numeral? n = some t) ∧
      (arabic.ordinal? t = some n ↔
        n < UInt64.size ∧ ∃ zeros, t = List.replicate zeros '0' ++ Text.ofNat n) := by
  refine ⟨fun hbound h => ordinal?_numeral ?_ h, fun hs => numeral?_ordinal hs,
    ordinal?_arabic_eq_some_iff⟩
  by_cases hs : s = .arabic
  · exact hbound hs
  · exact Nat.lt_trans (lt_of_numeral? hs h) (by decide)

/-- A small Roman numeral, and an arabic number with zeros before it. -/
theorem ordinal?_inverse_roman :
    (lowerRoman ≠ .arabic ∧ lowerRoman.numeral? 1994 = some "mcmxciv".toList) ∧
      lowerRoman.ordinal? "mcmxciv".toList = some 1994 ∧
      lowerRoman.ordinal? "iiii".toList ≠ some 4 ∧
      arabic.ordinal? "007".toList = some 7 := by
  have hnumeral : lowerRoman.numeral? 1994 = some "mcmxciv".toList := by decide
  have hfour : lowerRoman.numeral? 4 ≠ some "iiii".toList := by decide
  refine ⟨⟨nofun, hnumeral⟩, (ordinal?_inverse _ _ _).1 nofun hnumeral, fun h => ?_, ?_⟩
  · exact hfour ((ordinal?_inverse _ _ _).2.1 nofun h)
  · exact (ordinal?_inverse .arabic _ _).2.2.2 ⟨by decide, 2, rfl⟩

end Sequence
end CallDoc
