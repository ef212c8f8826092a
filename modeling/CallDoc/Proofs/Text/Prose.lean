import Mathlib.Data.List.DropRight
import CallDoc.Text.Lines
import CallDoc.Text.Numeric

/-!
Plain prose: letters, digits and other numbers of any script, commas and square brackets,
with spaces between words. No such character is a blank, and no markup starts or ends with
one.
-/
namespace CallDoc.Text

/-- A property of all characters of a text that is written out can be computed. -/
theorem forall_mem_of_all {t : Text} {p : Char → Prop} [DecidablePred p]
    (h : t.all (fun c => p c) = true) : ∀ c ∈ t, p c := fun c hc =>
  of_decide_eq_true (List.all_eq_true.1 h c hc)

theorem after?_cons_of_ne {a c : Char} (h : c ≠ a) (lead t : Text) :
    after? (a :: lead) (c :: t) = none := if_neg fun he => h he.symm

/-- Characters that a class tells apart. -/
theorem ne_of_class {p : Char → Bool} {c d : Char} (hc : p c = true) (hd : p d = false) :
    c ≠ d := by
  rintro rfl
  rw [hc] at hd
  cases hd

theorem trimStart_cons {c : Char} (hc : isBlank c = false) (t : Text) :
    trimStart (c :: t) = c :: t := List.dropWhile_cons_of_neg (by simp [hc])

/-- What follows a run is no part of it when it starts otherwise. -/
theorem span_append_of_head? {α : Type} {p : α → Bool} {m : List α}
    (hm : ∀ a, m.head? = some a → p a = false) (l : List α) :
    (l ++ m).takeWhile p = l.takeWhile p ∧ (l ++ m).dropWhile p = l.dropWhile p ++ m := by
  induction l with
  | nil =>
    cases m with
    | nil => exact ⟨rfl, rfl⟩
    | cons a m => simp [hm a rfl]
  | cons a l ih => cases ha : p a <;> simp [ha, ih]

/-! ## Cutting at a character -/

theorem splitFirst?_append {sep : Char} {before : Text} (h : sep ∉ before) (after : Text) :
    splitFirst? sep (before ++ sep :: after) = some (before, after) := by
  induction before with
  | nil => rw [List.nil_append, splitFirst?, if_pos rfl]
  | cons c before ih =>
    rw [List.mem_cons, not_or] at h
    rw [List.cons_append, splitFirst?, if_neg fun he => h.1 he.symm, ih h.2]
    rfl

theorem splitFirst?_of_not_mem {sep : Char} {t : Text} (h : sep ∉ t) :
    splitFirst? sep t = none := by
  induction t with
  | nil => rfl
  | cons c t ih =>
    rw [List.mem_cons, not_or] at h
    rw [splitFirst?, if_neg fun he => h.1 he.symm, ih h.2]
    rfl

theorem not_mem_of_splitFirst? {sep : Char} {t before after : Text}
    (h : splitFirst? sep t = some (before, after)) : sep ∉ before := by
  induction t generalizing before with
  | nil => cases h
  | cons c t ih =>
    rw [splitFirst?] at h
    split at h
    · obtain ⟨rfl, -⟩ := Prod.mk.inj (Option.some.inj h)
      exact List.not_mem_nil
    · rename_i hc
      obtain ⟨⟨u, v⟩, hu, he⟩ := Option.map_eq_some_iff.1 h
      obtain ⟨rfl, rfl⟩ := Prod.mk.inj he
      exact fun hmem => (List.mem_cons.1 hmem).elim (fun heq => hc heq.symm) (ih hu)

theorem splitLast?_eq {sep : Char} {t before after : Text}
    (h : splitLast? sep t = some (before, after)) : t = before ++ sep :: after := by
  obtain ⟨⟨u, v⟩, hu, he⟩ := Option.map_eq_some_iff.1 h
  obtain ⟨rfl, rfl⟩ := Prod.mk.inj he
  have hreverse := congrArg List.reverse (splitFirst?_eq hu)
  simpa using hreverse

theorem splitLast?_append {sep : Char} {after : Text} (h : sep ∉ after) (before : Text) :
    splitLast? sep (before ++ sep :: after) = some (before, after) := by
  have hreverse : (before ++ sep :: after).reverse = after.reverse ++ sep :: before.reverse := by
    simp
  rw [splitLast?, hreverse, splitFirst?_append (by simpa using h)]
  simp

/-! ## Cutting off ends -/

theorem foldr_dropEnd {α : Type} (p : α → Bool) (l : List α) {m : List α} (hm : m ≠ []) :
    l.foldr (fun a rest => if rest.isEmpty && p a then [] else a :: rest) m = l ++ m := by
  induction l with
  | nil => rfl
  | cons a l ih =>
    rw [List.foldr_cons, ih]
    have hne : (l ++ m).isEmpty = false := by cases l <;> simp [hm]
    rw [hne]
    rfl

theorem dropEndWhile_eq {α : Type} (p : α → Bool) (l : List α) :
    dropEndWhile p l = l.rdropWhile p := by
  induction l using List.reverseRecOn with
  | nil => rfl
  | append_singleton l a ih =>
    rw [List.rdropWhile_concat, dropEndWhile, List.foldr_append]
    cases ha : p a with
    | true =>
      rw [if_pos rfl, ← ih]
      simp [dropEndWhile, ha]
    | false =>
      rw [if_neg (by simp), ← foldr_dropEnd p l (List.cons_ne_nil a [])]
      simp [ha]

theorem dropEndWhile_eq_self {α : Type} {p : α → Bool} {l : List α}
    (h : ∀ a, l.getLast? = some a → p a = false) : dropEndWhile p l = l := by
  rw [dropEndWhile_eq, List.rdropWhile_eq_self_iff]
  intro hne
  rw [h _ (List.getLast?_eq_some_getLast hne)]
  simp

/-- An ending of which every part is dropped leaves what ends otherwise. -/
theorem dropEndWhile_append {α : Type} {p : α → Bool} {l m : List α} (hm : ∀ a ∈ m, p a = true) :
    dropEndWhile p (l ++ m) = dropEndWhile p l := by
  induction m using List.reverseRecOn with
  | nil => rw [List.append_nil]
  | append_singleton m a ih =>
    rw [← List.append_assoc, dropEndWhile_eq, List.rdropWhile_concat_pos p _ _ (hm a (by simp)),
      ← dropEndWhile_eq]
    exact ih fun b hb => hm b (List.mem_append_left _ hb)

theorem dropEndWhile_cons {α : Type} (p : α → Bool) (a : α) (l : List α) :
    dropEndWhile p (a :: l) =
      if (dropEndWhile p l).isEmpty && p a then [] else a :: dropEndWhile p l := rfl

theorem dropEndWhile_map {α β : Type} (p : β → Bool) (f : α → β) (l : List α) :
    dropEndWhile p (l.map f) = (dropEndWhile (fun a => p (f a)) l).map f := by
  induction l with
  | nil => rfl
  | cons a l ih =>
    rw [List.map_cons, dropEndWhile_cons, ih, dropEndWhile_cons, List.isEmpty_map]
    split <;> rfl

theorem dropEndWhile_congr {α : Type} {p q : α → Bool} {l : List α}
    (h : ∀ a ∈ l, p a = q a) : dropEndWhile p l = dropEndWhile q l := by
  induction l with
  | nil => rfl
  | cons a l ih =>
    obtain ⟨ha, hl⟩ := List.forall_mem_cons.1 h
    rw [dropEndWhile_cons, dropEndWhile_cons, ih hl, ha]

theorem dropWhile_congr {α : Type} {p q : α → Bool} {l : List α} (h : ∀ a ∈ l, p a = q a) :
    l.dropWhile p = l.dropWhile q := by
  induction l with
  | nil => rfl
  | cons a l ih =>
    obtain ⟨ha, hl⟩ := List.forall_mem_cons.1 h
    rw [List.dropWhile_cons, List.dropWhile_cons, ih hl, ha]

/-- What stands in front of an ending that is not dropped stays. -/
theorem dropEndWhile_append_of_ne_nil {α : Type} {p : α → Bool} {m : List α}
    (hm : dropEndWhile p m ≠ []) (l : List α) :
    dropEndWhile p (l ++ m) = l ++ dropEndWhile p m := by
  rw [dropEndWhile, List.foldr_append]
  exact foldr_dropEnd p l hm

theorem dropEndWhile_cons_of_neg {α : Type} {p : α → Bool} {a : α} (ha : p a = false)
    (l : List α) : dropEndWhile p (a :: l) = a :: dropEndWhile p l := by
  rw [dropEndWhile_cons, ha, Bool.and_false, if_neg Bool.false_ne_true]

/-- The dropped ending holds nothing but what is to be dropped. -/
theorem exists_append_dropEndWhile {α : Type} (p : α → Bool) (l : List α) :
    ∃ m, l = dropEndWhile p l ++ m ∧ ∀ a ∈ m, p a = true := by
  refine ⟨l.rtakeWhile p, ?_, fun a => List.mem_rtakeWhile_imp⟩
  rw [dropEndWhile_eq, List.rdropWhile_append_rtakeWhile]

theorem prefix_dropEndWhile {α : Type} (p : α → Bool) (l : List α) : dropEndWhile p l <+: l := by
  rw [dropEndWhile_eq]
  exact l.rdropWhile_prefix p

theorem infix_trim (t : Text) : trim t <:+: t :=
  (List.dropWhile_suffix _).isInfix.trans (prefix_dropEndWhile _ t).isInfix

theorem of_dropWhile_eq_cons {α : Type} {p : α → Bool} {l rest : List α} {a : α}
    (h : l.dropWhile p = a :: rest) : p a = false := by
  have hnot := List.head?_dropWhile_not p l
  rw [h] at hnot
  exact hnot

theorem of_getLast?_dropEndWhile {α : Type} {p : α → Bool} {l : List α} {a : α}
    (h : (dropEndWhile p l).getLast? = some a) : p a = false := by
  rw [dropEndWhile_eq] at h
  have hne : l.rdropWhile p ≠ [] := fun he => by rw [he] at h; cases h
  rw [List.getLast?_eq_some_getLast hne] at h
  exact Bool.eq_false_iff.2 (Option.some.inj h ▸ List.rdropWhile_last_not p l hne)

theorem trimEnd_eq_self {t : Text} (h : ∀ c, t.getLast? = some c → isBlank c = false) :
    trimEnd t = t := dropEndWhile_eq_self h

/-- A text with something else than a blank at either end. -/
structure IsSolid (t : Text) : Prop where
  head : ∃ c u, t = c :: u ∧ isBlank c = false
  last : ∃ u c, t = u ++ [c] ∧ isBlank c = false

theorem IsSolid.ne_nil {t : Text} (h : IsSolid t) : t ≠ [] := by
  obtain ⟨c, u, rfl, -⟩ := h.head
  exact List.cons_ne_nil c u

theorem IsSolid.of_append {a b c : Text} (ha : IsSolid a) (hc : IsSolid c) :
    IsSolid (a ++ b ++ c) := by
  obtain ⟨x, u, rfl, hx⟩ := ha.head
  obtain ⟨v, y, rfl, hy⟩ := hc.last
  exact ⟨⟨x, u ++ b ++ (v ++ [y]), rfl, hx⟩,
    ⟨x :: u ++ b ++ v, y, by rw [List.append_assoc _ v [y]], hy⟩⟩

theorem IsSolid.blank_last {t : Text} (h : IsSolid t) (lead : Text) :
    ∀ c, (lead ++ t).getLast? = some c → isBlank c = false := by
  obtain ⟨u, c, rfl, hc⟩ := h.last
  intro d hd
  rw [← List.append_assoc, List.getLast?_concat] at hd
  exact Option.some.inj hd ▸ hc

theorem IsSolid.trimEnd_append {t : Text} (h : IsSolid t) (lead : Text) :
    trimEnd (lead ++ t) = lead ++ t := trimEnd_eq_self (h.blank_last lead)

theorem IsSolid.trimStart_append {t : Text} (h : IsSolid t) (lead : Text)
    (hlead : blank lead = true) : trimStart (lead ++ t) = t := by
  obtain ⟨c, u, rfl, hc⟩ := h.head
  rw [trimStart, List.dropWhile_append_of_pos (List.all_eq_true.1 hlead)]
  exact trimStart_cons hc u

theorem IsSolid.trim_append {t : Text} (h : IsSolid t) (lead : Text) (hlead : blank lead = true) :
    trim (lead ++ t) = t := by
  rw [trim, h.trimEnd_append, h.trimStart_append lead hlead]

theorem IsSolid.trim {t : Text} (h : IsSolid t) : trim t = t := h.trim_append [] rfl

theorem IsSolid.trimEnd {t : Text} (h : IsSolid t) : trimEnd t = t := h.trimEnd_append []

theorem IsSolid.blank_append {t : Text} (h : IsSolid t) (lead : Text) :
    blank (lead ++ t) = false := by
  obtain ⟨c, u, rfl, hc⟩ := h.head
  rw [blank, List.all_append, List.all_cons, hc, Bool.false_and, Bool.and_false]

theorem IsSolid.blank {t : Text} (h : IsSolid t) : blank t = false := h.blank_append []

theorem IsSolid.stripWhere_newline {t : Text} (h : IsSolid t) {gap : Text}
    (hgap : ∀ c ∈ gap, (c == '\n') = true) : stripWhere (· == '\n') (t ++ gap) = t := by
  have hnewline {c : Char} (hc : isBlank c = false) : (c == '\n') = false :=
    beq_eq_false_iff_ne.2 fun he => by rw [he] at hc; cases hc
  have hlast : ∀ c, t.getLast? = some c → (c == '\n') = false := fun c hc =>
    hnewline (h.blank_last [] c hc)
  rw [stripWhere, dropEndWhile_append hgap, dropEndWhile_eq_self hlast]
  obtain ⟨c, u, rfl, hc⟩ := h.head
  exact List.dropWhile_cons_of_neg (by simp [hnewline hc])

/-! ## Indents -/

theorem length_spaces (n : Nat) : (spaces n).length = n := List.length_replicate ..

theorem blank_spaces (n : Nat) : blank (spaces n) = true := by
  rw [blank, List.all_eq_true]
  intro c hc
  rw [List.eq_of_mem_replicate hc]
  rfl

theorem indent_append {lead : Text} (hlead : blank lead = true) (t : Text) :
    indent (lead ++ t) = lead.length + indent t := by
  rw [indent, List.takeWhile_append_of_pos (List.all_eq_true.1 hlead), List.length_append, indent]

theorem indent_cons_of_not_isBlank {c : Char} (hc : isBlank c = false) (t : Text) :
    indent (c :: t) = 0 := by
  rw [indent, List.takeWhile_cons_of_neg (by simp [hc]), List.length_nil]

theorem IsSolid.indent {t : Text} (h : IsSolid t) (n : Nat) : indent (spaces n ++ t) = n := by
  obtain ⟨c, u, rfl, hc⟩ := h.head
  rw [indent_append (blank_spaces n), indent_cons_of_not_isBlank hc, length_spaces, Nat.add_zero]

theorem IsSolid.isIndented {t : Text} (h : IsSolid t) (m n : Nat) :
    isIndented m (spaces n ++ t) = decide (m ≤ n) := by
  obtain ⟨c, u, rfl, hc⟩ := h.head
  by_cases h : m ≤ n
  · have htake : (spaces n ++ c :: u).take m = spaces m := by
      rw [List.take_append_of_le_length (by simpa [spaces] using h), spaces, List.take_replicate,
        Nat.min_eq_left h, spaces]
    have hlen : m < (spaces n ++ c :: u).length := by simp [spaces]; omega
    rw [Text.isIndented, htake, decide_eq_true h, decide_eq_true hlen, ← Text.blank, blank_spaces]
    rfl
  · have hmem : c ∈ (spaces n ++ c :: u).take m := by
      rw [List.take_append, List.take_of_length_le (by simp [spaces]; omega)]
      obtain ⟨k, hk⟩ : ∃ k, m - (spaces n).length = k + 1 := ⟨m - n - 1, by simp [spaces]; omega⟩
      rw [hk, List.take_succ_cons]
      simp
    have hall : ((spaces n ++ c :: u).take m).all isBlank = false := by
      rw [List.all_eq_false]
      exact ⟨c, hmem, by simp [hc]⟩
    rw [Text.isIndented, hall, decide_eq_false h]
    rfl

/-! ## Characters of prose -/

def isProseCharacter (c : Char) : Bool :=
  isAlphanumeric c || c == ',' || c == '[' || c == ']'

/-- Blanks, and all that markup is made of. -/
def isMark (c : Char) : Bool := isBlank c || "\\\x60*_.:()<>+-=~^#\x27\x22\r".toList.contains c

theorem isMark_of_isBlank {c : Char} (h : isBlank c = true) : isMark c = true := by
  rw [isMark, h, Bool.true_or]

theorem isBlank_of_not_isMark {c : Char} (h : isMark c = false) : isBlank c = false :=
  (Bool.or_eq_false_iff.1 h).1

/-- Stretches of code points that hold every blank, and no letter or number above ASCII. -/
def gaps : List (Nat × Nat) :=
  [(0, 0xA9), (0x1680, 0x1680), (0x2000, 0x202F), (0x205F, 0x205F), (0x3000, 0x3000)]

theorem inRanges_of_gap {ranges : List (Nat × Nat)} {n : Nat}
    (hranges : ∀ range ∈ ranges, ∀ gap ∈ gaps, range.2 < gap.1 ∨ gap.2 < range.1)
    (hn : ∃ gap ∈ gaps, gap.1 ≤ n ∧ n ≤ gap.2) : inRanges ranges n = false := by
  obtain ⟨gap, hgap, hlow, hhigh⟩ := hn
  rw [inRanges, List.any_eq_false]
  intro range hrange
  have := hranges range hrange gap hgap
  simp only [Bool.and_eq_true, decide_eq_true_eq]
  omega

/-- Above ASCII only the tables hold letters and numbers. -/
theorem tables_miss_gaps : ∀ range ∈ alphabeticRanges ++ decimalDigitRanges ++ otherNumberRanges,
    ∀ gap ∈ gaps, range.2 < gap.1 ∨ gap.2 < range.1 := by decide +kernel

theorem isAlphabetic_of_gap {c : Char} (hn : ∃ gap ∈ gaps, gap.1 ≤ c.toNat ∧ c.toNat ≤ gap.2)
    (hascii : isLetter c = false) : isAlphabetic c = false := by
  rw [isAlphabetic, hascii,
    inRanges_of_gap (fun range h => tables_miss_gaps range (by simp [h])) hn]
  rfl

theorem isAlphanumeric_of_gap {c : Char} (hn : ∃ gap ∈ gaps, gap.1 ≤ c.toNat ∧ c.toNat ≤ gap.2)
    (hascii : isLetterOrDigit c = false) : isAlphanumeric c = false := by
  rw [isLetterOrDigit, Bool.or_eq_false_iff] at hascii
  rw [isAlphanumeric, isAlphabetic_of_gap hn hascii.1, isDecimalDigit, hascii.2,
    inRanges_of_gap (fun range h => tables_miss_gaps range (by simp [h])) hn,
    inRanges_of_gap (fun range h => tables_miss_gaps range (by simp [h])) hn]
  rfl

theorem toNat_of_isLetterOrDigit {c : Char} (h : isLetterOrDigit c = true) :
    0x30 ≤ c.toNat ∧ c.toNat ≤ 0x7A := by
  have hle (a b : Char) : (a ≤ b) = (a.toNat ≤ b.toNat) := rfl
  simp only [isLetterOrDigit, isLetter, isLower, isUpper, isDigit, Bool.or_eq_true,
    Bool.and_eq_true, decide_eq_true_eq, hle] at h
  have hcodes : 'a'.toNat = 0x61 ∧ 'z'.toNat = 0x7A ∧ 'A'.toNat = 0x41 ∧ 'Z'.toNat = 0x5A ∧
      '0'.toNat = 0x30 ∧ '9'.toNat = 0x39 := by decide
  omega

theorem gap_of_isBlank {c : Char} (h : isBlank c = true) :
    (c.toNat < 0x30 ∨ 0x7A < c.toNat) ∧ ∃ gap ∈ gaps, gap.1 ≤ c.toNat ∧ c.toNat ≤ gap.2 := by
  simp only [isBlank, Bool.or_eq_true, Bool.and_eq_true, decide_eq_true_eq, beq_iff_eq] at h
  simp only [gaps, List.mem_cons, List.not_mem_nil, or_false, exists_eq_or_imp, exists_eq_left]
  omega

theorem isProseCharacter_of_isMark {c : Char} (h : isMark c = true) :
    isProseCharacter c = false := by
  have hother : c ≠ ',' ∧ c ≠ '[' ∧ c ≠ ']' := by
    refine ⟨?_, ?_, ?_⟩ <;> (rintro rfl; revert h; decide)
  have halphanumeric : isAlphanumeric c = false := by
    rcases Bool.or_eq_true_iff.1 h with h | h
    · obtain ⟨hascii, hgap⟩ := gap_of_isBlank h
      refine isAlphanumeric_of_gap hgap (Bool.eq_false_iff.2 fun hletter => ?_)
      have := toNat_of_isLetterOrDigit hletter
      omega
    · have hmarks : ∀ c ∈ "\\\x60*_.:()<>+-=~^#\x27\x22\r".toList,
          c.toNat ≤ 0xA9 ∧ isLetterOrDigit c = false := forall_mem_of_all (by decide)
      obtain ⟨hgap, hascii⟩ := hmarks c (List.contains_iff_mem.1 h)
      exact isAlphanumeric_of_gap ⟨(0, 0xA9), List.mem_cons_self, Nat.zero_le _, hgap⟩ hascii
  simp [isProseCharacter, halphanumeric, hother]

theorem ne_of_isProseCharacter {c d : Char} (hc : isProseCharacter c = true)
    (hd : isMark d = true) : c ≠ d := ne_of_class hc (isProseCharacter_of_isMark hd)

theorem isProseCharacter_of_isLetterOrDigit {c : Char} (h : isLetterOrDigit c = true) :
    isProseCharacter c = true := by
  rcases Bool.or_eq_true_iff.1 h with h | h
  · simp [isProseCharacter, isAlphanumeric, isAlphabetic, h]
  · simp [isProseCharacter, isAlphanumeric, isDecimalDigit, h]

theorem isBlank_of_isProseCharacter {c : Char} (hc : isProseCharacter c = true) :
    isBlank c = false := by
  cases hblank : isBlank c with
  | false => rfl
  | true =>
    exact absurd rfl (ne_of_isProseCharacter hc (isMark_of_isBlank hblank))

/-! ## Lines of prose -/

/-- Words with spaces between them. -/
def isProse (t : Text) : Bool :=
  t.all (fun c => isProseCharacter c || c == ' ') && t.head?.any isProseCharacter &&
    t.getLast?.any isProseCharacter

section IsProse

variable {t : Text}

theorem isProse_mem (h : isProse t = true) {c : Char} (hc : c ∈ t) :
    isProseCharacter c = true ∨ c = ' ' := by
  simp only [isProse, Bool.and_eq_true, List.all_eq_true, Bool.or_eq_true, beq_iff_eq] at h
  exact h.1.1 c hc

theorem isProse_head (h : isProse t = true) : ∃ c u, t = c :: u ∧ isProseCharacter c = true := by
  simp only [isProse, Bool.and_eq_true] at h
  cases t with
  | nil => cases h.1.2
  | cons c u => exact ⟨c, u, rfl, h.1.2⟩

theorem isProse_last (h : isProse t = true) : ∃ u c, t = u ++ [c] ∧ isProseCharacter c = true := by
  simp only [isProse, Bool.and_eq_true] at h
  obtain ⟨c, hc, hprose⟩ := (Option.any_eq_true _ _).1 h.2
  obtain ⟨u, rfl⟩ := List.getLast?_eq_some_iff.1 hc
  exact ⟨u, c, rfl, hprose⟩

/-- A mark other than the space is not in a line of prose. -/
theorem isProse_ne (h : isProse t = true) {c d : Char} (hc : c ∈ t) (hd : isMark d = true)
    (hspace : d ≠ ' ') : c ≠ d := by
  rcases isProse_mem h hc with hprose | rfl
  · exact ne_of_isProseCharacter hprose hd
  · exact hspace.symm

theorem isSolid_of_isProse (h : isProse t = true) : IsSolid t := by
  obtain ⟨c, u, hhead, hc⟩ := isProse_head h
  obtain ⟨v, d, hlast, hd⟩ := isProse_last h
  exact ⟨⟨c, u, hhead, isBlank_of_isProseCharacter hc⟩,
    ⟨v, d, hlast, isBlank_of_isProseCharacter hd⟩⟩

end IsProse

end CallDoc.Text
