import CallDoc.Proofs.Numeral.Integer
import CallDoc.Type.Spelling

/-!
The words of type spellings: a name, and a literal value. Each is read off the front of a
text and leaves what follows it, when that cannot continue it. What follows an argument,
a comma or the closing bracket, continues none of them, and no name of a type is taken for
a literal.
-/
namespace CallDoc

open Text Spelling

/-- A literal whose spelling can be told from what follows it. -/
inductive Literal.Spellable : Literal → Prop
  | str {value : Text} (unquoted : '\x27' ∉ value) (unbracketed : ']' ∉ value) :
    Spellable (.str value)
  | int {value : Int} (low : -0x8000000000000000 ≤ value) (high : value < 0x8000000000000000) :
    Spellable (.int value)
  | bool (value : Bool) : Spellable (.bool value)

/-- A word that can stand for a type, and is not read as a truth value. -/
structure IsTypeWord (name : Text) : Prop where
  starts : name.head?.any startsName = true
  continues : name.tail.all continuesName = true
  notTrue : name ≠ "True".toList ∧ startsWith "True.".toList name = false
  notFalse : name ≠ "False".toList ∧ startsWith "False.".toList name = false

instance (name : Text) : Decidable (IsTypeWord name) :=
  decidable_of_iff (name.head?.any startsName = true ∧ name.tail.all continuesName = true ∧
      (name ≠ "True".toList ∧ startsWith "True.".toList name = false) ∧
      (name ≠ "False".toList ∧ startsWith "False.".toList name = false))
    ⟨fun ⟨hstarts, hcontinues, htrue, hfalse⟩ => ⟨hstarts, hcontinues, htrue, hfalse⟩,
      fun h => ⟨h.starts, h.continues, h.notTrue, h.notFalse⟩⟩

namespace Spelling

/-! ## Names -/

theorem isDigit_of_startsName {c : Char} (h : startsName c = true) : isDigit c = false := by
  refine Bool.eq_false_iff.2 fun hdigit => ?_
  have hle (a b : Char) : (a ≤ b) = (a.toNat ≤ b.toNat) := rfl
  have hcodes : '0'.toNat = 0x30 ∧ '9'.toNat = 0x39 ∧ 'a'.toNat = 0x61 ∧ 'A'.toNat = 0x41 := by
    decide
  have hcode : '0'.toNat ≤ c.toNat ∧ c.toNat ≤ '9'.toNat := by
    simpa only [isDigit, Bool.and_eq_true, decide_eq_true_eq, hle] using hdigit
  have hletter : isLetter c = false := by
    refine Bool.eq_false_iff.2 fun hletter => ?_
    simp only [isLetter, isLower, isUpper, Bool.or_eq_true, Bool.and_eq_true, decide_eq_true_eq,
      hle] at hletter
    omega
  have hgap : ∃ gap ∈ gaps, gap.1 ≤ c.toNat ∧ c.toNat ≤ gap.2 :=
    ⟨(0, 0xA9), List.mem_cons_self, by omega, by omega⟩
  rw [startsName, isAlphabetic_of_gap hgap hletter, Bool.false_or, beq_iff_eq] at h
  rw [h] at hdigit
  exact absurd hdigit (by decide)

theorem continuesName_of_startsName {c : Char} (h : startsName c = true) :
    continuesName c = true := by
  rcases Bool.or_eq_true_iff.1 h with h | h
  · simp [continuesName, isAlphanumeric, h]
  · simp [continuesName, h]

theorem isBlank_of_continuesName {c : Char} (h : continuesName c = true) : isBlank c = false := by
  refine Bool.eq_false_iff.2 fun hblank => ?_
  have hprose : isProseCharacter c = false :=
    isProseCharacter_of_isMark (isMark_of_isBlank hblank)
  simp only [isProseCharacter, Bool.or_eq_false_iff] at hprose
  simp only [continuesName, hprose.1.1.1, Bool.false_or, Bool.or_eq_true, beq_iff_eq] at h
  rcases h with rfl | rfl <;> exact absurd hblank (by decide)

/-- The characters that stand between names and start literals. -/
def delimiters : List Char := ['[', ']', ',', '|', ' ', '-', '\x27', '\x22']

/-- No name runs on into a delimiter. -/
theorem continuesName_of_mem_delimiters {c : Char} (h : c ∈ delimiters) :
    continuesName c = false := by
  have hall : (delimiters.all fun c => !continuesName c) = true := by decide +kernel
  simpa using List.all_eq_true.1 hall c h

theorem ne_of_mem_delimiters {c d : Char} (hc : continuesName c = true) (hd : d ∈ delimiters) :
    c ≠ d := ne_of_class hc (continuesName_of_mem_delimiters hd)

/-! ## What may follow -/

/-- Nothing, or what stands behind an argument. -/
def Ends (rest : Text) : Prop := ∀ c, rest.head? = some c → c = ',' ∨ c = ']'

theorem ends_nil : Ends [] := nofun

theorem ends_bracket (rest : Text) : Ends (']' :: rest) := by
  rintro c ⟨⟩
  exact Or.inr rfl

theorem ends_comma (rest : Text) : Ends (',' :: rest) := by
  rintro c ⟨⟩
  exact Or.inl rfl

theorem Ends.continuesName {rest : Text} (h : Ends rest) {c : Char} (hc : rest.head? = some c) :
    continuesName c = false := by
  rcases h c hc with rfl | rfl <;> exact continuesName_of_mem_delimiters (by decide)

theorem Ends.isDigit {rest : Text} (h : Ends rest) {c : Char} (hc : rest.head? = some c) :
    isDigit c = false := by
  rcases h c hc with rfl | rfl <;> decide

theorem eat?_append {a : Char} (ha : isBlank a = false) (token rest : Text) :
    eat? (a :: token) (a :: token ++ rest) = some rest := by
  rw [eat?, List.cons_append, trimStart_cons ha]
  exact after?_eq_some_iff.2 rfl

theorem eat?_of_ne {a c : Char} (hc : isBlank c = false) (hne : c ≠ a) (token t : Text) :
    eat? (a :: token) (c :: t) = none := by
  rw [eat?, trimStart_cons hc]
  exact after?_cons_of_ne hne token t

theorem Ends.eat? {rest : Text} (h : Ends rest) {a : Char} (hcomma : a ≠ ',') (hbracket : a ≠ ']')
    (token : Text) : eat? (a :: token) rest = none := by
  cases rest with
  | nil => rfl
  | cons c rest =>
    rcases h c rfl with rfl | rfl
    · exact eat?_of_ne (by decide) hcomma.symm token rest
    · exact eat?_of_ne (by decide) hbracket.symm token rest

/-! ## Words -/

end Spelling

namespace IsTypeWord

variable {name : Text}

theorem exists_cons (h : IsTypeWord name) :
    ∃ c rest, name = c :: rest ∧ startsName c = true := by
  have hstarts := h.starts
  cases name with
  | nil => cases hstarts
  | cons c rest => exact ⟨c, rest, rfl, hstarts⟩

theorem continuesName (h : IsTypeWord name) : ∀ c ∈ name, continuesName c = true := by
  obtain ⟨c, rest, rfl, hc⟩ := h.exists_cons
  intro d hd
  rcases List.mem_cons.1 hd with rfl | hd
  · exact continuesName_of_startsName hc
  · exact List.all_eq_true.1 h.continues d hd

theorem name?_append (h : IsTypeWord name) {tail : Text}
    (htail : ∀ c, tail.head? = some c → Spelling.continuesName c = false) :
    name? (name ++ tail) = some (name, tail) := by
  obtain ⟨c, rest, rfl, hc⟩ := h.exists_cons
  have hblank := isBlank_of_continuesName (continuesName_of_startsName hc)
  have hrest : ∀ d ∈ rest, Spelling.continuesName d = true := List.all_eq_true.1 h.continues
  obtain ⟨htake, hdrop⟩ := span_append_of_head? htail rest
  have hname : name? (c :: rest ++ tail) =
      some (c :: (rest ++ tail).takeWhile Spelling.continuesName,
        (rest ++ tail).dropWhile Spelling.continuesName) := by
    rw [name?, List.cons_append, trimStart_cons hblank]
    exact if_pos hc
  rw [hname, htake, hdrop, List.takeWhile_eq_self_iff.2 hrest, List.dropWhile_eq_nil_iff.2 hrest,
    List.nil_append]

end IsTypeWord

namespace Spelling

/-- The names that the grammar gives a meaning of its own. -/
def keywords : List Text :=
  ["None".toList, "NoneType".toList, "list".toList, "tuple".toList, "Literal".toList,
    "Union".toList]

theorem isTypeWord_of_mem_keywords {name : Text} (h : name ∈ keywords) : IsTypeWord name := by
  have hall : (keywords.all fun name => decide (IsTypeWord name)) = true := by decide +kernel
  exact of_decide_eq_true (List.all_eq_true.1 hall name h)

/-- A name is not read as a word it only starts with, as long as no dot follows that. -/
theorem word?_append {word name tail : Text} (hword : ∀ c ∈ word, continuesName c = true)
    (hname : ∀ c ∈ name, continuesName c = true) (hne : name ≠ word)
    (hdot : startsWith (word ++ ['.']) name = false)
    (htail : ∀ c, tail.head? = some c → continuesName c = false) :
    word? word (name ++ tail) = none := by
  rw [word?]
  cases hafter : after? word (name ++ tail) with
  | none => rfl
  | some rest =>
    have hmore : ∃ c more, rest = c :: more ∧ c ≠ '.' ∧ continuesName c = true := by
      rcases List.append_eq_append_iff.1 (after?_eq_some_iff.1 hafter) with
        ⟨more, rfl, htail'⟩ | ⟨more, rfl, hrest⟩
      · cases more with
        | nil => exact absurd (List.append_nil name).symm hne
        | cons c more =>
          have hc := hword c (by simp)
          rw [htail c (by rw [htail']; rfl)] at hc
          cases hc
      · cases more with
        | nil => exact absurd (List.append_nil word) hne
        | cons c more =>
          refine ⟨c, more ++ tail, hrest, ?_, hname c (by simp)⟩
          rintro rfl
          have : startsWith (word ++ ['.']) (word ++ '.' :: more) = true := by
            rw [startsWith, after?_eq_some_iff.2 (by simp : _ = (word ++ ['.']) ++ more)]
            rfl
          rw [hdot] at this
          cases this
    obtain ⟨c, more, rfl, hc, hcontinues⟩ := hmore
    have hletter : (isAlphanumeric c || c == '_') = true := by
      simpa [continuesName, hc] using hcontinues
    simp [hletter]

theorem literal?_of_head? {t : Text} {c : Char} (hhead : t.head? = some c)
    (hquote : c ≠ '\x27' ∧ c ≠ '\x22') (hrun : (integerRun t).any isDigit = false) :
    literal? t = .ok (((word? "True".toList t).map fun rest => (.bool true, rest)).or
      ((word? "False".toList t).map fun rest => (.bool false, rest))) := by
  have hnone : (some c).filter (fun c => c == '\x27' || c == '\x22') = none := by
    simp [Option.filter, hquote]
  rw [literal?, hhead]
  simp only [hnone, hrun, Bool.false_eq_true, if_false]
  cases word? "True".toList t <;> rfl

theorem integerRun_of_head? {t : Text} {c : Char} (hhead : t.head? = some c) (hminus : c ≠ '-') :
    integerRun t = t.takeWhile isDigit := by
  unfold integerRun
  split
  · exact absurd (Option.some.inj hhead).symm hminus
  · rfl

end Spelling

namespace IsTypeWord

theorem literal?_append {name : Text} (h : IsTypeWord name) {tail : Text}
    (htail : ∀ c, tail.head? = some c → Spelling.continuesName c = false) :
    literal? (name ++ tail) = .ok none := by
  obtain ⟨c, rest, hcons, hc⟩ := h.exists_cons
  have hhead : (name ++ tail).head? = some c := by rw [hcons]; rfl
  have hne : ∀ d ∈ delimiters, c ≠ d := fun d =>
    ne_of_mem_delimiters (continuesName_of_startsName hc)
  have hrun : integerRun (name ++ tail) = [] := by
    rw [integerRun_of_head? hhead (hne '-' (by decide)), hcons, List.cons_append,
      List.takeWhile_cons_of_neg (by simp [isDigit_of_startsName hc])]
  have htrue : word? "True".toList (name ++ tail) = none :=
    word?_append (forall_mem_of_all (by decide +kernel)) h.continuesName h.notTrue.1 h.notTrue.2
      htail
  have hfalse : word? "False".toList (name ++ tail) = none :=
    word?_append (forall_mem_of_all (by decide +kernel)) h.continuesName h.notFalse.1 h.notFalse.2
      htail
  rw [literal?_of_head? hhead ⟨hne _ (by decide), hne _ (by decide)⟩
    (by rw [hrun]; rfl), htrue, hfalse]
  rfl

end IsTypeWord

namespace Spelling

/-! ## Literals -/

theorem literal?_str {value : Text} (h : '\x27' ∉ value) (rest : Text) :
    literal? ((Literal.str value).spelling ++ rest) = .ok (some (.str value, rest)) := by
  have hsplit : splitFirst? '\x27' (value ++ '\x27' :: rest) = some (value, rest) :=
    splitFirst?_append h rest
  simp [literal?, Literal.spelling, Option.filter, hsplit]

theorem literal?_integer {i : Int} (hlow : -0x8000000000000000 ≤ i)
    (hhigh : i < 0x8000000000000000) {rest : Text}
    (hrest : ∀ c, rest.head? = some c → isDigit c = false) :
    literal? (ofInt i ++ rest) = .ok (some (.int i, rest)) := by
  have htake (n : Nat) : (ofNat n ++ rest).takeWhile isDigit = ofNat n := by
    rw [(span_append_of_head? hrest _).1]
    exact List.takeWhile_eq_self_iff.2 fun c => isDigit_of_mem_ofNat
  -- The first character is a digit or the sign, and either way the run is the whole integer.
  have hrun : ∃ c, (ofInt i ++ rest).head? = some c ∧ c ≠ '\x27' ∧ c ≠ '\x22' ∧
      integerRun (ofInt i ++ rest) = ofInt i ∧ (ofInt i).any isDigit = true := by
    cases i with
    | ofNat n =>
      obtain ⟨c, t, hcons, hc⟩ := exists_ofNat_eq_cons n
      have hne : ∀ d, isDigit d = false → c ≠ d := fun d => ne_of_class hc
      have hhead : (ofInt (.ofNat n) ++ rest).head? = some c := by rw [ofInt, hcons]; rfl
      refine ⟨c, hhead, hne _ (by decide), hne _ (by decide), ?_, ?_⟩
      · rw [integerRun_of_head? hhead (hne _ (by decide)), ofInt, htake]
      · simp [ofInt, hcons, hc]
    | negSucc n =>
      obtain ⟨c, t, hcons, hc⟩ := exists_ofNat_eq_cons (n + 1)
      refine ⟨'-', rfl, by decide, by decide, ?_, ?_⟩
      · rw [ofInt, List.cons_append, integerRun, htake]
      · simp [ofInt, hcons, hc]
  obtain ⟨c, hhead, hsingle, hdouble, hrun, hany⟩ := hrun
  have hnone : (some c).filter (fun c => c == '\x27' || c == '\x22') = none := by
    simp [Option.filter, hsingle, hdouble]
  rw [literal?, hhead]
  simp only [hnone, hrun, hany, if_true, Numeral.int64?_ofInt hlow hhigh, List.drop_left]

theorem literal?_bool (value : Bool) {rest : Text}
    (hrest : ∀ c, rest.head? = some c → continuesName c = false) :
    literal? ((Literal.bool value).spelling ++ rest) = .ok (some (.bool value, rest)) := by
  have hword (word : Text) : word? word (word ++ rest) = some rest := by
    have hnone : (rest.head?.any fun c => isAlphanumeric c || c == '_') = false := by
      cases hhead : rest.head? with
      | none => rfl
      | some c =>
        have hc := hrest c hhead
        rw [continuesName, Bool.or_eq_false_iff] at hc
        exact hc.1
    rw [word?, after?_eq_some_iff.2 rfl]
    simp [hnone]
  cases value with
  | true =>
    rw [literal?_of_head? rfl (by decide) (by rfl), Literal.spelling, hword]
    rfl
  | false =>
    rw [literal?_of_head? rfl (by decide) (by rfl), Literal.spelling, hword]
    rfl

theorem literal?_spelling {value : Literal} (h : value.Spellable) {rest : Text}
    (hrest : Ends rest) : literal? (value.spelling ++ rest) = .ok (some (value, rest)) := by
  cases h with
  | str hunquoted => exact literal?_str hunquoted rest
  | int hlow hhigh => exact literal?_integer hlow hhigh fun c => hrest.isDigit
  | bool value => exact literal?_bool value fun c => hrest.continuesName

theorem exists_literal_spelling_eq_cons (value : Literal) :
    ∃ c t, value.spelling = c :: t ∧ isBlank c = false ∧ c ≠ '.' := by
  cases value with
  | str value => exact ⟨'\x27', _, rfl, by decide, by decide⟩
  | int i =>
    cases i with
    | ofNat n =>
      obtain ⟨c, t, hcons, hc⟩ := exists_ofNat_eq_cons n
      have hprose : isProseCharacter c = true :=
        isProseCharacter_of_isLetterOrDigit (by simp [isLetterOrDigit, hc])
      refine ⟨c, t, hcons, isBlank_of_isProseCharacter hprose, ?_⟩
      exact ne_of_isProseCharacter hprose (by decide)
    | negSucc n => exact ⟨'-', _, rfl, by decide, by decide⟩
  | bool value => cases value <;> exact ⟨_, _, rfl, by decide, by decide⟩

end Spelling
end CallDoc
