import CallDoc.Proofs.Text.LetterCase
import CallDoc.Proofs.Text.Lines
import CallDoc.Section.Reader

/-!
Where sections open. A title has letters at both ends and nothing but letters and spaces
between them; a line that ends in prose is neither a heading with a colon nor an underline.
-/
namespace CallDoc

open Text

/-- A title can stand in a line of its own, and has no marks in it. -/
structure Heading.IsTitle (t : Text) : Prop where
  head : ∃ c, t.head? = some c ∧ isMark c = false
  last : ∃ c, t.getLast? = some c ∧ isMark c = false
  space : ∀ c ∈ t, isMark c = true → c = ' '

theorem Heading.isTitle_of_ofTitle? {t : Text} (h : (ofTitle? t).isSome = true) : IsTitle t := by
  rw [ofTitle?, List.lookup_isSome_iff] at h
  obtain ⟨⟨name, heading⟩, hmem, hname⟩ := h
  obtain rfl : name = lowercase t := (eq_of_beq hname).symm
  have hnames : ∀ entry ∈ named, entry.1.head?.any isLower = true ∧
      entry.1.getLast?.any isLower = true ∧
      (entry.1.all fun c => isLower c || c == ' ') = true := by decide +kernel
  have hlower {c : Char} (hmark : isMark c = true) : isLower c = false := by
    refine Bool.eq_false_iff.2 fun hlower => ?_
    have hprose := isProseCharacter_of_isLetterOrDigit (c := c)
      (by simp [isLetterOrDigit, isLetter, hlower])
    exact ne_of_isProseCharacter hprose hmark rfl
  obtain ⟨hhead, hlast, hall⟩ := hnames _ hmem
  have hne : t ≠ [] := by
    rintro rfl
    cases hhead
  refine ⟨?_, ?_, fun c hc hmark => ?_⟩
  · refine ⟨_, List.head?_eq_some_head hne, Bool.eq_false_iff.2 fun hmark => ?_⟩
    rw [head?_lowercase hmark (List.head?_eq_some_head hne), Option.any_some, hlower hmark] at hhead
    cases hhead
  · refine ⟨_, List.getLast?_eq_some_getLast hne, Bool.eq_false_iff.2 fun hmark => ?_⟩
    rw [getLast?_lowercase hmark (List.getLast?_eq_some_getLast hne), Option.any_some,
      hlower hmark] at hlast
    cases hlast
  · have hc := List.all_eq_true.1 hall c (mem_lowercase hmark hc)
    rw [hlower hmark, Bool.false_or] at hc
    exact eq_of_beq hc

/-- A heading with a colon is a title and the colon. -/
theorem Heading.exists_of_ofColonLine? {line : Text} {heading : Heading}
    (h : ofColonLine? line = some heading) : ∃ title, line = title ++ [':'] ∧ IsTitle title := by
  obtain ⟨title, htitle, hheading⟩ := Option.bind_eq_some_iff.1 h
  exact ⟨title, before?_eq_some_iff.1 htitle,
    isTitle_of_ofTitle? (Option.isSome_iff_exists.2 ⟨heading, hheading⟩)⟩

namespace Section

theorem ofTitle?_of_last_mark {t : Text} {c : Char} (hc : t.getLast? = some c)
    (hmark : isMark c = true) : Heading.ofTitle? t = none := by
  refine Option.not_isSome_iff_eq_none.1 fun h => ?_
  obtain ⟨d, hd, hnot⟩ := (Heading.isTitle_of_ofTitle? h).last
  rw [hc] at hd
  rw [← Option.some.inj hd, hmark] at hnot
  cases hnot

theorem ofTitle?_of_mark {t : Text} {c : Char} (hc : t.head? = some c) (hmark : isMark c = true) :
    Heading.ofTitle? t = none := by
  refine Option.not_isSome_iff_eq_none.1 fun h => ?_
  obtain ⟨d, hd, hnot⟩ := (Heading.isTitle_of_ofTitle? h).head
  rw [hc] at hd
  obtain rfl := Option.some.inj hd
  rw [hmark] at hnot
  cases hnot

theorem ofColonLine?_of_last {line : Text} (h : line.getLast? ≠ some ':') :
    Heading.ofColonLine? line = none := by
  cases hbefore : before? [':'] line with
  | none => rw [Heading.ofColonLine?, hbefore, Option.bind_none]
  | some lead =>
    rw [before?_eq_some_iff.1 hbefore, List.getLast?_concat] at h
    exact absurd rfl h

theorem ofColonLine?_of_mark {line : Text} {c : Char} (hc : line.head? = some c)
    (hmark : isMark c = true) : Heading.ofColonLine? line = none := by
  cases hline : Heading.ofColonLine? line with
  | none => rfl
  | some heading =>
    obtain ⟨title, rfl, htitle⟩ := Heading.exists_of_ofColonLine? hline
    obtain ⟨d, hd, hnot⟩ := htitle.head
    rw [List.head?_append, hd] at hc
    obtain rfl := Option.some.inj hc
    rw [hmark] at hnot
    cases hnot

theorem ofColonLine?_of_prose {line : Text} (h : line = [] ∨ EndsInProse line) :
    Heading.ofColonLine? line = none := by
  rcases h with rfl | h
  · rfl
  · exact ofColonLine?_of_last (h.getLast?_ne (by decide))

theorem isIndexEntry_of_head {line : Text} (h : line.head? ≠ some '.') :
    isIndexEntry line = false := by
  cases hindex : isIndexEntry line with
  | false => rfl
  | true =>
    obtain ⟨rest, hrest⟩ := Option.isSome_iff_exists.1 hindex
    have hlower := after?_eq_some_iff.1 hrest
    exact absurd (head?_of_lowercase_dot (by rw [hlower]; rfl)) h

theorem isIndexEntry_of_not_mem {line : Text} (h : ':' ∉ line) : isIndexEntry line = false := by
  refine Bool.eq_false_iff.2 fun hindex => h ?_
  obtain ⟨rest, hrest⟩ := Option.isSome_iff_exists.1 hindex
  have hlower : ':' ∈ lowercase line := by
    rw [after?_eq_some_iff.1 hrest]
    exact List.mem_append_left rest (by decide)
  exact of_mem_lowercaseAfter (by decide) (by decide) hlower

theorem isMark_of_isUnderlineCharacter {c : Char} (h : isUnderlineCharacter c = true) :
    isMark c = true := by
  have hmarks : ∀ c ∈ "=-\x60:\x27\x22~^_*+#<>".toList, isMark c = true :=
    forall_mem_of_all (by decide)
  exact hmarks c (List.contains_iff_mem.1 h)

theorem isBlank_of_isUnderlineCharacter {c : Char} (h : isUnderlineCharacter c = true) :
    isBlank c = false := by
  have hmarks : ∀ c ∈ "=-\x60:\x27\x22~^_*+#<>".toList, isBlank c = false :=
    forall_mem_of_all (by decide)
  exact hmarks c (List.contains_iff_mem.1 h)

theorem isUnderline_of_last {line : Text} {c : Char} (hc : line.getLast? = some c)
    (hblank : isBlank c = false) (hnot : isUnderlineCharacter c = false) :
    isUnderline line = false := by
  have htrim : trimEnd line = line := trimEnd_eq_self fun d hd => by
    rw [hc] at hd
    exact Option.some.inj hd ▸ hblank
  have hall : line.all isUnderlineCharacter = false := by
    rw [List.all_eq_false]
    exact ⟨c, List.mem_of_getLast? hc, by simp [hnot]⟩
  rw [isUnderline, htrim, hall, Bool.and_false]

theorem isUnderline_of_head {line : Text} {c : Char} (hc : line.head? = some c)
    (hnot : isUnderlineCharacter c = false) : isUnderline line = false := by
  cases hunderline : isUnderline line with
  | false => rfl
  | true =>
    simp only [isUnderline, Bool.and_eq_true, List.all_eq_true, decide_eq_true_eq] at hunderline
    obtain ⟨hlen, hall⟩ := hunderline
    obtain ⟨rest, hrest⟩ : trimEnd line <+: line := by
      rw [trimEnd, dropEndWhile_eq]
      exact List.rdropWhile_prefix isBlank line
    obtain ⟨d, u, hd⟩ := List.exists_cons_of_length_pos (Nat.lt_of_lt_of_le Nat.zero_lt_two hlen)
    rw [← hrest, hd] at hc
    obtain rfl := Option.some.inj hc
    rw [hall d (hd ▸ List.mem_cons_self)] at hnot
    cases hnot

/-! ## Openings -/

theorem opening?_google_none {line : Text} (h : Heading.ofColonLine? line = none)
    (below : List Text) : opening? .google (line :: below) = none := by
  rw [opening?, h, Option.bind_none]

theorem opening?_numpy_none_of_index {line : Text} {below : List Text}
    (h : Heading.ofTitle? line = none ∨ ∀ next, below.head? = some next → isUnderline next = false)
    (hindex : isIndexEntry line = false) : opening? .numpy (line :: below) = none := by
  unfold opening?
  dsimp only
  split
  · rename_i heading next more htitle
    rcases h with h | h
    · rw [h] at htitle
      cases htitle
    · rw [if_neg (by simp [h next rfl])]
  · rw [if_neg (by simp [hindex])]

theorem opening?_numpy_none {line : Text} {below : List Text}
    (h : Heading.ofTitle? line = none ∨ ∀ next, below.head? = some next → isUnderline next = false)
    (hindex : line.head? ≠ some '.') : opening? .numpy (line :: below) = none :=
  opening?_numpy_none_of_index h (isIndexEntry_of_head hindex)

end Section
end CallDoc
