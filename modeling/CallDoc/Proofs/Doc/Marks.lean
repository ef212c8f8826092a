import CallDoc.Proofs.Text.LetterCase
import CallDoc.Proofs.Text.Lines
import CallDoc.Report

/-!
Text with display marks in it. A mark is a few characters that start with an escape, and a text
is well marked when an escape stands nowhere else. Every step between the spans that are shown
and the report keeps the marks whole: the text is joined, hung below a marker, put in lower
case, cut into lines. So the marks can be removed one kind after the other, and no escape is
left.
-/
namespace CallDoc

open Text

namespace Display

/-- The display marks, in the order in which they are removed. -/
def marks : List Text := [italic, bold, underline, reset]

/-- Text in which an escape is the start of one of the marks. -/
inductive Marked (marks : List Text) : Text → Prop
  | nil : Marked marks []
  | char {c : Char} {t : Text} (hc : c ≠ '\x1b') (h : Marked marks t) : Marked marks (c :: t)
  | mark {m t : Text} (hm : m ∈ marks) (h : Marked marks t) : Marked marks (m ++ t)

/-! ## The marks -/

section Mark

variable {m : Text} (hm : m ∈ marks)
include hm

theorem exists_of_mem_marks : ∃ tail, m = '\x1b' :: tail ∧ '\x1b' ∉ tail := by
  have hall : ∀ m ∈ marks, m.head? = some '\x1b' ∧ '\x1b' ∉ m.tail := by decide
  obtain ⟨hhead, htail⟩ := hall m hm
  obtain ⟨tail, rfl⟩ := List.head?_eq_some_iff.1 hhead
  exact ⟨tail, rfl, htail⟩

theorem break_not_mem : '\n' ∉ m ∧ '\r' ∉ m :=
  (by decide : ∀ m ∈ marks, '\n' ∉ m ∧ '\r' ∉ m) m hm

/-- No letter in a mark has another form in lower case. -/
theorem lowercaseAfter_mark (seen rest : Text) :
    lowercaseAfter seen (m ++ rest) = m ++ lowercaseAfter (m.reverse ++ seen) rest := by
  have hall : ∀ m ∈ marks, m.all (fun c => c ≠ 'Σ' ∧ c ≠ 'İ' ∧ smallLetter c = c) = true := by
    decide +kernel
  have hsmall : ∀ c ∈ m, c ≠ 'Σ' ∧ c ≠ 'İ' ∧ smallLetter c = c := forall_mem_of_all (hall m hm)
  clear hm hall
  induction m generalizing seen with
  | nil => rfl
  | cons c m ih =>
    obtain ⟨⟨hsigma, hdotted, hself⟩, hm⟩ := List.forall_mem_cons.1 hsmall
    rw [List.cons_append, lowercaseAfter, ih _ hm]
    simp [hsigma, hdotted, hself]

/-- A mark does not start another one. -/
theorem not_prefix_of_ne {k : Text} (hk : k ∈ marks) (hne : m ≠ k) (rest : Text) :
    startsWith m (k ++ rest) = false := by
  have hlength : ∀ m ∈ marks, m.length = 4 := by decide
  refine Bool.eq_false_iff.2 fun hstart => hne ?_
  obtain ⟨after, hafter⟩ := Option.isSome_iff_exists.1 hstart
  exact (List.append_inj (after?_eq_some_iff.1 hafter)
    ((hlength k hk).trans (hlength m hm).symm)).1.symm

end Mark

/-! ## Well-marked text -/

variable {kinds : List Text} {t u : Text}

theorem marked_of_not_mem (h : '\x1b' ∉ t) : Marked kinds t := by
  induction t with
  | nil => exact .nil
  | cons c t ih =>
    rw [List.mem_cons, not_or] at h
    exact .char (Ne.symm h.1) (ih h.2)

/-- Without marks there are no escapes. -/
theorem Marked.not_mem (h : Marked [] t) : '\x1b' ∉ t := by
  induction h with
  | nil => exact List.not_mem_nil
  | char hc _ ih => exact fun hmem => (List.mem_cons.1 hmem).elim (fun he => hc he.symm) ih
  | mark hm => cases hm

theorem Marked.append (ht : Marked kinds t) (hu : Marked kinds u) : Marked kinds (t ++ u) := by
  induction ht with
  | nil => exact hu
  | char hc _ ih => exact .char hc ih
  | mark hm _ ih =>
    rw [List.append_assoc]
    exact .mark hm ih

theorem marked_of_mem {m : Text} (hm : m ∈ kinds) : Marked kinds m :=
  List.append_nil m ▸ .mark hm .nil

theorem marked_joinWith {sep : Text} (hsep : '\x1b' ∉ sep) {pieces : List Text}
    (h : ∀ piece ∈ pieces, Marked kinds piece) : Marked kinds (joinWith sep pieces) := by
  induction pieces with
  | nil => exact .nil
  | cons piece more ih =>
    obtain ⟨hpiece, hmore⟩ := List.forall_mem_cons.1 h
    cases more with
    | nil => rwa [joinWith, List.intercalate_singleton]
    | cons next more =>
      rw [joinWith_cons_cons]
      exact hpiece.append ((marked_of_not_mem hsep).append (ih hmore))

section Kinds

variable (hkinds : ∀ m ∈ kinds, m ∈ marks)
include hkinds

/-- Every escape in well-marked text is the first character of a whole mark. -/
theorem Marked.exists_prefix (h : Marked kinds t) {before after : Text}
    (ht : t = before ++ '\x1b' :: after) : ∃ m ∈ kinds, m <+: '\x1b' :: after := by
  induction h generalizing before with
  | nil => cases before <;> cases ht
  | char hc _ ih =>
    cases before with
    | nil => exact absurd (List.cons.inj ht).1 hc
    | cons d before => exact ih (List.cons.inj ht).2
  | @mark m t hm _ ih =>
    rcases List.append_eq_append_iff.1 ht with ⟨later, rfl, hlater⟩ | ⟨middle, hmark, hmiddle⟩
    · exact ih hlater
    · cases middle with
      | nil =>
        have hstart : t = [] ++ '\x1b' :: after := hmiddle.symm
        exact ih hstart
      | cons d middle =>
        obtain ⟨rfl, hrest⟩ := List.cons.inj hmiddle
        -- the escape is the first character of the mark, where there is only one
        obtain ⟨tail, htail, hnone⟩ := exists_of_mem_marks (hkinds m hm)
        cases before with
        | nil => exact ⟨m, hm, t, by rw [hmark, hrest]; rfl⟩
        | cons d before =>
          rw [hmark, List.cons_append] at htail
          exact absurd ((List.cons.inj htail).2 ▸ by simp) hnone

theorem Marked.of_append_cons {c : Char} (hc : ∀ m ∈ marks, c ∉ m) {a b : Text}
    (h : Marked kinds (a ++ c :: b)) : Marked kinds a ∧ Marked kinds b := by
  generalize ht : a ++ c :: b = t at h
  induction h generalizing a with
  | nil => cases a <;> cases ht
  | char hd h ih =>
    cases a with
    | nil =>
      obtain ⟨rfl, rfl⟩ := List.cons.inj ht
      exact ⟨.nil, h⟩
    | cons d a =>
      obtain ⟨rfl, rfl⟩ := List.cons.inj ht
      exact ⟨.char hd (ih rfl).1, (ih rfl).2⟩
  | @mark m t hm h ih =>
    rcases List.append_eq_append_iff.1 ht with ⟨middle, rfl, hmiddle⟩ | ⟨later, rfl, hlater⟩
    · cases middle with
      | nil => exact ⟨marked_of_mem (by simpa using hm), (ih (a := []) hmiddle).2⟩
      | cons d middle =>
        obtain ⟨rfl, -⟩ := List.cons.inj hmiddle
        exact absurd (by simp) (hc _ (hkinds _ hm))
    · exact ⟨.mark hm (ih hlater.symm).1, (ih hlater.symm).2⟩

theorem Marked.hang {pad : Text} (hpad : '\x1b' ∉ pad) (h : Marked kinds t) :
    Marked kinds (hang pad t) := by
  induction h with
  | nil => exact .nil
  | @char c t hc _ ih =>
    rw [Text.hang, List.flatMap_cons]
    refine (marked_of_not_mem ?_).append ih
    split
    · exact List.not_mem_cons_of_ne_of_not_mem (by decide) hpad
    · exact List.not_mem_cons_of_ne_of_not_mem hc.symm List.not_mem_nil
  | @mark m t hm _ ih =>
    rw [hang_append, hang_of_not_mem (break_not_mem (hkinds m hm)).1]
    exact .mark hm ih

/-- Lower case changes no mark. -/
theorem Marked.lowercaseAfter (h : Marked kinds t) (seen : Text) :
    Marked kinds (lowercaseAfter seen t) := by
  induction h generalizing seen with
  | nil => exact .nil
  | @char c t hc _ ih =>
    rw [Text.lowercaseAfter]
    refine (marked_of_not_mem ?_).append (ih _)
    split
    · split <;> decide
    · split
      · decide
      · rw [List.mem_singleton]
        exact fun he => hc (eq_of_smallLetter (by decide) (by decide) he.symm)
  | mark hm _ ih =>
    rw [lowercaseAfter_mark (hkinds _ hm)]
    exact .mark hm (ih _)

/-! ## Lines -/

theorem Marked.splitOn (h : Marked kinds t) : ∀ piece ∈ splitOn '\n' t, Marked kinds piece := by
  induction hn : t.length using Nat.strongRecOn generalizing t with
  | ind n ih =>
    by_cases hmem : '\n' ∈ t
    · obtain ⟨a, b, rfl, ha⟩ := List.eq_append_cons_of_mem hmem
      obtain ⟨hfirst, hrest⟩ := h.of_append_cons hkinds fun m hm => (break_not_mem hm).1
      rw [splitOn_append ha]
      refine List.forall_mem_cons.2 ⟨hfirst, ih b.length ?_ hrest rfl⟩
      rw [← hn, List.length_append, List.length_cons]
      omega
    · rw [splitOn_of_not_mem hmem]
      exact List.forall_mem_singleton.2 h

theorem Marked.dropReturn (h : Marked kinds t) : Marked kinds (dropReturn t) := by
  cases hbefore : before? ['\r'] t with
  | none => rwa [Text.dropReturn, hbefore, Option.getD_none]
  | some lead =>
    rw [before?_eq_some_iff.1 hbefore] at h
    rw [Text.dropReturn, hbefore, Option.getD_some]
    exact (h.of_append_cons hkinds fun m hm => (break_not_mem hm).2).1

theorem Marked.lines (h : Marked kinds t) : ∀ line ∈ lines t, Marked kinds line := by
  have hpieces := h.splitOn hkinds
  rw [Text.lines]
  generalize Text.splitOn '\n' t = pieces at hpieces
  induction pieces with
  | nil => exact List.forall_mem_nil _
  | cons piece more ih =>
    obtain ⟨hpiece, hmore⟩ := List.forall_mem_cons.1 hpieces
    cases more with
    | nil =>
      rw [closeLines]
      split
      · exact List.forall_mem_nil _
      · exact hpieces
    | cons next more => exact List.forall_mem_cons.2 ⟨hpiece.dropReturn hkinds, ih hmore⟩

/-- Newlines at the ends stand outside the marks. -/
theorem Marked.stripNewlines (h : Marked kinds t) : Marked kinds (stripWhere (· == '\n') t) := by
  have hnewline : ∀ m ∈ marks, '\n' ∉ m := fun m hm => (break_not_mem hm).1
  have hend : Marked kinds (dropEndWhile (· == '\n') t) := by
    obtain ⟨gap, ht, hgap⟩ := exists_append_dropEndWhile (· == '\n') t
    cases gap with
    | nil => rwa [ht, List.append_nil] at h
    | cons c gap =>
      obtain rfl := eq_of_beq (hgap c List.mem_cons_self)
      rw [ht] at h
      exact (h.of_append_cons hkinds hnewline).1
  rw [stripWhere]
  generalize dropEndWhile (· == '\n') t = u at hend
  induction u with
  | nil => exact hend
  | cons c u ih =>
    rw [List.dropWhile_cons]
    split
    · rename_i hc
      obtain rfl := eq_of_beq hc
      exact ih (hend.of_append_cons hkinds (a := []) hnewline).2
    · exact hend

end Kinds

/-! ## Removing the marks -/

theorem eraseFrom_append (m skipped rest : Text) :
    eraseFrom m skipped.length (skipped ++ rest) = eraseFrom m 0 rest := by
  induction skipped with
  | nil => rfl
  | cons c skipped ih => rw [List.length_cons, List.cons_append, eraseFrom, ih]

section Erase

variable {m : Text} (hm : m ∈ marks)
include hm

theorem eraseFrom_cons {c : Char} (hc : c ≠ '\x1b') (t : Text) :
    eraseFrom m 0 (c :: t) = c :: eraseFrom m 0 t := by
  obtain ⟨tail, rfl, -⟩ := exists_of_mem_marks hm
  rw [eraseFrom, startsWith, after?_cons_of_ne hc]
  rfl

theorem eraseFrom_append_of_not_mem {a : Text} (ha : '\x1b' ∉ a) (t : Text) :
    eraseFrom m 0 (a ++ t) = a ++ eraseFrom m 0 t := by
  induction a with
  | nil => rfl
  | cons c a ih =>
    rw [List.mem_cons, not_or] at ha
    rw [List.cons_append, eraseFrom_cons hm (Ne.symm ha.1), ih ha.2, List.cons_append]

theorem eraseFrom_self (t : Text) : eraseFrom m 0 (m ++ t) = eraseFrom m 0 t := by
  have hstart : startsWith m (m ++ t) = true := by
    rw [startsWith, after?_eq_some_iff.2 rfl]
    rfl
  obtain ⟨tail, htail, -⟩ := exists_of_mem_marks hm
  have hlength : m.length - 1 = tail.length := by rw [htail]; rfl
  conv_lhs => rw [htail, List.cons_append, eraseFrom, ← List.cons_append, ← htail]
  rw [hstart, if_pos rfl, hlength, eraseFrom_append]

theorem eraseFrom_other {k : Text} (hk : k ∈ marks) (hne : m ≠ k) (t : Text) :
    eraseFrom m 0 (k ++ t) = k ++ eraseFrom m 0 t := by
  have hstart := not_prefix_of_ne hm hk hne t
  obtain ⟨tail, htail, hnone⟩ := exists_of_mem_marks hk
  rw [htail, List.cons_append] at hstart ⊢
  rw [eraseFrom, hstart, if_neg Bool.false_ne_true, eraseFrom_append_of_not_mem hm hnone,
    List.cons_append]

/-- A mark is removed as a whole, and the others stay. -/
theorem Marked.erase (hkinds : ∀ k ∈ kinds, k ∈ marks) (h : Marked (m :: kinds) t) :
    Marked kinds (erase m t) := by
  have hne : m.isEmpty = false := by
    obtain ⟨tail, rfl, -⟩ := exists_of_mem_marks hm
    rfl
  rw [Text.erase, hne, if_neg Bool.false_ne_true]
  induction h with
  | nil => exact .nil
  | char hc _ ih =>
    rw [eraseFrom_cons hm hc]
    exact .char hc ih
  | @mark k t hk _ ih =>
    by_cases hself : m = k
    · rwa [← hself, eraseFrom_self hm]
    · have hk := (List.mem_cons.1 hk).resolve_left (Ne.symm hself)
      rw [eraseFrom_other hm (hkinds k hk) hself]
      exact .mark hk ih

end Erase

/-- No escape is left of well-marked text without its marks. -/
theorem Marked.withoutMarks (h : Marked marks t) : '\x1b' ∉ Doc.withoutMarks t := by
  have hitalic : Marked [bold, underline, reset] (Text.erase italic t) :=
    h.erase (by decide) (by decide)
  have hbold : Marked [underline, reset] (Text.erase bold (Text.erase italic t)) :=
    hitalic.erase (by decide) (by decide)
  have hunderline : Marked [reset] (Text.erase underline (Text.erase bold (Text.erase italic t))) :=
    hbold.erase (by decide) (by decide)
  exact (hunderline.erase (by decide) (by decide)).not_mem

end Display

end CallDoc
