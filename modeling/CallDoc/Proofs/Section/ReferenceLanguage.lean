import Mathlib.Computability.Language
import CallDoc.Proofs.Section.Reference

/-!
What a cross reference looks like, said as a language: a path of words between colons, and a target
in backquotes that stays on its line. The reference that is read at the start of a text is the
shortest one that fits there, and where one fits, one is read.
-/
namespace CallDoc.Section

open Text
open scoped Computability

/-! ## References as a language -/

def roleWords : Language Char := {t | t ≠ [] ∧ ∀ c ∈ t, isLetterOrDigit c = true}

def roleSeparators : Language Char := {t | ∃ c, isRoleSeparator c = true ∧ t = [c]}

/-- Words with one separator between neighbours. -/
def rolePaths : Language Char := (roleWords * roleSeparators)∗ * roleWords

/-- What stands in the backquotes, which may be a backquote itself. -/
def targets : Language Char := {t | t ≠ [] ∧ '\n' ∉ t}

/-- A role between colons, and a target in backquotes. -/
def references : Language Char := {[':']} * rolePaths * {":\x60".toList} * targets * {['\x60']}

theorem isRolePath_letters {w : Text} (hw : ∀ c ∈ w, isLetterOrDigit c = true) (t : Text) :
    isRolePath true (w ++ t) = isRolePath true t := by
  induction w with
  | nil => rfl
  | cons c w ih =>
    obtain ⟨hc, hmore⟩ := List.forall_mem_cons.1 hw
    rw [List.cons_append, isRolePath, if_pos hc, ih hmore]

theorem isRolePath_word {w : Text} (hw : w ∈ roleWords) (t : Text) :
    isRolePath false (w ++ t) = isRolePath true t := by
  obtain ⟨hne, hletters⟩ := hw
  obtain ⟨c, w, rfl⟩ := List.exists_cons_of_ne_nil hne
  obtain ⟨hc, hmore⟩ := List.forall_mem_cons.1 hletters
  rw [List.cons_append, isRolePath, if_pos hc, isRolePath_letters hmore]

theorem isRolePath_separator {c : Char} (hc : isRoleSeparator c = true) (t : Text) :
    isRolePath true (c :: t) = isRolePath false t := by
  have hall : ∀ c ∈ "-_+:.".toList, isLetterOrDigit c = false := forall_mem_of_all (by decide)
  have hletter := hall c (mem_of_isRoleSeparator hc)
  rw [isRolePath, if_neg (by simp [hletter]), hc, Bool.and_self, Bool.true_and]

theorem isRolePath_of_mem {t : Text} (h : t ∈ rolePaths) : isRolePath false t = true := by
  obtain ⟨_, hlead, last, hlast, rfl⟩ := Language.mem_mul.1 h
  obtain ⟨parts, rfl, hparts⟩ := Language.mem_kstar.1 hlead
  clear h hlead
  induction parts with
  | nil =>
    rw [List.flatten_nil, List.nil_append, ← List.append_nil last, isRolePath_word hlast]
    rfl
  | cons part parts ih =>
    obtain ⟨hpart, hmore⟩ := List.forall_mem_cons.1 hparts
    obtain ⟨w, hw, _, ⟨c, hc, rfl⟩, rfl⟩ := Language.mem_mul.1 hpart
    have hshape : ((w ++ [c]) :: parts).flatten ++ last = w ++ c :: (parts.flatten ++ last) := by
      simp
    rw [hshape, isRolePath_word hw, isRolePath_separator hc, ih hmore]

/-- A word with a separator behind it in front of a path. -/
theorem append_mem_rolePaths {w t : Text} (hw : w ∈ roleWords) {c : Char}
    (hc : isRoleSeparator c = true) (ht : t ∈ rolePaths) : w ++ c :: t ∈ rolePaths := by
  obtain ⟨_, hlead, last, hlast, rfl⟩ := Language.mem_mul.1 ht
  obtain ⟨parts, rfl, hparts⟩ := Language.mem_kstar.1 hlead
  have hpart : w ++ [c] ∈ roleWords * roleSeparators := Language.append_mem_mul hw ⟨c, hc, rfl⟩
  have hstar : ((w ++ [c]) :: parts).flatten ∈ (roleWords * roleSeparators)∗ :=
    Language.join_mem_kstar (List.forall_mem_cons.2 ⟨hpart, hparts⟩)
  have hshape : w ++ c :: (parts.flatten ++ last) = ((w ++ [c]) :: parts).flatten ++ last := by simp
  rw [hshape]
  exact Language.append_mem_mul hstar hlast

/-- A path, and what a word has behind it in one. -/
theorem mem_rolePaths_of_isRolePath {t : Text} :
    (isRolePath false t = true → t ∈ rolePaths) ∧
      (isRolePath true t = true → ∀ w ∈ roleWords, w ++ t ∈ rolePaths) := by
  induction t with
  | nil =>
    constructor
    · intro h
      cases h
    · intro _ w hw
      rw [List.append_nil, ← List.nil_append w]
      exact Language.append_mem_mul (Language.nil_mem_kstar _) hw
  | cons c t ih =>
    by_cases hc : isLetterOrDigit c = true
    · simp only [isRolePath, if_pos hc]
      have hsingle : ∀ d ∈ [c], isLetterOrDigit d = true := by simpa using hc
      refine ⟨fun h => ih.2 h [c] ⟨List.cons_ne_nil c [], hsingle⟩, fun h w hw => ?_⟩
      have hlonger : w ++ [c] ∈ roleWords := ⟨by simp, List.forall_mem_append.2 ⟨hw.2, hsingle⟩⟩
      simpa using ih.2 h _ hlonger
    · constructor
      · intro h
        rw [isRolePath, if_neg hc] at h
        cases h
      · intro h w hw
        rw [isRolePath, if_neg hc, Bool.true_and, Bool.and_eq_true] at h
        exact append_mem_rolePaths hw h.1 (ih.1 h.2)

theorem mem_rolePaths_iff {t : Text} : t ∈ rolePaths ↔ isRolePath false t = true :=
  ⟨isRolePath_of_mem, mem_rolePaths_of_isRolePath.1⟩

theorem mem_references_iff {t : Text} : t ∈ references ↔
    ∃ role target, isRolePath false role = true ∧ target ≠ [] ∧ '\n' ∉ target ∧
      t = reference role target := by
  constructor
  · intro h
    obtain ⟨_, hquoted, _, hclosing, rfl⟩ := Language.mem_mul.1 h
    obtain ⟨_, hopened, target, htarget, rfl⟩ := Language.mem_mul.1 hquoted
    obtain ⟨_, hmarked, _, hopening, rfl⟩ := Language.mem_mul.1 hopened
    obtain ⟨_, hcolon, role, hrole, rfl⟩ := Language.mem_mul.1 hmarked
    rw [hclosing, hopening, hcolon]
    exact ⟨role, target, isRolePath_of_mem hrole, htarget.1, htarget.2, rfl⟩
  · rintro ⟨role, target, hrole, hne, hline, rfl⟩
    have hmarked : [':'] ++ role ∈ {[':']} * rolePaths :=
      Language.append_mem_mul rfl (mem_rolePaths_iff.2 hrole)
    have hopened := Language.append_mem_mul hmarked (rfl : _ ∈ {":\x60".toList})
    exact Language.append_mem_mul (Language.append_mem_mul hopened ⟨hne, hline⟩) rfl

theorem ne_nil_of_mem_references {t : Text} (h : t ∈ references) : t ≠ [] := by
  obtain ⟨role, target, -, -, -, rfl⟩ := mem_references_iff.1 h
  exact List.cons_ne_nil _ _

/-! ## The reference that a text starts with -/

/-- Of all the references that fit, the shortest. -/
structure Matched (t found : Text) : Prop where
  mem : found ∈ references
  starts : found <+: t
  shortest : ∀ r ∈ references, r <+: t → found.length ≤ r.length

theorem Matched.unique {t found other : Text} (h : Matched t found) (h' : Matched t other) :
    found = other := by
  have hlen := Nat.le_antisymm (h.shortest other h'.mem h'.starts)
    (h'.shortest found h.mem h.starts)
  exact (List.prefix_of_prefix_length_le h.starts h'.starts hlen.le).eq_of_length hlen

/-- Where some reference fits, one that is no longer is found. -/
theorem exists_crossReference?_of_starts {t r : Text} (hr : r ∈ references) (h : r <+: t) :
    ∃ found rest, crossReference? t = some (found, rest) ∧ found.length ≤ r.length := by
  obtain ⟨role, target, hrole, hne, hline, rfl⟩ := mem_references_iff.1 hr
  obtain ⟨behind, rfl⟩ := h
  obtain ⟨c, u, rfl⟩ := List.exists_cons_of_ne_nil hne
  -- what is found ends at the first backquote behind the first character of the target
  obtain ⟨more, left, hsplit, hmore⟩ :=
    List.eq_append_cons_of_mem (List.mem_append_right u (List.mem_singleton_self '\x60'))
  have hshape : reference role (c :: u) = reference role (c :: more) ++ left := by
    have hopening (v : Text) :
        reference role (c :: v) = ':' :: role ++ ":\x60".toList ++ [c] ++ (v ++ ['\x60']) := by
      simp [reference]
    rw [hopening, hopening, hsplit]
    simp
  have hshort : '\n' ∉ c :: more := by
    intro hmem
    have hall : '\n' ∈ c :: (u ++ ['\x60']) :=
      hsplit ▸ (List.mem_cons.1 hmem).elim (fun he => he ▸ List.mem_cons_self)
        fun hin => List.mem_cons_of_mem c (List.mem_append_left _ hin)
    rw [← List.cons_append, List.mem_append, List.mem_singleton] at hall
    exact hall.elim hline (by decide)
  refine ⟨reference role (c :: more), left ++ behind, ?_, ?_⟩
  · rw [hshape, List.append_assoc]
    exact crossReference?_quoted hrole hmore hshort _
  · rw [hshape, List.length_append]
    exact Nat.le_add_right _ _

theorem mem_references_of_crossReference? {t found rest : Text}
    (h : crossReference? t = some (found, rest)) : found ∈ references := by
  unfold crossReference? at h
  split at h
  · dsimp only at h
    split at h
    · rename_i c _ _
      split at h
      · rename_i hrole
        obtain ⟨path, hpath, hword⟩ := (Option.any_eq_true _ _).1 hrole
        obtain ⟨⟨target, behind⟩, htarget, he⟩ := Option.map_eq_some_iff.1 h
        obtain ⟨rfl, rfl⟩ := Prod.mk.inj he
        have hline := of_decide_eq_true (Option.filter_eq_some_iff.1 htarget).2
        refine mem_references_iff.2 ⟨path, c :: target, hword, List.cons_ne_nil c target, hline, ?_⟩
        rw [before?_eq_some_iff.1 hpath]
        simp [reference]
      · cases h
    · cases h
  · cases h

theorem crossReference?_eq_some_iff {t found rest : Text} :
    crossReference? t = some (found, rest) ↔ t = found ++ rest ∧ Matched t found := by
  have hmatched {found rest : Text} (h : crossReference? t = some (found, rest)) :
      Matched t found := by
    refine ⟨mem_references_of_crossReference? h, ⟨rest, (crossReference?_eq h).symm⟩, ?_⟩
    intro r hr hstarts
    obtain ⟨other, behind, hother, hlen⟩ := exists_crossReference?_of_starts hr hstarts
    rw [h] at hother
    rwa [← (Prod.mk.inj (Option.some.inj hother)).1] at hlen
  constructor
  · exact fun h => ⟨crossReference?_eq h, hmatched h⟩
  · rintro ⟨rfl, h⟩
    obtain ⟨other, behind, hother, -⟩ := exists_crossReference?_of_starts h.mem h.starts
    obtain rfl := h.unique (hmatched hother)
    rw [hother, List.append_cancel_left (crossReference?_eq hother)]

theorem crossReference?_eq_none_iff {t : Text} :
    crossReference? t = none ↔ ∀ r ∈ references, ¬ r <+: t := by
  constructor
  · intro h r hr hstarts
    obtain ⟨found, rest, hfound, -⟩ := exists_crossReference?_of_starts hr hstarts
    rw [h] at hfound
    cases hfound
  · intro h
    cases hfound : crossReference? t with
    | none => rfl
    | some sides =>
      have hmatched := (crossReference?_eq_some_iff.1 hfound).2
      exact absurd hmatched.starts (h _ hmatched.mem)

end CallDoc.Section
