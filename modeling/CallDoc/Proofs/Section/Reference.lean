import CallDoc.Proofs.Section.Layout

/-!
Cross references at the start of items. The colon that ends the first part of an item is looked for
behind a reference, and an error that is given as a reference is called by its target, unless the
target or the role holds more than a name.
-/
namespace CallDoc.Section

open Text

variable {role target : Text}

/-- A role with its target in backquotes. -/
def reference (role target : Text) : Text := ':' :: role ++ ":\x60".toList ++ target ++ ['\x60']

/-- The role and the target make up a cross reference, which the header of a field can hold. -/
structure IsReference (role target : Text) : Prop where
  role : isRolePath false role = true
  ne_nil : target ≠ []
  unquoted : '\x60' ∉ target
  space : ∀ c ∈ target, isBlank c = true → c = ' '
  unsplit : StaysOpen (target ++ ['\x60'])

/-! ## Roles -/

theorem isRolePath_mem {afterWord : Bool} {t : Text} (h : isRolePath afterWord t = true) :
    ∀ c ∈ t, isLetterOrDigit c = true ∨ isRoleSeparator c = true := by
  induction t generalizing afterWord with
  | nil => exact List.forall_mem_nil _
  | cons c t ih =>
    rw [isRolePath] at h
    split at h
    · rename_i hc
      exact List.forall_mem_cons.2 ⟨.inl hc, ih h⟩
    · simp only [Bool.and_eq_true] at h
      exact List.forall_mem_cons.2 ⟨.inr h.1.2, ih h.2⟩

/-- A role ends in a letter or a digit. -/
theorem isRolePath_last {afterWord : Bool} {t : Text} (h : isRolePath afterWord t = true)
    (hne : t ≠ []) : ∃ c, t.getLast? = some c ∧ isLetterOrDigit c = true := by
  induction t generalizing afterWord with
  | nil => exact absurd rfl hne
  | cons c t ih =>
    cases t with
    | nil =>
      rw [isRolePath] at h
      split at h
      · exact ⟨c, rfl, ‹_›⟩
      · simp [isRolePath] at h
    | cons d t =>
      obtain ⟨next, hnext⟩ : ∃ next, isRolePath next (d :: t) = true := by
        rw [isRolePath] at h
        split at h
        · exact ⟨true, h⟩
        · exact ⟨false, (Bool.and_eq_true_iff.1 h).2⟩
      obtain ⟨last, hlast, hletter⟩ := ih hnext (List.cons_ne_nil d t)
      exact ⟨last, by rw [List.getLast?_cons_cons, hlast], hletter⟩

theorem ne_nil_of_isRolePath {t : Text} (h : isRolePath false t = true) : t ≠ [] := by
  rintro rfl
  cases h

theorem mem_of_isRoleSeparator {c : Char} (h : isRoleSeparator c = true) : c ∈ "-_+:.".toList := by
  simpa [isRoleSeparator, or_assoc] using h

/-- Neither blanks nor backquotes are in a role. -/
theorem not_mark_of_isRolePath {afterWord : Bool} {t : Text} (h : isRolePath afterWord t = true)
    {c : Char} (hc : c ∈ t) : isBlank c = false ∧ c ≠ '\x60' := by
  rcases isRolePath_mem h c hc with hletter | hseparator
  · have hprose := isProseCharacter_of_isLetterOrDigit hletter
    exact ⟨isBlank_of_isProseCharacter hprose, ne_of_isProseCharacter hprose (by decide)⟩
  · have hall : ∀ c ∈ "-_+:.".toList, isBlank c = false ∧ c ≠ '\x60' :=
      forall_mem_of_all (by decide)
    exact hall c (mem_of_isRoleSeparator hseparator)

/-! ## References as parts of a line -/

theorem isSolid_reference (role target : Text) : IsSolid (reference role target) :=
  ⟨⟨':', _, rfl, rfl⟩, ⟨_, '\x60', rfl, rfl⟩⟩

/-- A target ends at the first backquote behind its first character. -/
theorem crossReference?_quoted (hrole : isRolePath false role = true) {c : Char} {more : Text}
    (hmore : '\x60' ∉ more) (hline : '\n' ∉ c :: more) (rest : Text) :
    crossReference? (reference role (c :: more) ++ rest) =
      some (reference role (c :: more), rest) := by
  have hrun : ∀ d ∈ role ++ [':'], (isLetterOrDigit d || isRoleSeparator d) = true := by
    intro d hd
    rcases List.mem_append.1 hd with hd | hd
    · simpa using isRolePath_mem hrole d hd
    · rw [List.mem_singleton.1 hd]
      rfl
  have hshape : reference role (c :: more) ++ rest =
      ':' :: ((role ++ [':']) ++ '\x60' :: c :: (more ++ '\x60' :: rest)) := by
    simp [reference]
  have hstop (d : Char) (hd : ('\x60' :: c :: (more ++ '\x60' :: rest)).head? = some d) :
      (isLetterOrDigit d || isRoleSeparator d) = false := by
    rw [← Option.some.inj hd]
    rfl
  obtain ⟨htake, hdrop⟩ := span_append_of_head? hstop (role ++ [':'])
  rw [List.takeWhile_eq_self_iff.2 hrun] at htake
  rw [List.dropWhile_eq_nil_iff.2 hrun, List.nil_append] at hdrop
  have hpath : (before? [':'] (role ++ [':'])).any (isRolePath false) = true := by
    rw [before?_eq_some_iff.2 rfl, Option.any_some, hrole]
  rw [hshape, crossReference?, htake, hdrop]
  simp only [hpath, if_true, splitFirst?_append hmore, Option.filter_some, decide_eq_true hline,
    Option.map_some]
  simp [reference]

section Shape

variable (h : IsReference role target)
include h

theorem IsReference.blank {c : Char} (hc : c ∈ reference role target)
    (hblank : isBlank c = true) : c = ' ' := by
  simp only [reference, List.mem_append, List.mem_cons, List.not_mem_nil, or_false] at hc
  rcases hc with (((rfl | hc) | hc) | hc) | rfl
  · cases hblank
  · rw [(not_mark_of_isRolePath h.role hc).1] at hblank
    cases hblank
  · have hall : ∀ c ∈ ":\x60".toList, isBlank c = true → c = ' ' := forall_mem_of_all (by decide)
    exact hall c hc hblank
  · exact h.space c hc hblank
  · cases hblank

/-- A blank in a reference is one in its target. -/
theorem IsReference.space_mem_iff : ' ' ∈ reference role target ↔ ' ' ∈ target := by
  have hrole : ' ' ∉ role := fun hc => by
    have := (not_mark_of_isRolePath h.role hc).1
    cases this
  simp [reference, hrole]

theorem IsReference.staysOpen : StaysOpen (reference role target) := by
  have htail : StaysOpen (role ++ (':' :: '\x60' :: (target ++ ['\x60']))) := by
    have hclosing : StaysOpen (':' :: '\x60' :: (target ++ ['\x60'])) :=
      (h.unsplit.cons fun he => absurd he (by decide)).cons fun _ => rfl
    have hblank : ∀ c ∈ role, isBlank c = false := fun c hc => (not_mark_of_isRolePath h.role hc).1
    clear h
    induction role with
    | nil => exact hclosing
    | cons c role ih =>
      obtain ⟨-, hmore⟩ := List.forall_mem_cons.1 hblank
      refine (ih hmore).cons fun _ => ?_
      cases role with
      | nil => rfl
      | cons d role => exact hmore d List.mem_cons_self
  have hshape : reference role target =
      ':' :: (role ++ (':' :: '\x60' :: (target ++ ['\x60']))) := by simp [reference]
  rw [hshape]
  refine htail.cons fun _ => ?_
  obtain ⟨c, more, hrole⟩ := List.exists_cons_of_ne_nil (ne_nil_of_isRolePath h.role)
  have := (not_mark_of_isRolePath h.role (c := c) (hrole ▸ List.mem_cons_self)).1
  rw [hrole]
  exact this

/-- A reference is found where it stands, with anything behind it. -/
theorem crossReference?_reference (rest : Text) :
    crossReference? (reference role target ++ rest) = some (reference role target, rest) := by
  obtain ⟨c, more, rfl⟩ := List.exists_cons_of_ne_nil h.ne_nil
  have hline : '\n' ∉ c :: more := fun hmem => absurd (h.space _ hmem rfl) (by decide)
  exact crossReference?_quoted h.role (fun hmem => h.unquoted (List.mem_cons_of_mem c hmem)) hline
    rest

/-- No colon of a reference is a lone one. -/
theorem splitLoneColon?_reference (previous? : Option Char) (rest : Text) :
    splitLoneColon? previous? (reference role target ++ rest) =
      (splitLoneColon? none rest).map fun (before, after) =>
        (reference role target ++ before, after) :=
  splitLoneColon?_of_crossReference? (crossReference?_reference h rest) previous?

theorem partition_reference {description : Text} (hdescription : IsSolid description) (n : Nat) :
    partition (spaces n ++ reference role target ++ ": ".toList ++ description) =
      (reference role target, some description) := by
  have hnone : (none : Option Char) ≠ some ':' := fun he => nomatch he
  have hcolon : splitLoneColon? none (": ".toList ++ description) = some ([], ' ' :: description) :=
    @splitLoneColon?_append none hnone [] List.not_mem_nil description
  have hsplit (previous? : Option Char) : splitLoneColon? previous?
      (spaces n ++ (reference role target ++ (": ".toList ++ description))) =
        some (spaces n ++ reference role target, ' ' :: description) := by
    induction n generalizing previous? with
    | zero =>
      rw [spaces, List.replicate_zero, List.nil_append, splitLoneColon?_reference h, hcolon,
        Option.map_some]
      simp only [List.append_nil, List.nil_append]
    | succ n ih =>
      rw [spaces] at ih ⊢
      rw [List.replicate_succ, List.cons_append, splitLoneColon?_cons_of_ne (by decide), ih]
      rfl
  rw [List.append_assoc, List.append_assoc, partition, hsplit]
  dsimp only
  rw [(isSolid_reference role target).trim_append _ (blank_spaces n)]
  exact congrArg (reference role target, some ·) (hdescription.trim_append [' '] rfl)

/-! ## The name of an error -/

omit h in
/-- No word goes on at the target. -/
theorem isWordCharacter_of_head? (rest : Text) (c : Char)
    (hc : (":\x60".toList ++ rest).head? = some c) : isWordCharacter c = false := by
  rw [← Option.some.inj hc]
  decide +kernel

/-- Behind the word that a reference starts with comes its target, unless the role goes on. -/
theorem after?_word (rest : Text) :
    after? ":\x60".toList ((role ++ ":\x60".toList ++ rest).dropWhile isWordCharacter) =
      if role.all isWordCharacter then some rest else none := by
  rw [List.append_assoc, (span_append_of_head? (isWordCharacter_of_head? rest) role).2]
  split
  · rename_i hall
    rw [List.dropWhile_eq_nil_iff.2 (List.all_eq_true.1 hall), List.nil_append]
    exact after?_eq_some_iff.2 rfl
  · rename_i hall
    rw [List.all_eq_true, ← List.dropWhile_eq_nil_iff] at hall
    obtain ⟨d, more, hdrop⟩ := List.exists_cons_of_ne_nil hall
    have hsuffix : d :: more <:+ role := hdrop ▸ List.dropWhile_suffix isWordCharacter
    rw [hdrop, List.cons_append]
    by_cases hd : d = ':'
    · subst hd
      -- a role does not end in a colon, so it goes on behind one
      obtain ⟨last, hlast, hletter⟩ := isRolePath_last h.role (ne_nil_of_isRolePath h.role)
      cases more with
      | nil =>
        obtain ⟨init, hinit⟩ := hsuffix
        rw [← hinit, List.getLast?_concat] at hlast
        rw [← Option.some.inj hlast] at hletter
        cases hletter
      | cons e more =>
        have he := (not_mark_of_isRolePath h.role
          (hsuffix.subset (List.mem_cons_of_mem _ List.mem_cons_self))).2
        exact after?_cons_of_ne he [] _
    · exact after?_cons_of_ne hd _ _

theorem plainObjectName?_reference : plainObjectName? (reference role target) =
    if role.all isWordCharacter && target.all isObjectCharacter then
      some (⟨some role, target⟩, [])
    else none := by
  have hshape : reference role target =
      ':' :: (role ++ ":\x60".toList ++ (target ++ ['\x60'])) := by simp [reference]
  rw [hshape, plainObjectName?, after?_word h]
  by_cases hword : role.all isWordCharacter = true
  · have hquote (d : Char) (hd : ['\x60'].head? = some d) : isObjectCharacter d = false := by
      rw [← Option.some.inj hd]
      rfl
    have hrole :
        (role ++ ":\x60".toList ++ (target ++ ['\x60'])).takeWhile isWordCharacter = role := by
      rw [List.append_assoc, (span_append_of_head? (isWordCharacter_of_head? _) role).1]
      exact List.takeWhile_eq_self_iff.2 (List.all_eq_true.1 hword)
    obtain ⟨htake, hdrop⟩ := span_append_of_head? hquote target
    simp only [hword, if_true, Bool.true_and, hrole, htake, hdrop]
    by_cases hobject : target.all isObjectCharacter = true
    · have hne : (role.isEmpty || target.isEmpty) = false := by
        simp [ne_nil_of_isRolePath h.role, h.ne_nil]
      have hall := List.all_eq_true.1 hobject
      rw [List.dropWhile_eq_nil_iff.2 hall, List.takeWhile_eq_self_iff.2 hall, List.nil_append]
      simp only [hobject, hne, if_true, Bool.false_eq_true, if_false]
    · have hrest : target.dropWhile isObjectCharacter ≠ [] :=
        mt List.dropWhile_eq_nil_iff.1 (mt List.all_eq_true.2 hobject)
      obtain ⟨d, more, hd⟩ := List.exists_cons_of_ne_nil hrest
      have hunquoted : d ≠ '\x60' := by
        rintro rfl
        exact h.unquoted ((List.dropWhile_sublist _).subset (hd ▸ List.mem_cons_self))
      rw [hd, List.cons_append, if_neg hobject]
      split
      · rename_i he
        exact absurd (List.cons.inj he).1 hunquoted
      · rfl
  · simp [hword]

/-- A reference is called by its target if the role is a word and the target is a name; otherwise
it stays as it is written. -/
theorem errorName_reference : errorName (reference role target) =
    if role.all isWordCharacter && target.all isObjectCharacter then target
    else reference role target := by
  have hstart : trimStart (reference role target) = reference role target := trimStart_cons rfl _
  rw [errorName, objectName?, hstart, plainObjectName?_reference h]
  cases role.all isWordCharacter && target.all isObjectCharacter <;> rfl

end Shape

end CallDoc.Section
