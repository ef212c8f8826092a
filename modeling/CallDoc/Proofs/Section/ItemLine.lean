import CallDoc.Proofs.Text.Prose
import CallDoc.Section.Item

/-!
Reading the first line of an item back: the name, the type and the description that the line
was put together from.
-/
namespace CallDoc.Section

open Text

/-! ## Splitting at separators -/

theorem splitLast?_concat (sep : Char) (t : Text) : splitLast? sep (t ++ [sep]) = some (t, []) :=
  splitLast?_append List.not_mem_nil t

theorem splitLast?_of_not_mem {sep : Char} {t : Text} (h : sep ∉ t) :
    splitLast? sep t = none := by
  rw [splitLast?, splitFirst?_of_not_mem (by simpa using h), Option.map_none]

/-! ## The colon of an item -/

theorem crossReference?_of_ne {c : Char} (h : c ≠ ':') (t : Text) :
    crossReference? (c :: t) = none := by
  unfold crossReference?
  split
  · rename_i he
    exact absurd (List.cons.inj he).1 h
  · rfl

theorem crossReference?_colon_space (t : Text) : crossReference? (':' :: ' ' :: t) = none := by
  rw [crossReference?]
  rfl

/-- The two sides with the colon between them are the text. -/
theorem splitLoneColon?_eq {previous? : Option Char} {t before after : Text}
    (h : splitLoneColon? previous? t = some (before, after)) : t = before ++ ':' :: after := by
  fun_induction splitLoneColon? previous? t generalizing before with
  | case1 => cases h
  | case2 previous? c t reference rest href ih =>
    obtain ⟨⟨u, v⟩, hu, he⟩ := Option.map_eq_some_iff.1 h
    obtain ⟨rfl, rfl⟩ := Prod.mk.inj he
    rw [crossReference?_eq href, ih hu, List.append_assoc]
  | case3 previous? c t href hcolon =>
    obtain ⟨rfl, rfl⟩ := Prod.mk.inj (Option.some.inj h)
    rw [hcolon.1, List.nil_append]
  | case4 previous? c t href hcolon ih =>
    obtain ⟨⟨u, v⟩, hu, he⟩ := Option.map_eq_some_iff.1 h
    obtain ⟨rfl, rfl⟩ := Prod.mk.inj he
    rw [ih hu, List.cons_append]

/-- A reference is passed as a whole. -/
theorem splitLoneColon?_of_crossReference? {t reference rest : Text}
    (h : crossReference? t = some (reference, rest)) (previous? : Option Char) :
    splitLoneColon? previous? t =
      (splitLoneColon? none rest).map fun (before, after) => (reference ++ before, after) := by
  cases t with
  | nil => cases h
  | cons c t =>
    rw [splitLoneColon?]
    split
    · rename_i found behind he
      obtain ⟨rfl, rfl⟩ := Prod.mk.inj (Option.some.inj (h.symm.trans he))
      rfl
    · rename_i he
      rw [h] at he
      cases he

/-- Outside references the scan goes on behind each character that is no lone colon. -/
theorem splitLoneColon?_cons {previous? : Option Char} {c : Char} {t : Text}
    (h : crossReference? (c :: t) = none) :
    splitLoneColon? previous? (c :: t) =
      if c = ':' ∧ previous? ≠ some ':' ∧ nextPlain? t ≠ some ':' then some ([], t)
      else (splitLoneColon? (some c) t).map fun (before, after) => (c :: before, after) := by
  rw [splitLoneColon?]
  split
  · rename_i reference rest he
    rw [h] at he
    cases he
  · rfl

theorem splitLoneColon?_cons_of_ne {previous? : Option Char} {c : Char} (h : c ≠ ':') (t : Text) :
    splitLoneColon? previous? (c :: t) =
      (splitLoneColon? (some c) t).map fun (before, after) => (c :: before, after) := by
  rw [splitLoneColon?_cons (crossReference?_of_ne h t), if_neg fun he => h he.1]

theorem splitLoneColon?_append {previous? : Option Char} (hprevious : previous? ≠ some ':')
    {before : Text} (h : ':' ∉ before) (after : Text) :
    splitLoneColon? previous? (before ++ ':' :: ' ' :: after) = some (before, ' ' :: after) := by
  induction before generalizing previous? with
  | nil =>
    have hnext : nextPlain? (' ' :: after) ≠ some ':' := by
      rw [nextPlain?, crossReference?_of_ne (by decide)]
      exact fun he => absurd (Option.some.inj he) (by decide)
    rw [List.nil_append, splitLoneColon?_cons (crossReference?_colon_space after),
      if_pos ⟨rfl, hprevious, hnext⟩]
  | cons c before ih =>
    rw [List.mem_cons, not_or] at h
    have hc : c ≠ ':' := fun he => h.1 he.symm
    rw [List.cons_append, splitLoneColon?_cons_of_ne hc,
      ih (fun he => hc (Option.some.inj he)) h.2]
    rfl

theorem splitLoneColon?_of_not_mem {previous? : Option Char} {t : Text} (h : ':' ∉ t) :
    splitLoneColon? previous? t = none := by
  induction t generalizing previous? with
  | nil => rw [splitLoneColon?]
  | cons c t ih =>
    rw [List.mem_cons, not_or] at h
    rw [splitLoneColon?_cons_of_ne fun he => h.1 he.symm, ih h.2]
    rfl

theorem partition_append {before : Text} (h : ':' ∉ before) (after : Text) :
    partition (before ++ ':' :: ' ' :: after) = (trim before, some (trim (' ' :: after))) := by
  have hnone : (none : Option Char) ≠ some ':' := fun he => nomatch he
  rw [partition, splitLoneColon?_append hnone h]

theorem partition_of_not_mem {line : Text} (h : ':' ∉ line) :
    partition line = (trim line, none) := by
  rw [partition, splitLoneColon?_of_not_mem h]

/-! ## Words and what stands around them -/

/-- A text without blanks, colons and parentheses, as the names of parameters and errors
are. -/
structure IsWord (t : Text) : Prop where
  ne_nil : t ≠ []
  blank : ∀ c ∈ t, isBlank c = false
  mark : ∀ c ∈ t, c ≠ ':' ∧ c ≠ '(' ∧ c ≠ ')'

/-- A text without blanks. -/
structure IsToken (t : Text) : Prop where
  ne_nil : t ≠ []
  blank : ∀ c ∈ t, isBlank c = false

instance (t : Text) : Decidable (IsToken t) :=
  decidable_of_iff (t ≠ [] ∧ (t.all fun c => isBlank c == false) = true)
    ⟨fun h => ⟨h.1, fun c hc => eq_of_beq (List.all_eq_true.1 h.2 c hc)⟩,
      fun h => ⟨h.ne_nil, List.all_eq_true.2 fun c hc => beq_iff_eq.2 (h.blank c hc)⟩⟩

theorem IsToken.isSolid {t : Text} (h : IsToken t) : IsSolid t := by
  constructor
  · obtain ⟨c, u, rfl⟩ := List.exists_cons_of_ne_nil h.ne_nil
    exact ⟨c, u, rfl, h.blank c List.mem_cons_self⟩
  · obtain ⟨u, c, rfl⟩ := (List.eq_nil_or_concat' t).resolve_left h.ne_nil
    exact ⟨u, c, rfl, h.blank c (by simp)⟩

theorem IsWord.isToken {t : Text} (h : IsWord t) : IsToken t := ⟨h.ne_nil, h.blank⟩

theorem IsWord.isSolid {t : Text} (h : IsWord t) : IsSolid t := h.isToken.isSolid

theorem IsWord.colon {t : Text} (h : IsWord t) : ':' ∉ t := fun hmem => (h.mark ':' hmem).1 rfl

theorem IsWord.paren {t : Text} (h : IsWord t) : ')' ∉ t := fun hmem => (h.mark ')' hmem).2.2 rfl

section Form

variable {name type description : Text} {n : Nat}

theorem typedName?_append (hname : IsWord name) (htype : isProse type = true) :
    typedName? (name ++ " (".toList ++ type ++ [')']) = some (name, type) := by
  obtain ⟨c, u, rfl⟩ := List.exists_cons_of_ne_nil hname.ne_nil
  have hopen : '(' ∉ u ++ [' '] := by
    rw [List.mem_append, List.mem_singleton, not_or]
    exact ⟨fun hmem => (hname.mark '(' (List.mem_cons_of_mem c hmem)).2.1 rfl, by decide⟩
  have hsplit : splitFirst? '(' (u ++ " (".toList ++ type) = some (u ++ [' '], type) := by
    have hshape : u ++ " (".toList ++ type = (u ++ [' ']) ++ '(' :: type := by simp
    rw [hshape, splitFirst?_append hopen]
  have hsolid := isSolid_of_isProse htype
  have htrim : trimEnd (c :: (u ++ [' '])) = c :: u := by
    rw [← List.cons_append, trimEnd, dropEndWhile_append (by simp; decide)]
    exact hname.isSolid.trimEnd
  rw [typedName?, splitLast?_concat]
  simp only [List.cons_append]
  rw [hsplit, Option.bind_some]
  dsimp only
  rw [if_neg (by simp [hsolid.blank]), htrim, hsolid.trim]

theorem typedName?_of_not_mem (hparen : ')' ∉ name) : typedName? name = none := by
  rw [typedName?, splitLast?_of_not_mem hparen]

/-- What stands before the colon of an item, indented, and its description. -/
theorem partition_item {head : Text} (hhead : IsSolid head) (hcolon : ':' ∉ head)
    (hdescription : IsSolid description) (n : Nat) :
    partition (spaces n ++ head ++ ": ".toList ++ description) = (head, some description) := by
  have hlead : ':' ∉ spaces n ++ head := by
    rw [List.mem_append, not_or]
    exact ⟨fun hmem => absurd (List.eq_of_mem_replicate hmem) (by decide), hcolon⟩
  have hshape : spaces n ++ head ++ ": ".toList ++ description =
      (spaces n ++ head) ++ ':' :: ' ' :: description := by simp
  rw [hshape, partition_append hlead, hhead.trim_append _ (blank_spaces n)]
  exact congrArg (head, some ·) (hdescription.trim_append [' '] rfl)

theorem escapeStars_of_head {t : Text} (h : t.head? ≠ some '*') : escapeStars t = t := by
  unfold escapeStars
  split
  · exact absurd rfl h
  · exact absurd rfl h
  · rfl

theorem ofLine_google_typed (hname : IsWord name) (htype : isProse type = true)
    (hdescription : IsSolid description) (n : Nat) :
    Item.ofLine .google ⟨true, false⟩
      (spaces n ++ (name ++ " (".toList ++ type ++ [')']) ++ ": ".toList ++ description) =
      ⟨escapeStars name, type, [description]⟩ := by
  have hclosed : IsSolid [')'] := ⟨⟨')', [], rfl, rfl⟩, ⟨[], ')', rfl, rfl⟩⟩
  have hhead : IsSolid (name ++ " (".toList ++ type ++ [')']) := by
    have := hname.isSolid.of_append (b := " (".toList ++ type) hclosed
    simpa [List.append_assoc] using this
  have hcolon : ':' ∉ name ++ " (".toList ++ type ++ [')'] := by
    intro hmem
    simp only [List.mem_append] at hmem
    rcases hmem with ((hmem | hmem) | hmem) | hmem
    · exact (hname.mark ':' hmem).1 rfl
    · revert hmem
      decide
    · exact isProse_ne htype hmem (by decide) (by decide) rfl
    · revert hmem
      decide
  rw [Item.ofLine, partition_item hhead hcolon hdescription]
  dsimp only
  rw [typedName?_append hname htype]
  rfl

/-- What stands before the colon is the name as a whole, unless it ends in parentheses. -/
theorem ofLine_google (hname : IsSolid name) (hcolon : ':' ∉ name) (hparen : ')' ∉ name)
    (hdescription : IsSolid description) (form : ItemForm) (n : Nat) :
    Item.ofLine .google form (spaces n ++ name ++ ": ".toList ++ description) =
      if form.prefersType then ⟨[], escapeStars name, [description]⟩
      else ⟨escapeStars name, [], [description]⟩ := by
  rw [Item.ofLine, partition_item hname hcolon hdescription]
  simp [typedName?_of_not_mem hparen]

theorem ofLine_numpy_typed (hname : IsWord name) (htype : IsSolid type) :
    Item.ofLine .numpy ⟨true, false⟩ (name ++ " : ".toList ++ type) =
      ⟨escapeStars name, type, []⟩ := by
  have hcolon : ':' ∉ name ++ [' '] := by
    rw [List.mem_append, not_or]
    exact ⟨fun hmem => (hname.mark ':' hmem).1 rfl, by decide⟩
  have hshape : name ++ " : ".toList ++ type = (name ++ [' ']) ++ ':' :: ' ' :: type := by simp
  have htrim : trim (name ++ [' ']) = name := by
    rw [trim, trimEnd, dropEndWhile_append (by simp; decide)]
    exact hname.isSolid.trim
  have htype' : trim (' ' :: type) = type := htype.trim_append [' '] rfl
  rw [hshape, Item.ofLine, partition_append hcolon, htrim, htype']
  simp

theorem ofLine_numpy (hname : IsSolid name) (hcolon : ':' ∉ name) :
    Item.ofLine .numpy ⟨true, false⟩ name = ⟨escapeStars name, [], []⟩ := by
  rw [Item.ofLine, partition_of_not_mem hcolon, hname.trim]
  simp

/-- Where types have no place, what stands alone is the type. -/
theorem ofLine_google_error {line head : Text} (h : partition line = (head, some description)) :
    Item.ofLine .google ⟨false, true⟩ line = ⟨[], escapeStars head, [description]⟩ := by
  rw [Item.ofLine, h]
  simp

theorem ofLine_numpy_error (hname : IsSolid name) :
    Item.ofLine .numpy ⟨false, true⟩ name = ⟨[], escapeStars name, []⟩ := by
  rw [Item.ofLine, hname.trim]
  simp

end Form

end CallDoc.Section
