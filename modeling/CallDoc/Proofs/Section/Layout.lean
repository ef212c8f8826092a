import CallDoc.Proofs.Markup.FieldList

/-!
Items with descriptions in plain prose are laid out as fields.
-/
namespace CallDoc.Section

open Text

/-! ## Hanging descriptions -/

section Hang

variable {lines : List Text}

theorem firstIndent?_of_prose (h : IsProseLines lines) : firstIndent? lines = some 0 := by
  obtain ⟨first, more, rfl⟩ := List.exists_cons_of_ne_nil h.ne_nil
  have hsolid := isSolid_of_isProse (h.prose first List.mem_cons_self)
  have hfirst : (first :: more).find? (fun line => !line.isEmpty) = some first :=
    List.find?_cons_of_pos (by simp [hsolid.ne_nil])
  rw [firstIndent?, hfirst]
  exact congrArg some (hsolid.indent 0)

/-- Prose begins neither a list nor a definition. -/
theorem isList_of_prose (h : ∀ line ∈ lines, isProse line = true) : isList lines = false := by
  cases lines with
  | nil => rfl
  | cons first more =>
    obtain ⟨hfirst, hmore⟩ := List.forall_mem_cons.1 h
    obtain ⟨c, u, rfl, hc⟩ := isProse_head hfirst
    have hbulleted : isBulleted (c :: u) = false := by
      have hne (d : Char) (hd : isMark d = true) : (c == d) = false :=
        beq_eq_false_iff_ne.2 (ne_of_isProseCharacter hc hd)
      rw [isBulleted, hne '*' (by decide), hne '+' (by decide), hne '-' (by decide)]
      rfl
    have henumerated : isEnumerated (c :: u) = false := by
      have hdot : '.' ∉ c :: u := fun hmem =>
        isProse_ne hfirst hmem (by decide) (by decide) rfl
      unfold isEnumerated
      dsimp only
      split
      · rename_i t he
        exact absurd (List.cons.inj he).1 (ne_of_isProseCharacter hc (by decide))
      · rw [splitFirst?_of_not_mem hdot]
        rfl
    have hindent : indent (c :: u) = 0 := (isSolid_of_isProse hfirst).indent 0
    have hbelow : (firstIndent? more).getD 0 = 0 := by
      cases more with
      | nil => rfl
      | cons next more => rw [firstIndent?_of_prose ⟨List.cons_ne_nil next more, hmore⟩]; rfl
    rw [isList, hbulleted, henumerated, hindent, hbelow]
    simp

theorem hangable_of_prose (h : IsProseLines lines) : hangable lines = lines := by
  obtain ⟨first, more, rfl⟩ := List.exists_cons_of_ne_nil h.ne_nil
  have hcolons : endsWith "::".toList first = false := by
    rw [endsWith, Option.isSome_eq_false_iff, Option.isNone_iff_eq_none]
    refine Option.eq_none_iff_forall_ne_some.2 fun lead hlead => ?_
    refine isProse_ne (h.prose first List.mem_cons_self) (c := ':') ?_ (d := ':') (by decide)
      (by decide) rfl
    rw [before?_eq_some_iff.1 hlead]
    simp
  rw [hangable, isList_of_prose h.prose, if_neg Bool.false_ne_true, hcolons,
    if_neg Bool.false_ne_true]

theorem hangLines_of_prose {first : Text} {more : List Text}
    (h : ∀ line ∈ first :: more, isProse line = true) (lead : Text) :
    hangLines lead (first :: more) = (lead ++ first) :: pad lead.length more := by
  obtain ⟨hfirst, hmore⟩ := List.forall_mem_cons.1 h
  rw [hangLines, (isSolid_of_isProse hfirst).trimEnd_append, pad]
  refine congrArg _ (List.map_congr_left fun line hline => ?_)
  rw [if_neg (by simp [(isSolid_of_isProse (hmore line hline)).ne_nil])]

end Hang

/-! ## Fields -/

section Fields

variable {item : Item} {first : Text} {more : List Text}

/-- The description hangs below the text of the field, and the type has a field of its own. -/
theorem paramFields_eq (role typeRole : Text)
    (hprose : ∀ line ∈ first :: more, isProse line = true)
    (hitem : described item = first :: more) :
    paramFields role typeRole item =
      Field.lines ⟨role, item.name, (fieldMark role item.name).length + 1, first :: more⟩ ++
        if item.type.isEmpty then [] else Field.lines ⟨typeRole, item.name, 1, [item.type]⟩ := by
  have hhang : hangLines (fieldMark role item.name ++ [' ']) (hangable (first :: more)) =
      Field.lines ⟨role, item.name, (fieldMark role item.name).length + 1, first :: more⟩ := by
    rw [hangable_of_prose ⟨List.cons_ne_nil first more, hprose⟩, hangLines_of_prose hprose,
      Field.lines_eq rfl, List.length_append]
    rfl
  rw [paramFields, hitem, hhang]
  simp [Field.lines, Field.mark, pad]

theorem joinWith_newline_spaces (n : Nat) (first : Text) (more : List Text) :
    joinWith ('\n' :: spaces n) (first :: more) = unlines (first :: pad n more) := by
  induction more generalizing first with
  | nil => rw [joinWith, List.intercalate_singleton]; exact (unlines_singleton first).symm
  | cons next more ih =>
    have hpad : pad n (next :: more) = (spaces n ++ next) :: pad n more := rfl
    unfold joinWith at ih ⊢
    rw [List.intercalate_cons_cons, ih next, hpad, unlines_cons_cons, unlines_append_head]
    simp

/-- What does not start with a colon is no cross reference. -/
theorem errorName_eq {name : Text} (hname : IsSolid name) (hcolon : name.head? ≠ some ':') :
    errorName name = name := by
  obtain ⟨c, u, rfl⟩ := List.exists_cons_of_ne_nil hname.ne_nil
  have hstart : trimStart (c :: u) = c :: u := hname.trimStart_append [] rfl
  have hc : c ≠ ':' := fun he => hcolon (congrArg some he)
  rw [errorName, objectName?, hstart]
  unfold plainObjectName?
  split
  · rename_i role name rest he
    split at he
    · rename_i t hcons
      exact absurd (List.cons.inj hcons).1 hc
    · dsimp only at he
      split at he <;> simp at he
  · rfl

theorem errorName_of_isWord {name : Text} (hname : IsWord name) : errorName name = name :=
  errorName_eq hname.isSolid fun he => hname.colon (List.mem_of_head? he)

/-- An error is one line in which the lines of its field are joined. -/
theorem errorField_eq (hname : errorName item.type ≠ []) (hitem : described item = first :: more) :
    errorField item =
      unlines (Field.lines ⟨"raises".toList, errorName item.type, 4, first :: more⟩) := by
  have hne : (errorName item.type).isEmpty = false := by simp [hname]
  have hjoin : joinWith "\n    ".toList (first :: more) = unlines (first :: pad 4 more) :=
    joinWith_newline_spaces 4 first more
  have hmark (t : Text) : ":raises".toList ++ ' ' :: errorName item.type ++ ':' :: ' ' :: t =
      fieldMark "raises".toList (errorName item.type) ++ [' '] ++ t := by simp [fieldMark]
  have hfield : errorField item = fieldMark "raises".toList (errorName item.type) ++ [' '] ++
      joinWith "\n    ".toList (first :: more) := by
    unfold errorField
    rw [hitem, ← hmark]
    simp only [hne, List.isEmpty_cons, Bool.false_eq_true, if_false]
  rw [hfield, hjoin, Field.lines_eq rfl]
  exact (unlines_append_head ..).symm

end Fields

end CallDoc.Section
