import CallDoc.Proofs.Text.Lines
import CallDoc.Proofs.Type.Reading
import CallDoc.Proofs.Type.Union
import CallDoc.Proofs.Type.Word

/-!
The two ends of a spelling that denotes a type. What a reader leaves is an end of what it was
given, so the last character of a spelling is the last of a name or a closing bracket, and
the first one is that of a name.
-/
namespace CallDoc

open Text

namespace Spelling

/-! ## What is left of a text -/

theorem exists_append_of_eat? {token t rest : Text} (h : eat? token t = some rest) :
    ∃ blanks, blank blanks = true ∧ t = blanks ++ (token ++ rest) := by
  refine ⟨t.takeWhile isBlank, List.all_eq_true.2 fun c => List.mem_takeWhile_imp, ?_⟩
  rw [← after?_eq_some_iff.1 h, trimStart, List.takeWhile_append_dropWhile]

theorem suffix_of_eat? {token t rest : Text} (h : eat? token t = some rest) :
    token ++ rest <:+ t := after?_eq_some_iff.1 h ▸ List.dropWhile_suffix isBlank

theorem behind_of_eat? {token t rest : Text} (h : eat? token t = some rest) : rest <:+ t :=
  (List.suffix_append token rest).trans (suffix_of_eat? h)

theorem exists_append_of_name? {t name rest : Text} (h : name? t = some (name, rest)) :
    ∃ blanks, blank blanks = true ∧ t = blanks ++ (name ++ rest) ∧ name ≠ [] ∧
      ∀ c ∈ name, continuesName c = true := by
  unfold name? at h
  split at h
  · cases h
  · rename_i c u hstart
    split at h
    · rename_i hc
      obtain ⟨rfl, rfl⟩ := Prod.mk.inj (Option.some.inj h)
      refine ⟨t.takeWhile isBlank, List.all_eq_true.2 fun c => List.mem_takeWhile_imp, ?_,
        List.cons_ne_nil _ _, List.forall_mem_cons.2
          ⟨continuesName_of_startsName hc, fun d => List.mem_takeWhile_imp⟩⟩
      rw [List.cons_append, List.takeWhile_append_dropWhile, ← hstart, trimStart,
        List.takeWhile_append_dropWhile]
    · cases h

theorem suffix_of_word? {word t rest : Text} (h : word? word t = some rest) : rest <:+ t := by
  unfold word? at h
  split at h
  · cases h
  · rename_i after hafter
    split at h
    · cases h
    · obtain rfl := Option.some.inj h
      rw [after?_eq_some_iff.1 hafter]
      exact List.suffix_append word after

theorem startsName_of_name? {t name rest : Text} (h : name? t = some (name, rest)) :
    (trimStart t).head?.any startsName = true := by
  unfold name? at h
  split at h
  · cases h
  · rename_i c u hstart
    split at h
    · rename_i hc
      rwa [hstart, List.head?_cons, Option.any_some]
    · cases h

theorem suffix_of_literal? {t rest : Text} {value : Literal}
    (h : literal? t = .ok (some (value, rest))) : rest <:+ t := by
  unfold literal? at h
  dsimp only at h
  split at h
  · split at h
    · rename_i before after hsplit
      obtain ⟨-, rfl⟩ := Prod.mk.inj (Option.some.inj (Except.ok.inj h))
      have hafter : after <:+ t.tail :=
        splitFirst?_eq hsplit ▸ (List.suffix_cons _ after).trans (List.suffix_append before _)
      exact hafter.trans (List.tail_suffix t)
    · cases h
  · split at h
    · split at h
      · obtain ⟨-, rfl⟩ := Prod.mk.inj (Option.some.inj (Except.ok.inj h))
        exact List.drop_suffix _ t
      · cases h
    · split at h
      · rename_i after hafter
        obtain ⟨-, rfl⟩ := Prod.mk.inj (Option.some.inj (Except.ok.inj h))
        exact suffix_of_word? hafter
      · obtain ⟨after, hafter, he⟩ := Option.map_eq_some_iff.1 (Except.ok.inj h)
        obtain ⟨-, rfl⟩ := Prod.mk.inj he
        exact suffix_of_word? hafter

/-- What is read ahead of the rest ends in a bracket, or in a word that no other word runs into
and that is one of the arms or stands for the absent value. -/
inductive EndsIn (arms : List Hint) (rest : Text) : Text → Prop
  | bracket (front : Text) : EndsIn arms rest (front ++ ']' :: rest)
  | word (front : Text) {name : Text} (nonempty : name ≠ [])
      (continues : ∀ c ∈ name, continuesName c = true)
      (apart : ∀ c, front.getLast? = some c → continuesName c = false)
      (arm : (name = "None".toList ∨ name = "NoneType".toList) ∨ .named name ∈ arms) :
    EndsIn arms rest (front ++ (name ++ rest))

section EndsIn

variable {arms others : List Hint} {t rest : Text}

theorem EndsIn.suffix (h : EndsIn arms rest t) : rest <:+ t := by
  cases h with
  | bracket front => exact (List.suffix_cons _ rest).trans (List.suffix_append front _)
  | @word front name => exact (List.suffix_append name rest).trans (List.suffix_append front _)

theorem EndsIn.mono (h : EndsIn arms rest t)
    (hothers : ∀ name, .named name ∈ arms → Hint.named name ∈ others) : EndsIn others rest t := by
  cases h with
  | bracket front => exact .bracket front
  | @word front name nonempty continues apart arm =>
    exact .word front nonempty continues apart (arm.imp_right (hothers name))

/-- Behind a character that is in no word, another text ends as it does alone. -/
theorem EndsIn.append_left (h : EndsIn arms rest t) {before : Text}
    (hbefore : ∀ c, before.getLast? = some c → continuesName c = false) :
    EndsIn arms rest (before ++ t) := by
  cases h with
  | bracket front =>
    rw [← List.append_assoc]
    exact .bracket (before ++ front)
  | @word front name nonempty continues apart arm =>
    rw [← List.append_assoc]
    refine .word (before ++ front) nonempty continues (fun c hc => ?_) arm
    rcases List.eq_nil_or_concat' front with rfl | ⟨front, d, rfl⟩
    · exact hbefore c (by rwa [List.append_nil] at hc)
    · exact apart c (by simpa [← List.append_assoc] using hc)

theorem EndsIn.of_suffix (h : ']' :: rest <:+ t) : EndsIn arms rest t := by
  obtain ⟨front, rfl⟩ := h
  exact .bracket front

theorem EndsIn.of_name? {name : Text} (h : name? t = some (name, rest))
    (harm : (name = "None".toList ∨ name = "NoneType".toList) ∨ .named name ∈ arms) :
    EndsIn arms rest t := by
  obtain ⟨blanks, hblanks, rfl, hne, hname⟩ := exists_append_of_name? h
  refine .word blanks hne hname (fun c hc => ?_) harm
  have hblank := List.all_eq_true.1 hblanks c (List.mem_of_getLast? hc)
  refine Bool.eq_false_iff.2 fun hcontinues => ?_
  rw [isBlank_of_continuesName hcontinues] at hblank
  cases hblank

end EndsIn

theorem mem_flatMap_arms_of_mem {hint : Hint} {hints : List Hint} (h : hint ∈ hints) {arm : Hint}
    (harm : arm ∈ hint.arms) : arm ∈ hints.flatMap Hint.arms :=
  List.mem_flatMap.2 ⟨hint, h, harm⟩

/-- An alternative ends in one of its arms or in a bracket; of an argument an end is left. -/
theorem keptByReading_endsIn :
    KeptByReading (fun t hint rest => EndsIn hint.arms rest t)
      (fun t hints rest => hints = [] ∧ rest = t ∨ ∃ before behind, t = before ++ '|' :: behind ∧
        EndsIn (hints.flatMap Hint.arms) rest behind)
      (fun t hint rest => EndsIn hint.arms rest t) (fun t _ rest => rest <:+ t)
      (fun t _ rest => rest <:+ t) where
  union {t first between more rest} hfirst hmore := by
    have harm (name : Text) (h : Hint.named name ∈ (first :: more).flatMap Hint.arms) :
        Hint.named name ∈ (Hint.unionOf (first :: more)).arms := Hint.mem_arms_unionOf nofun h
    rcases hmore with ⟨rfl, rfl⟩ | ⟨before, behind, rfl, hmore⟩
    · exact hfirst.mono fun name h => harm name (mem_flatMap_arms_of_mem List.mem_cons_self h)
    · obtain ⟨front, rfl⟩ := hfirst.suffix
      have hends := hmore.mono fun name h => harm name (List.mem_append_right _ h)
      have hsplit : front ++ (before ++ '|' :: behind) = (front ++ before ++ ['|']) ++ behind := by
        simp
      rw [hsplit]
      refine hends.append_left fun c hc => ?_
      obtain rfl : '|' = c := by simpa using hc
      exact continuesName_of_mem_delimiters (by decide)
  noAlternative _ := Or.inl ⟨rfl, rfl⟩
  alternative {t behind next between more rest} hbar hnext hmore := by
    obtain ⟨blanks, -, rfl⟩ := exists_append_of_eat? hbar
    rcases hmore with ⟨rfl, rfl⟩ | ⟨before, inner, rfl, hmore⟩
    · refine Or.inr ⟨blanks, behind, rfl, hnext.mono fun name h => ?_⟩
      exact mem_flatMap_arms_of_mem List.mem_cons_self h
    · obtain ⟨front, rfl⟩ := hnext.suffix
      refine Or.inr ⟨blanks ++ '|' :: (front ++ before), inner, by simp, ?_⟩
      exact hmore.mono fun name h => List.mem_append_right _ h
  absent hname habsent := .of_name? hname (Or.inl habsent)
  named hname := .of_name? hname (Or.inr List.mem_cons_self)
  generic hname hopen hfirst hmore hclose _ := by
    obtain ⟨blanks, -, rfl, -⟩ := exists_append_of_name? hname
    refine .of_suffix ((suffix_of_eat? hclose).trans ?_)
    exact ((hmore.trans hfirst).trans (behind_of_eat? hopen)).trans
      ((List.suffix_append _ _).trans (List.suffix_append _ _))
  ellipsis hdots := behind_of_eat? hdots
  literal hvalue := (suffix_of_literal? hvalue).trans (List.dropWhile_suffix isBlank)
  type htype := htype.suffix
  noEntry _ := List.suffix_rfl
  entry hcomma hnext hmore := (hmore.trans hnext).trans (behind_of_eat? hcomma)

/-! ## The two ends -/

/-- No mark but the underscore and the dot is in a name. -/
theorem ne_of_continuesName {c d : Char} (h : continuesName c = true) (hd : isMark d = true)
    (hother : d ≠ '_' ∧ d ≠ '.') : c ≠ d := by
  simp only [continuesName, Bool.or_eq_true, beq_iff_eq] at h
  rcases h with (h | rfl) | rfl
  · exact ne_of_isProseCharacter (by simp [isProseCharacter, h]) hd
  · exact hother.1.symm
  · exact hother.2.symm

theorem ne_of_startsName {c d : Char} (h : startsName c = true) (hd : isMark d = true)
    (hother : d ≠ '_') : c ≠ d := by
  simp only [startsName, Bool.or_eq_true, beq_iff_eq] at h
  rcases h with h | rfl
  · exact ne_of_isProseCharacter (by simp [isProseCharacter, isAlphanumeric, h]) hd
  · exact hother.symm

/-- A piece starts with a name, blanks before it skipped. -/
theorem startsName_of_whole {piece : Text} {hint : Hint} (h : whole piece = .ok hint) :
    (trimStart piece).head?.any startsName = true := by
  unfold whole at h
  split at h
  · cases h
  · rename_i rest hunion
    rw [union] at hunion
    obtain ⟨⟨first, between⟩, hfirst, -⟩ := bind_eq_ok_iff.1 hunion
    rw [primary] at hfirst
    split at hfirst
    · cases hfirst
    · rename_i hname
      exact startsName_of_name? hname

theorem endsIn_of_whole {piece : Text} {hint : Hint} (h : whole piece = .ok hint) :
    ∃ rest, EndsIn hint.arms rest piece ∧ blank rest = true := by
  obtain ⟨depth, rest, hunion, hblank⟩ := exists_union_of_whole h
  exact ⟨rest, keptByReading_endsIn.of_union hunion, hblank⟩

theorem prefix_joinWith (sep first : Text) (more : List Text) :
    first <+: joinWith sep (first :: more) := by
  cases more with
  | nil => exact ⟨[], by simp [joinWith]⟩
  | cons next more =>
    rw [joinWith, List.intercalate_cons_cons, List.append_assoc]
    exact List.prefix_append _ _

theorem exists_append_joinWith (sep last : Text) (init : List Text) :
    ∃ front, joinWith sep (init ++ [last]) = front ++ last ∧ (front = [] ∨ sep <:+ front) := by
  induction init with
  | nil => exact ⟨[], by simp [joinWith], Or.inl rfl⟩
  | cons first init ih =>
    have hne : init ++ [last] ≠ [] :=
      List.append_ne_nil_of_right_ne_nil init (List.cons_ne_nil last [])
    obtain ⟨next, more, hmore⟩ := List.exists_cons_of_ne_nil hne
    obtain ⟨front, hfront, hsep⟩ := ih
    refine ⟨first ++ sep ++ front, ?_, Or.inr ?_⟩
    · rw [List.cons_append, hmore, joinWith, List.intercalate_cons_cons, ← joinWith, ← hmore,
        hfront, List.append_assoc _ front]
    · rcases hsep with rfl | hsep
      · simp
      · exact hsep.trans (List.suffix_append _ _)

theorem splitOr_ne_nil (depth : Nat) (t : Text) : splitOr depth t ≠ [] := by
  have hextend (c : Char) (pieces : List Text) : extendFirst c pieces ≠ [] := by
    cases pieces <;> exact List.cons_ne_nil _ _
  fun_cases splitOr depth t with
  | case1 | case4 => exact List.cons_ne_nil _ _
  | case2 | case3 | case5 | case6 => exact hextend _ _

/-- Nothing but the word is lost between the pieces. -/
theorem joinWith_splitOr (depth : Nat) (t : Text) :
    joinWith " or ".toList (splitOr depth t) = t := by
  fun_induction splitOr depth t with
  | case1 => rfl
  | case2 depth t ih => rw [joinWith_extendFirst, ih]
  | case3 depth t hopen ih => rw [joinWith_extendFirst, ih]
  | case4 c t hopen hclose rest hrest ih =>
    obtain ⟨piece, pieces, hpieces⟩ := List.exists_cons_of_ne_nil (splitOr_ne_nil 0 rest)
    rw [hpieces] at ih ⊢
    rw [after?_eq_some_iff.1 hrest, ← ih]
    rfl
  | case5 depth c t hopen hclose rest hrest hdepth ih => rw [joinWith_extendFirst, ih]
  | case6 depth c t hopen hclose hnone ih => rw [joinWith_extendFirst, ih]

end Spelling

namespace Hint

variable {t : Text} {hint : Hint} (h : ofSpelling t = .ok hint)
include h

theorem exists_whole_of_ofSpelling :
    ∀ piece ∈ Spelling.splitOr 0 t, ∃ hint, Spelling.whole piece = .ok hint := by
  intro piece hpiece
  obtain ⟨hints, hhints, -⟩ := ofSpelling_eq_ok_iff.1 h
  obtain ⟨hint, -, hhint⟩ := exists_of_mem_forall₂ (mapM_eq_ok_iff.1 hhints).flip hpiece
  exact ⟨hint, hhint⟩

/-- A spelling of a type without a blank in front starts as a name does. -/
theorem exists_cons_of_ofSpelling (hsolid : IsSolid t) :
    ∃ c u, t = c :: u ∧ Spelling.startsName c = true := by
  have hjoin := Spelling.joinWith_splitOr 0 t
  obtain ⟨first, more, hpieces⟩ := List.exists_cons_of_ne_nil (Spelling.splitOr_ne_nil 0 t)
  obtain ⟨hint, hhint⟩ :=
    exists_whole_of_ofSpelling h first (hpieces ▸ List.mem_cons_self)
  have hstart := Spelling.startsName_of_whole hhint
  obtain ⟨c, u, rfl, hc⟩ := hsolid.head
  obtain ⟨behind, hbehind⟩ := Spelling.prefix_joinWith " or ".toList first more
  rw [← hpieces, hjoin] at hbehind
  cases first with
  | nil => cases hstart
  | cons d first =>
    obtain rfl := (List.cons.inj hbehind).1
    rw [trimStart_cons hc] at hstart
    exact ⟨d, u, rfl, hstart⟩

/-- A spelling of a type ends in a bracket or in one of its arms, and then in blanks alone. -/
theorem exists_endsIn_of_ofSpelling :
    ∃ rest, Spelling.EndsIn hint.arms rest t ∧ blank rest = true := by
  obtain ⟨hints, hhints, rfl⟩ := ofSpelling_eq_ok_iff.1 h
  obtain ⟨init, last, hpieces⟩ :=
    (List.eq_nil_or_concat' _).resolve_left (Spelling.splitOr_ne_nil 0 t)
  have hlast : last ∈ Spelling.splitOr 0 t := by simp [hpieces]
  obtain ⟨hint, hmem, hwhole⟩ := exists_of_mem_forall₂ (mapM_eq_ok_iff.1 hhints).flip hlast
  obtain ⟨rest, hends, hblank⟩ := Spelling.endsIn_of_whole hwhole
  obtain ⟨front, hfront, hsep⟩ := Spelling.exists_append_joinWith " or ".toList last init
  have ht : t = front ++ last := by rw [← hfront, ← hpieces, Spelling.joinWith_splitOr]
  refine ⟨rest, ?_, hblank⟩
  rw [ht]
  refine (hends.mono fun name harm => ?_).append_left fun c hc => ?_
  · exact mem_arms_unionOf nofun (Spelling.mem_flatMap_arms_of_mem hmem harm)
  · rcases hsep with rfl | ⟨before, rfl⟩
    · cases hc
    · obtain rfl : ' ' = c := by simpa using hc
      exact Spelling.continuesName_of_mem_delimiters (by decide)

/-- A spelling of a type without a blank behind it ends as a name does, or in a bracket. -/
theorem exists_concat_of_ofSpelling (hsolid : IsSolid t) :
    ∃ u c, t = u ++ [c] ∧ (Spelling.continuesName c = true ∨ c = ']') := by
  obtain ⟨rest, hends, hblank⟩ := exists_endsIn_of_ofSpelling h
  -- nothing but blanks is left behind the last piece, and the text does not end in one
  obtain rfl : rest = [] := by
    obtain ⟨front, rfl⟩ := hends.suffix
    rcases List.eq_nil_or_concat' rest with rfl | ⟨rest, d, rfl⟩
    · rfl
    · have hlast : (front ++ (rest ++ [d])).getLast? = some d := by
        rw [← List.append_assoc, List.getLast?_concat]
      have hd := hsolid.blank_last [] d hlast
      rw [List.all_eq_true.1 hblank d (by simp)] at hd
      cases hd
  cases hends with
  | bracket front => exact ⟨front, ']', rfl, Or.inr rfl⟩
  | @word front name nonempty continues =>
    obtain ⟨init, last, rfl⟩ := (List.eq_nil_or_concat' name).resolve_left nonempty
    exact ⟨front ++ init, last, by simp, Or.inl (continues last (by simp))⟩

end Hint

end CallDoc
