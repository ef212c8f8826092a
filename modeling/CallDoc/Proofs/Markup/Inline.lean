import CallDoc.Proofs.Markup.Prose

/-!
Text without interpreted text. Only a role that is not known makes a paragraph fail, and a
role needs a backquote; what is read behind a span is an end of what stood there, so that a
text without backquotes stays one.
-/
namespace CallDoc.Inline

open Text

variable {roles : List Text} {previous? : Option Char} {t : Text}

theorem role_of_not_mem (h : '\x60' ∉ t) : role roles t = .ok none := by
  have hname : roleName? t = none := by
    unfold roleName?
    split
    · rename_i inner hinner
      have hmem : '\x60' ∈ t.dropWhile isRoleCharacter := hinner ▸ List.mem_cons_self
      exact absurd ((List.dropWhile_sublist _).subset hmem) h
    · rfl
  rw [role, hname]

theorem close?_eq {mark content rest : Text} {previous : Char}
    (h : close? mark previous t = some (content, rest)) : t = content ++ mark ++ rest := by
  induction t generalizing previous content with
  | nil => cases h
  | cons c t ih =>
    simp only [close?] at h
    split at h
    · rename_i r hr
      obtain ⟨rfl, rfl⟩ := Prod.mk.inj (Option.some.inj h)
      exact after?_eq_some_iff.1 (Option.filter_eq_some_iff.1 hr).1
    · obtain ⟨⟨u, v⟩, hu, he⟩ := Option.map_eq_some_iff.1 h
      obtain ⟨rfl, rfl⟩ := Prod.mk.inj he
      rw [ih hu]
      rfl

theorem enclosed?_eq {mark content rest : Text}
    (h : enclosed? mark t = some (content, rest)) : t = content ++ mark ++ rest := by
  cases t with
  | nil => cases h
  | cons c t =>
    simp only [enclosed?] at h
    split at h
    · cases h
    · obtain ⟨⟨u, v⟩, hu, he⟩ := Option.map_eq_some_iff.1 h
      obtain ⟨rfl, rfl⟩ := Prod.mk.inj he
      rw [close?_eq hu]
      rfl

theorem unescape_eq_self (h : '\\' ∉ t) : unescape t = t := by
  fun_induction unescape t with
  | case1 => rfl
  | case2 => exact absurd List.mem_cons_self h
  | case3 c t ih => exact absurd List.mem_cons_self h
  | case4 c t hnone hescape ih => rw [ih fun hc => h (.tail c hc)]

/-- Between stars text is emphasized, or it is not; nothing else can begin here. -/
theorem find_of_not_mem (h : '\x60' ∉ t) (roles : List Text) :
    ∃ found?, find roles t = .ok found? ∧ ∀ found, found? = some found → found.rest <:+ t := by
  have hliteral : after? "\x60\x60".toList t = none := by
    refine Option.eq_none_iff_forall_ne_some.2 fun rest hrest => h ?_
    rw [after?_eq_some_iff.1 hrest]
    exact List.mem_cons_self
  unfold find
  rw [hliteral]
  dsimp only
  split
  · rename_i inner hinner
    refine ⟨_, rfl, fun found hfound => ?_⟩
    obtain ⟨⟨content, rest⟩, hrest, rfl⟩ := Option.map_eq_some_iff.1 hfound
    rw [after?_eq_some_iff.1 hinner, enclosed?_eq hrest, ← List.append_assoc]
    exact List.suffix_append _ rest
  · split
    · rename_i inner _
      refine ⟨_, rfl, fun found hfound => ?_⟩
      obtain ⟨⟨content, rest⟩, hrest, rfl⟩ := Option.map_eq_some_iff.1 hfound
      rw [enclosed?_eq hrest, ← List.cons_append]
      exact List.suffix_append _ rest
    · exact absurd List.mem_cons_self h
    · rename_i inner
      exact ⟨none, role_of_not_mem fun hmem => h (.tail _ hmem), nofun⟩
    · exact ⟨none, rfl, nofun⟩

theorem findAfter_of_not_mem (h : '\x60' ∉ t) (roles : List Text) (previous? : Option Char) :
    ∃ found?, findAfter roles previous? t = .ok found? ∧
      ∀ found, found? = some found → found.rest <:+ t := by
  unfold findAfter
  split
  · exact find_of_not_mem h roles
  · exact ⟨none, rfl, nofun⟩

/-- Text without backquotes is never wrong. -/
theorem exists_scan_of_not_mem (h : '\x60' ∉ t) (roles : List Text) (previous? : Option Char) :
    ∃ spans, scan roles previous? t = .ok spans := by
  have hmap {r : Except Error (List Span)} (f : List Span → List Span)
      (hr : ∃ spans, r = .ok spans) : ∃ spans, r.map f = .ok spans := by
    obtain ⟨spans, rfl⟩ := hr
    exact ⟨f spans, rfl⟩
  fun_induction scan roles previous? t with
  | case1 | case2 => exact ⟨_, rfl⟩
  | case3 previous? d t hblank ih => exact ih fun hmem => h (.tail _ (.tail _ hmem))
  | case4 previous? d t hblank ih => exact hmap _ (ih fun hmem => h (.tail _ (.tail _ hmem)))
  | case5 previous? c t hescape e he =>
    obtain ⟨found?, hfound, -⟩ := findAfter_of_not_mem h roles previous?
    rw [hfound] at he
    cases he
  | case6 previous? c t hescape found he ih =>
    obtain ⟨found?, hfound, hrest⟩ := findAfter_of_not_mem h roles previous?
    obtain rfl := Except.ok.inj (hfound.symm.trans he)
    exact hmap _ (ih fun hmem => h ((hrest found rfl).subset hmem))
  | case7 previous? c t hescape hnone hreference ih => exact ih fun hmem => h (.tail _ hmem)
  | case8 previous? c t hescape hnone hreference ih =>
    exact hmap _ (ih fun hmem => h (.tail _ hmem))

end CallDoc.Inline
