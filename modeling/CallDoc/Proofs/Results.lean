import Mathlib.Data.List.Forall2

/-!
Results that may be errors, over lists. A list of readings succeeds exactly when every one
of them does, and fails with the first that does not. A look-up in a list of pairs succeeds for
the keys of the list.
-/
namespace CallDoc

theorem map_eq_ok_iff {α β ε : Type} {f : α → β} {r : Except ε α} {b : β} :
    r.map f = .ok b ↔ ∃ a, r = .ok a ∧ f a = b := by
  cases r <;> simp [Except.map]

theorem map_eq_error_iff {α β ε : Type} {f : α → β} {r : Except ε α} {e : ε} :
    r.map f = .error e ↔ r = .error e := by
  cases r <;> simp [Except.map]

theorem mapError_eq_ok_iff {α ε ε' : Type} {f : ε → ε'} {r : Except ε α} {a : α} :
    r.mapError f = .ok a ↔ r = .ok a := by
  cases r <;> simp [Except.mapError]

theorem bind_eq_ok_iff {α β ε : Type} {f : α → Except ε β} {r : Except ε α} {b : β} :
    (r >>= f) = .ok b ↔ ∃ a, r = .ok a ∧ f a = .ok b := by
  cases r <;> simp [bind, Except.bind]

theorem mapM_eq_ok_iff {α β ε : Type} {f : α → Except ε β} {l : List α} {out : List β} :
    l.mapM f = .ok out ↔ List.Forall₂ (fun a b => f a = .ok b) l out := by
  induction l generalizing out with
  | nil => simp [pure, Except.pure, eq_comm]
  | cons a l ih =>
    rw [List.mapM_cons]
    cases ha : f a with
    | error e =>
      constructor
      · intro h
        cases h
      · intro h
        cases h with
        | cons hb _ => rw [ha] at hb; cases hb
    | ok b =>
      cases hl : l.mapM f with
      | error e =>
        constructor
        · intro h
          cases h
        · intro h
          cases h with
          | cons _ hrest => rw [ih.2 hrest] at hl; cases hl
      | ok bs =>
        have hbs := ih.1 hl
        constructor
        · rintro ⟨⟩
          exact .cons ha hbs
        · intro h
          cases h with
          | cons hb hrest =>
            obtain rfl := Except.ok.inj (ha.symm.trans hb)
            obtain rfl := Except.ok.inj (hl.symm.trans (ih.2 hrest))
            rfl

/-- A list of readings fails with the first that does. -/
theorem mapM_eq_error_iff {α β ε : Type} {f : α → Except ε β} {l : List α} {e : ε} :
    l.mapM f = .error e ↔ ∃ before a after, l = before ++ a :: after ∧
      (∀ b ∈ before, ∃ v, f b = .ok v) ∧ f a = .error e := by
  induction l with
  | nil => simp [pure, Except.pure]
  | cons a l ih =>
    have hcons : (a :: l).mapM f = .error e ↔
        f a = .error e ∨ ∃ v, f a = .ok v ∧ l.mapM f = .error e := by
      rw [List.mapM_cons]
      cases f a <;> cases l.mapM f <;> simp [bind, Except.bind, pure, Except.pure]
    rw [hcons, ih]
    constructor
    · rintro (ha | ⟨v, ha, before, b, after, rfl, hbefore, hb⟩)
      · exact ⟨[], a, l, rfl, List.forall_mem_nil _, ha⟩
      · exact ⟨a :: before, b, after, rfl, List.forall_mem_cons.2 ⟨⟨v, ha⟩, hbefore⟩, hb⟩
    · rintro ⟨_ | ⟨first, before⟩, b, after, hsplit, hbefore, hb⟩
      · obtain ⟨rfl, -⟩ := List.cons.inj hsplit
        exact Or.inl hb
      · obtain ⟨rfl, rfl⟩ := List.cons.inj hsplit
        obtain ⟨⟨v, ha⟩, hmore⟩ := List.forall_mem_cons.1 hbefore
        exact Or.inr ⟨v, ha, before, b, after, rfl, hmore, hb⟩

theorem mapM_eq_some_iff {α β : Type} {f : α → Option β} {l : List α} {out : List β} :
    l.mapM f = some out ↔ List.Forall₂ (fun a b => f a = some b) l out := by
  induction l generalizing out with
  | nil => simp [eq_comm]
  | cons a l ih =>
    rw [List.mapM_cons]
    constructor
    · intro h
      obtain ⟨b, hb, h⟩ := Option.bind_eq_some_iff.1 h
      obtain ⟨rest, hrest, h⟩ := Option.bind_eq_some_iff.1 h
      obtain rfl := Option.some.inj h
      exact .cons hb (ih.1 hrest)
    · intro h
      cases h with
      | cons hb hrest => simp [hb, ih.2 hrest]

/-- Readings of other things that give other results of the same kind do so as a list too. -/
theorem mapM_map_of_forall {α β γ δ ε : Type} {f : α → Except ε β} {f' : γ → Except ε δ}
    {g : α → γ} {h : β → δ} {l : List α} (hl : ∀ a ∈ l, f' (g a) = (f a).map h) :
    (l.map g).mapM f' = (l.mapM f).map (List.map h) := by
  induction l with
  | nil => rfl
  | cons a l ih =>
    obtain ⟨ha, hmore⟩ := List.forall_mem_cons.1 hl
    rw [List.map_cons, List.mapM_cons, List.mapM_cons, ha, ih hmore]
    cases f a with
    | error e => rfl
    | ok b => cases l.mapM f <;> rfl

theorem exists_of_mem_forall₂ {α β : Type} {R : α → β → Prop} {l : List α} {out : List β} {b : β}
    (h : List.Forall₂ R l out) (hb : b ∈ out) : ∃ a ∈ l, R a b := by
  induction h with
  | nil => cases hb
  | cons hR _ ih =>
    rcases List.mem_cons.1 hb with rfl | hb
    · exact ⟨_, List.mem_cons_self, hR⟩
    · obtain ⟨a, ha, hR⟩ := ih hb
      exact ⟨a, List.mem_cons_of_mem _ ha, hR⟩

theorem forall₂_of_forall₂ {α β γ : Type} {R : α → β → Prop} {S : α → γ → Prop}
    {T : β → γ → Prop} {l : List α} {out : List β} {more : List γ} (h : List.Forall₂ R l out)
    (hmore : List.Forall₂ S l more) (hT : ∀ a ∈ l, ∀ b c, R a b → S a c → T b c) :
    List.Forall₂ T out more := by
  induction h generalizing more with
  | nil =>
    cases hmore
    exact .nil
  | cons hR _ ih =>
    cases hmore with
    | cons hS hmore =>
      obtain ⟨hfirst, hrest⟩ := List.forall_mem_cons.1 hT
      exact .cons (hfirst _ _ hR hS) (ih hmore hrest)

/-- An order on a list carries over to what its members are related to. -/
theorem pairwise_of_forall₂ {α β : Type} {R : α → β → Prop} {S : α → α → Prop}
    {T : β → β → Prop} {l : List α} {out : List β} (h : List.Forall₂ R l out)
    (hl : l.Pairwise S) (hT : ∀ a a' b b', R a b → R a' b' → S a a' → T b b') :
    out.Pairwise T := by
  induction h with
  | nil => exact .nil
  | cons hR hrest ih =>
    obtain ⟨hfirst, hl⟩ := List.pairwise_cons.1 hl
    refine List.pairwise_cons.2 ⟨fun b' hb' => ?_, ih hl⟩
    obtain ⟨a', ha', hR'⟩ := exists_of_mem_forall₂ hrest hb'
    exact hT _ a' _ b' hR hR' (hfirst a' ha')

/-- What a list of choices gives was chosen for one of its members. -/
theorem exists_of_mem_mapM {α β : Type} {f : α → Option β} {l : List α} {out : List β}
    (h : l.mapM f = some out) {b : β} (hb : b ∈ out) : ∃ a ∈ l, f a = some b :=
  exists_of_mem_forall₂ (R := fun a b => f a = some b) (mapM_eq_some_iff.1 h) hb

theorem isSome_lookup_iff {α β : Type} [BEq α] [LawfulBEq α] {l : List (α × β)} {key : α} :
    (l.lookup key).isSome = true ↔ key ∈ l.map Prod.fst := by
  rw [List.lookup_isSome_iff, List.mem_map]
  constructor
  · rintro ⟨entry, hentry, he⟩
    exact ⟨entry, hentry, (eq_of_beq he).symm⟩
  · rintro ⟨entry, hentry, rfl⟩
    exact ⟨entry, hentry, beq_self_eq_true _⟩

end CallDoc
