import CallDoc.Proofs.Outline.Item

/-!
The lines of entries in sections. They keep the section going until the next heading: no
section opens at any of them, and none stands left of the first.
-/
namespace CallDoc

open Text Section

namespace Outline

variable {e : Entry}

/-! ## First lines -/

theorem Entry.spelling_ne_nil (e : Entry) : e.spelling ≠ [] := e.spells_spelling.isWord.ne_nil

theorem Entry.head?_spelling (e : Entry) : e.spelling.head? ≠ some '.' := by
  obtain ⟨c, u, hname, hc⟩ := isName_head e.named
  rw [spelling, hname]
  cases e.stars with
  | zero =>
    intro he
    obtain rfl : c = '.' := Option.some.inj he
    revert hc
    decide
  | succ n => exact fun he => absurd (Option.some.inj he) (by decide)

theorem Entry.head?_typedName (e : Entry) (before after : Text) :
    (e.typedName before after).head? ≠ some '.' := by
  have hhead := e.head?_spelling
  have happend (t : Text) : (e.spelling ++ t).head? = e.spelling.head? :=
    List.head?_append_of_ne_nil _ e.spelling_ne_nil
  cases htype : e.type? with
  | none => rwa [typedName_of_none htype]
  | some type => rwa [typedName_of_some htype, List.append_assoc, List.append_assoc, happend]

theorem Entry.space_typedName (e : Entry) {before after : Text}
    (hbefore : ∀ c ∈ before, isBlank c = true → c = ' ')
    (hafter : ∀ c ∈ after, isBlank c = true → c = ' ') :
    ∀ c ∈ e.typedName before after, isBlank c = true → c = ' ' := by
  have hspelling : ∀ c ∈ e.spelling, isBlank c = true → c = ' ' := fun c hc hblank => by
    rw [e.spells_spelling.isWord.blank c hc] at hblank
    cases hblank
  intro c hc
  cases htype : e.type? with
  | none => exact hspelling c (typedName_of_none htype before after ▸ hc)
  | some type =>
    rw [typedName_of_some htype] at hc
    simp only [List.mem_append] at hc
    rcases hc with ((hc | hc) | hc) | hc
    · exact hspelling c hc
    · exact hbefore c hc
    · exact space_of_isProse (e.typed type htype) c hc
    · exact hafter c hc

theorem Entry.isSolid_typedName (e : Entry) (before : Text) {after : Text}
    (hafter : after = [] ∨ IsSolid after) : IsSolid (e.typedName before after) := by
  have hspelling := e.spells_spelling.isWord.isSolid
  cases htype : e.type? with
  | none => rwa [typedName_of_none htype]
  | some type =>
    rw [typedName_of_some htype]
    rcases hafter with rfl | hafter
    · rw [List.append_nil]
      exact hspelling.of_append (isSolid_of_isProse (e.typed type htype))
    · rw [List.append_assoc e.spelling]
      exact hspelling.of_append hafter

theorem Entry.getLast?_typedName (e : Entry) (before : Text) :
    (e.typedName before []).getLast? ≠ some ':' := by
  cases htype : e.type? with
  | none =>
    rw [typedName_of_none htype]
    exact e.spells_spelling.last_ne (by decide) (by decide)
  | some type =>
    have hprose := e.typed type htype
    rw [typedName_of_some htype, List.append_nil,
      List.getLast?_append_of_ne_nil _ (isSolid_of_isProse hprose).ne_nil]
    exact fun he => isProse_ne hprose (List.mem_of_getLast? he) (by decide) (by decide) rfl

/-! ## The shape of drafts -/

/-- Where the items of a section start. -/
def margin (n : Nat) : Convention → Nat
  | .google => n
  | .numpy => 0

theorem margin_pos {n : Nat} {convention : Convention} (hn : 0 < n) (h : convention = .google) :
    0 < margin n convention := by
  subst h
  exact hn

theorem isSolid_closing : IsSolid [')'] := ⟨⟨')', [], rfl, rfl⟩, ⟨[], ')', rfl, rfl⟩⟩

theorem exists_draft (e : Entry) (n : Nat) (convention : Convention) :
    ∃ t more, IsSolid t ∧ (∀ line ∈ more, isProse line = true) ∧
      e.draft n convention =
        ⟨spaces (margin n convention) ++ t, pad (margin n convention + e.hang) more⟩ := by
  cases convention with
  | google =>
    refine ⟨_, e.more, ?_, e.isProse_more, rfl⟩
    exact (e.isSolid_typedName _ (Or.inr isSolid_closing)).of_append
      (isSolid_of_isProse e.isProse_first)
  | numpy =>
    refine ⟨_, e.lines, e.isSolid_typedName " : ".toList (Or.inl rfl), e.prose, ?_⟩
    rw [margin, Nat.zero_add]
    rfl

/-- An empty line, or none. -/
def IsGap (gap : List Text) : Prop := gap = [] ∨ gap = [[]]

theorem IsGap.eq_nil {gap : List Text} (h : IsGap gap) : ∀ line ∈ gap, line = [] := by
  rcases h with rfl | rfl
  · exact nofun
  · exact fun line hline => List.mem_singleton.1 hline

variable {convention : Convention} {n : Nat} {gap rest : List Text}

theorem hangsAt_pad {t : Text} (ht : IsSolid t) {more : List Text}
    (hmore : ∀ line ∈ more, isProse line = true) {hang : Nat} (hhang : 0 < hang)
    (hgap : IsGap gap) (m : Nat) :
    Draft.HangsAt m ⟨spaces m ++ t, pad (m + hang) more ++ gap⟩ := by
  refine ⟨ht.indent _, by simp [ht.ne_nil], ?_, fun line hline => ?_⟩
  · exact (ht.isIndented _ _).trans (decide_eq_false (Nat.not_succ_le_self _))
  · rcases List.mem_append.1 hline with hline | hline
    · obtain ⟨u, hu, rfl⟩ := List.mem_map.1 hline
      refine Or.inr (((isSolid_of_isProse (hmore u hu)).isIndented _ _).trans ?_)
      exact decide_eq_true (by omega)
    · exact Or.inl (hgap.eq_nil line hline)

theorem hangsAt_spacedDraft (hgap : IsGap gap) :
    (spacedDraft convention n gap e).HangsAt (margin n convention) := by
  obtain ⟨t, more, ht, hmore, hdraft⟩ := exists_draft e n convention
  rw [spacedDraft, hdraft]
  exact hangsAt_pad ht hmore e.hangs hgap _

/-! ## No break within a section -/

/-- In a section with a colon behind its heading a line is no break when it is empty, or ends
in prose and stands in the section's body. -/
theorem unbroken_google {lines : List Text}
    (h : ∀ line ∈ lines, line = [] ∨ EndsInProse line ∧ isIndented n line = true) :
    Unbroken .google (some n) rest lines := by
  induction lines with
  | nil => trivial
  | cons line below ih =>
    obtain ⟨hline, hbelow⟩ := List.forall_mem_cons.1 h
    refine ⟨?_, ih hbelow⟩
    have hopening : opening? .google (line :: (below ++ rest)) = none :=
      opening?_google_none (ofColonLine?_of_prose (hline.imp id And.left)) _
    have hbody : (!line.isEmpty && !isIndented n line) = false := by
      rcases hline with rfl | ⟨-, hindent⟩
      · rfl
      · rw [hindent, Bool.not_true, Bool.and_false]
    rw [List.cons_append, isBreak, hopening, Option.any_some, hbody]
    rfl

theorem isBreak_numpy {line : Text} {below : List Text}
    (hopening : opening? .numpy (line :: below) = none)
    (hempty : line = [] → below.head? ≠ some []) :
    isBreak .numpy (some 0) (line :: below) = false := by
  have hbody : (!line.isEmpty && !isIndented 0 line) = false := by
    cases line with
    | nil => rfl
    | cons c t => simp [isIndented]
  have hgap : (Convention.numpy == Convention.numpy && line.isEmpty &&
      below.head? == some []) = false := by
    cases line with
    | nil => simpa using hempty rfl
    | cons c t => simp
  rw [isBreak, hopening, hgap, Option.any_some, hbody]
  rfl

/-- Indented lines are no titles. -/
theorem unbroken_pad {m : Nat} (hm : 0 < m) (lines : List Text) :
    Unbroken .numpy (some 0) rest (pad m lines) := by
  obtain ⟨k, rfl⟩ := Nat.exists_eq_add_of_lt hm
  induction lines with
  | nil => trivial
  | cons line lines ih =>
    have hpad : pad (0 + k + 1) (line :: lines) =
        (' ' :: (spaces k ++ line)) :: pad (0 + k + 1) lines := by
      rw [pad, List.map_cons, Nat.zero_add]
      rfl
    rw [hpad]
    refine ⟨isBreak_numpy (opening?_numpy_none (Or.inl ?_) ?_) ?_, ih⟩
    · exact ofTitle?_of_mark rfl (c := ' ') rfl
    · exact fun he => absurd (Option.some.inj he) (by decide)
    · exact fun he => absurd he (List.cons_ne_nil _ _)

section Item

variable {head first : Text} {more : List Text} {hang : Nat}
  (hprose : ∀ line ∈ first :: more, isProse line = true)
include hprose

/-- An underlined section goes on at an item with its description below it. -/
theorem unbroken_below (hindex : isIndexEntry head = false) (hne : head ≠ []) (hhang : 0 < hang)
    (hgap : IsGap gap) (hrest : rest.head? ≠ some []) :
    Unbroken .numpy (some 0) rest (head :: (pad hang (first :: more) ++ gap)) := by
  -- what the item is called may well be a title, so its description must not be an underline
  have hunderline : isUnderline (spaces hang ++ first) = false :=
    isUnderline_of_endsInProse (endsInProse_spaces (hprose first List.mem_cons_self) hang)
  refine ⟨isBreak_numpy (opening?_numpy_none_of_index (Or.inr ?_) hindex) ?_, ?_⟩
  · rintro next ⟨⟩
    exact hunderline
  · exact fun he => absurd he hne
  · refine unbroken_append.2 ⟨unbroken_pad hhang (first :: more), ?_⟩
    rcases hgap with rfl | rfl
    · trivial
    · exact ⟨isBreak_numpy (opening?_nil_line rest) fun _ => hrest, trivial⟩

/-- An item with its description behind a colon ends in prose, like the lines below it. -/
theorem endsInProse_behind (hhead : IsSolid head) (hspace : ∀ c ∈ head, isBlank c = true → c = ' ')
    (hn : 0 < n) (hang : Nat) :
    ∀ line ∈ (spaces n ++ (head ++ ": ".toList ++ first)) :: pad (n + hang) more,
      EndsInProse line ∧ isIndented n line = true := by
  obtain ⟨hfirst, hmore⟩ := List.forall_mem_cons.1 hprose
  have hlead : ∀ c ∈ spaces n ++ (head ++ ": ".toList), isBlank c = true → c = ' ' := by
    have hcolon : ∀ c ∈ ": ".toList, isBlank c = true → c = ' ' := forall_mem_of_all (by decide)
    intro c hc
    rcases List.mem_append.1 hc with hc | hc
    · exact space_spaces n c hc
    · exact (List.mem_append.1 hc).elim (hspace c) (hcolon c)
  obtain ⟨m, rfl⟩ := Nat.exists_eq_add_of_lt hn
  refine List.forall_mem_cons.2 ⟨⟨⟨⟨_, first, ?_, hfirst, hlead⟩, ?_⟩, ?_⟩, fun line hline => ?_⟩
  · simp
  · rw [Nat.zero_add, spaces, List.replicate_succ]
    exact fun he => absurd (Option.some.inj he) (by decide)
  · have hsolid : IsSolid (head ++ ": ".toList ++ first) :=
      hhead.of_append (isSolid_of_isProse hfirst)
    exact (hsolid.isIndented _ _).trans (decide_eq_true (Nat.le_refl _))
  · obtain ⟨t, ht, rfl⟩ := List.mem_map.1 hline
    have hprose := hmore t ht
    refine ⟨endsInProse_spaces hprose _, ((isSolid_of_isProse hprose).isIndented _ _).trans ?_⟩
    exact decide_eq_true (Nat.le_add_right _ _)

end Item

theorem unbroken_numpy (hgap : IsGap gap) (hrest : rest.head? ≠ some []) :
    Unbroken .numpy (some 0) rest (spacedDraft .numpy n gap e).lines :=
  unbroken_below e.prose (isIndexEntry_of_head (e.head?_typedName _ _))
    (e.isSolid_typedName " : ".toList (Or.inl rfl)).ne_nil e.hangs hgap hrest

theorem endsInProse_google (hn : 0 < n) :
    ∀ line ∈ (e.draft n .google).lines, EndsInProse line ∧ isIndented n line = true := by
  have hopening : ∀ c ∈ " (".toList, isBlank c = true → c = ' ' := forall_mem_of_all (by decide)
  have hclosing : ∀ c ∈ [')'], isBlank c = true → c = ' ' := forall_mem_of_all (by decide)
  exact endsInProse_behind e.prose (e.isSolid_typedName _ (Or.inr isSolid_closing))
    (e.space_typedName hopening hclosing) hn e.hang

theorem Entry.isTrimmed_draft (e : Entry) (hn : 0 < n) (convention : Convention) :
    ∀ line ∈ (e.draft n convention).lines, IsTrimmed line ∧ line ≠ [] := by
  cases convention with
  | google =>
    intro line hline
    have hprose := (endsInProse_google hn line hline).1
    exact ⟨hprose.isTrimmed, hprose.ne_nil⟩
  | numpy =>
    have hsolid := e.isSolid_typedName " : ".toList (Or.inl rfl)
    have hlast := hsolid.blank_last []
    refine List.forall_mem_cons.2 ⟨⟨⟨?_, hlast⟩, hsolid.ne_nil⟩, fun line hline => ?_⟩
    · exact e.space_typedName (forall_mem_of_all (by decide)) nofun
    · obtain ⟨t, ht, rfl⟩ := List.mem_map.1 hline
      have hprose := endsInProse_spaces (e.prose t ht) e.hang
      exact ⟨hprose.isTrimmed, hprose.ne_nil⟩

/-- No line of an entry ends like a heading with a colon. -/
theorem Entry.getLast?_draft (e : Entry) (n : Nat) :
    ∀ line ∈ (e.draft n .numpy).lines, line.getLast? ≠ some ':' := by
  refine List.forall_mem_cons.2 ⟨e.getLast?_typedName _, fun line hline => ?_⟩
  obtain ⟨t, ht, rfl⟩ := List.mem_map.1 hline
  exact (endsInProse_spaces (e.prose t ht) e.hang).getLast?_ne (by decide)

/-- The section goes on at each line of an entry. -/
theorem unbroken_spacedDraft (hn : 0 < n) (hgap : IsGap gap) (hrest : rest.head? ≠ some []) :
    Unbroken convention (some (margin n convention)) rest
      (spacedDraft convention n gap e).lines := by
  cases convention with
  | google =>
    refine unbroken_google fun line hline => ?_
    have hlines : (spacedDraft .google n gap e).lines = (e.draft n .google).lines ++ gap := rfl
    rw [hlines] at hline
    rcases List.mem_append.1 hline with hline | hline
    · exact Or.inr (endsInProse_google hn line hline)
    · exact Or.inl (hgap.eq_nil line hline)
  | numpy => exact unbroken_numpy hgap hrest

end Outline
end CallDoc
