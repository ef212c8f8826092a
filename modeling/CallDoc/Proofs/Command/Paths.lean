import Mathlib.Data.Prod.Lex
import CallDoc.Command.Path
import CallDoc.Proofs.Doc.Params
import CallDoc.Proofs.Text.Lines

/-!
The order of paths is the lexicographic one on their components, so of two paths either one comes
first or they have the same components. The components also tell the place that a path leads to
where no link is on the way. Two paths that go straight down, from the root or from the current
directory, lead to one place only if they have the same components (`components_eq_of_place`); a
path that turns back or starts with a dot can lead where another one does. The entry of a directory
is one component further down (`components_join`).
-/
namespace CallDoc.Path

open Text

variable {p q r : Text} {cwd : List Text}

/-- One path comes before another. -/
def Before (p q : Text) : Prop := componentsBefore (components p) (components q) = true

/-- What a path is compared by: the rank and the name of each component. -/
def sortKey (p : Text) : List (Nat ×ₗ Text) := (components p).map fun c => toLex (rank c, c)

theorem componentBefore_iff (a b : Text) :
    componentBefore a b = true ↔ toLex (rank a, a) < toLex (rank b, b) := by
  simp only [componentBefore, Prod.Lex.toLex_lt_toLex, Bool.or_eq_true, Bool.and_eq_true,
    decide_eq_true_eq, beq_iff_eq, before_iff_lt]

theorem componentsBefore_iff (s t : List Text) :
    componentsBefore s t = true ↔
      s.map (fun c => toLex (rank c, c)) < t.map fun c => toLex (rank c, c) := by
  induction s generalizing t with
  | nil => cases t <;> simp [componentsBefore]
  | cons a s ih =>
    cases t with
    | nil => simp [componentsBefore]
    | cons b t =>
      have hkey : toLex (rank a, a) = toLex (rank b, b) ↔ a = b :=
        ⟨fun h => congrArg (fun key => (ofLex key).2) h, fun h => h ▸ rfl⟩
      simp only [componentsBefore, Bool.or_eq_true, Bool.and_eq_true, beq_iff_eq, ih,
        componentBefore_iff, List.map_cons, List.cons_lt_cons_iff, hkey]

theorem before_iff_sortKey_lt : Before p q ↔ sortKey p < sortKey q :=
  componentsBefore_iff (components p) (components q)

theorem sortKey_eq_iff : sortKey p = sortKey q ↔ components p = components q :=
  (List.map_injective_iff.2 fun _ _ h => congrArg (fun key => (ofLex key).2) h).eq_iff

theorem Before.trans (hpq : Before p q) (hqr : Before q r) : Before p r := by
  rw [before_iff_sortKey_lt] at *
  exact lt_trans hpq hqr

theorem Before.components_ne (h : Before p q) : components p ≠ components q := by
  rw [before_iff_sortKey_lt] at h
  exact mt sortKey_eq_iff.2 h.ne

theorem before_of_not_before (hne : components p ≠ components q) (h : ¬Before p q) :
    Before q p := by
  rw [before_iff_sortKey_lt, not_lt] at h
  exact before_iff_sortKey_lt.2 (lt_of_le_of_ne h fun he => hne (sortKey_eq_iff.1 he.symm))

/-- The path starts at the root. -/
def IsAbsolute (p : Text) : Prop := (components p).head? = some []

/-- The path neither turns back nor starts with a dot. -/
def IsDescent (p : Text) : Prop := ∀ c ∈ components p, isDots c = false

/-- No component of the path begins with a dot. -/
def IsDotless (p : Text) : Prop := ∀ c ∈ components p, c.head? ≠ some '.'

instance (p : Text) : Decidable (IsAbsolute p) :=
  inferInstanceAs (Decidable (_ = _))

instance (p : Text) : Decidable (IsDotless p) :=
  inferInstanceAs (Decidable (∀ c ∈ components p, c.head? ≠ some '.'))

theorem IsDotless.isDescent (h : IsDotless p) : IsDescent p := by
  intro c hc
  have hdot := h c hc
  simp only [isDots, Bool.or_eq_false_iff, decide_eq_false_iff_not]
  constructor <;> rintro rfl <;> exact hdot rfl

/-- Only the first component can be the root. -/
theorem ne_nil_of_components_eq_cons {first c : Text} {more : List Text}
    (h : components p = first :: more) (hc : c ∈ more) : c ≠ [] := by
  unfold components at h
  split at h
  · exact absurd h.symm (List.cons_ne_nil _ _)
  · exact absurd h.symm (List.cons_ne_nil _ _)
  · obtain ⟨-, rfl⟩ := List.cons.inj h
    rintro rfl
    simp at hc

theorem foldl_advance_of_descent {parts : List Text}
    (h : ∀ c ∈ parts, c ≠ [] ∧ isDots c = false) (start : List Text) :
    parts.foldl advance start = start ++ parts := by
  induction parts generalizing start with
  | nil => exact (List.append_nil start).symm
  | cons c more ih =>
    obtain ⟨hne, hdots⟩ := h c List.mem_cons_self
    have hadvance : advance start c = start ++ [c] := by
      simp only [isDots, Bool.or_eq_false_iff, decide_eq_false_iff_not] at hdots
      simp [advance, hne, hdots.1, hdots.2]
    rw [List.foldl_cons, hadvance, ih fun c hc => h c (List.mem_cons_of_mem _ hc),
      List.append_assoc, List.singleton_append]

theorem place_of_isAbsolute (hp : IsDescent p) (h : IsAbsolute p) : place cwd p = components p := by
  obtain ⟨more, hmore⟩ := List.head?_eq_some_iff.1 h
  have hdown : ∀ c ∈ more, c ≠ [] ∧ isDots c = false := fun c hc =>
    ⟨ne_nil_of_components_eq_cons hmore hc, hp c (hmore ▸ List.mem_cons_of_mem _ hc)⟩
  rw [place, hmore]
  exact foldl_advance_of_descent hdown [[]]

theorem place_of_not_isAbsolute (hp : IsDescent p) (h : ¬IsAbsolute p) :
    place cwd p = cwd ++ components p := by
  cases hparts : components p with
  | nil => rw [place, hparts, List.append_nil]; rfl
  | cons first more =>
    have hfirst : first ≠ [] := fun he => h (by rw [IsAbsolute, hparts, he, List.head?_cons])
    have hdown : ∀ c ∈ first :: more, c ≠ [] ∧ isDots c = false := fun c hc => by
      refine ⟨?_, hp c (hparts ▸ hc)⟩
      rcases List.mem_cons.1 hc with rfl | hc
      · exact hfirst
      · exact ne_nil_of_components_eq_cons hparts hc
    rw [place, hparts, placeFrom_of_ne_nil hfirst, foldl_advance_of_descent hdown]

/-- Two paths straight down from the same place lead to one place only if they have the same
components. -/
theorem components_eq_of_place (hp : IsDescent p) (hq : IsDescent q)
    (hstart : IsAbsolute p ↔ IsAbsolute q) (h : place cwd p = place cwd q) :
    components p = components q := by
  by_cases habs : IsAbsolute p
  · rwa [place_of_isAbsolute hp habs, place_of_isAbsolute hq (hstart.1 habs)] at h
  · rw [place_of_not_isAbsolute hp habs, place_of_not_isAbsolute hq (mt hstart.2 habs)] at h
    exact List.append_cancel_left h

/-! ## Entries of directories -/

theorem components_of_splitOn {first : Text} {more : List Text} (hne : p ≠ [])
    (hp : splitOn '/' p = first :: more) :
    components p = first :: more.filter fun c => !c.isEmpty && c != ['.'] := by
  have hsplit : splitOn '/' p ≠ [[]] := fun h => hne (by rw [← joinWith_splitOn '/' p, h]; rfl)
  unfold components
  rw [hp] at hsplit ⊢
  split
  · contradiction
  · exact absurd ‹_› hsplit
  · rename_i h
    obtain ⟨rfl, rfl⟩ := List.cons.inj h
    rfl

theorem splitOn_of_isName {name : Text} (h : isName name = true) : splitOn '/' name = [name] := by
  simp only [isName, Bool.and_eq_true, Bool.not_eq_true', List.contains_eq_mem,
    decide_eq_false_iff_not] at h
  exact splitOn_of_not_mem h.1.2

theorem ne_nil_of_isName {name : Text} (h : isName name = true) : name ≠ [] := by
  rintro rfl
  cases h

theorem isDots_of_isName {name : Text} (h : isName name = true) : isDots name = false := by
  simp only [isName, Bool.and_eq_true, Bool.not_eq_true'] at h
  exact h.2

/-- A slash at the end makes no difference. -/
theorem components_append_slash (hne : p ≠ []) : components (p ++ ['/']) = components p := by
  obtain ⟨first, more, hp⟩ := List.exists_cons_of_ne_nil (splitOn_ne_nil '/' p)
  have hslash : splitOn '/' (p ++ ['/']) = first :: (more ++ [[]]) := by
    rw [splitOn_append_sep, hp]
    rfl
  rw [components_of_splitOn (by simp) hslash, components_of_splitOn hne hp, List.filter_append]
  exact congrArg _ (List.append_nil _)

theorem components_append_name {name : Text} (h : isName name = true) (p : Text) :
    components (p ++ '/' :: name) = components (p ++ ['/']) ++ [name] := by
  obtain ⟨first, more, hp⟩ := List.exists_cons_of_ne_nil (splitOn_ne_nil '/' p)
  have hkept : (!name.isEmpty && name != ['.']) = true := by
    have hdots := isDots_of_isName h
    simp only [isDots, Bool.or_eq_false_iff, decide_eq_false_iff_not] at hdots
    simp [ne_nil_of_isName h, hdots.1]
  have hslash : splitOn '/' (p ++ ['/']) = first :: (more ++ [[]]) := by
    rw [splitOn_append_sep, hp]
    rfl
  have hname : splitOn '/' (p ++ '/' :: name) = first :: (more ++ [name]) := by
    rw [splitOn_append_sep, hp, splitOn_of_isName h]
    rfl
  rw [components_of_splitOn (by simp) hname, components_of_splitOn (by simp) hslash,
    List.filter_append, List.filter_append, List.filter_singleton, hkept]
  simp

/-- The path of an entry goes one component further than that of the directory. -/
theorem components_join {name : Text} (h : isName name = true) (p : Text) :
    components (join p name) = components p ++ [name] := by
  unfold join
  by_cases hp : p = []
  · subst hp
    exact components_of_splitOn (ne_nil_of_isName h) (splitOn_of_isName h)
  · by_cases hslash : p.getLast? = some '/'
    · obtain ⟨front, rfl⟩ := List.getLast?_eq_some_iff.1 hslash
      rw [if_pos (by simp), List.append_assoc]
      exact components_append_name h front
    · rw [if_neg (by simp [hp, hslash]), components_append_name h, components_append_slash hp]

theorem isDescent_join {name : Text} (hname : isName name = true) (hp : IsDescent p) :
    IsDescent (join p name) := by
  intro c hc
  rw [components_join hname] at hc
  rcases List.mem_append.1 hc with hc | hc
  · exact hp c hc
  · rw [List.mem_singleton.1 hc]
    exact isDots_of_isName hname

theorem isAbsolute_join_iff {name : Text} (hname : isName name = true) :
    IsAbsolute (join p name) ↔ IsAbsolute p := by
  unfold IsAbsolute
  rw [components_join hname]
  cases components p with
  | nil => simp [ne_nil_of_isName hname]
  | cons first more => rfl

end CallDoc.Path
