import CallDoc.Proofs.Section.Heading
import CallDoc.Proofs.Text.Lines
import CallDoc.Section.Canonical

/-!
Lines before a section stay as they are, in their order and with their empty lines: each
part that is cut off them is a piece of the front, and the parts together are all of them.
-/
namespace CallDoc.Section

open Text

variable {convention : Convention} {lines rest : List Text}

/-- No section opens at any of the lines, which stand before `rest`. -/
def Unopened (convention : Convention) (rest : List Text) : List Text → Prop
  | [] => True
  | line :: below =>
    opening? convention (line :: below ++ rest) = none ∧ Unopened convention rest below

/-- The text ends here, or a section opens. -/
def Opens (convention : Convention) (rest : List Text) : Prop :=
  rest = [] ∨ (opening? convention rest).isSome = true

theorem Unopened.of_append {a b : List Text} (h : Unopened convention rest (a ++ b)) :
    Unopened convention rest b := by
  induction a with
  | nil => exact h
  | cons line a ih => exact ih h.2

theorem ofTitle?_nil : Heading.ofTitle? [] = none := Option.not_isSome_iff_eq_none.1 fun h => by
  obtain ⟨c, hc, -⟩ := (Heading.isTitle_of_ofTitle? h).head
  cases hc

theorem opening?_nil_line (below : List Text) : opening? convention ([] :: below) = none := by
  cases convention with
  | google => exact opening?_google_none rfl below
  | numpy => exact opening?_numpy_none (Or.inl ofTitle?_nil) nofun

theorem Opens.head? (h : Opens convention rest) : rest.head? ≠ some [] := by
  intro hhead
  obtain ⟨below, rfl⟩ := List.head?_eq_some_iff.1 hhead
  rcases h with h | h
  · cases h
  · rw [opening?_nil_line] at h
    cases h

theorem takeEmpty_of_head? (h : rest.head? ≠ some []) : takeEmpty rest = ([], rest) := by
  cases rest with
  | nil => rfl
  | cons line below =>
    have hline : line.isEmpty = false := by
      cases line with
      | nil => exact absurd rfl h
      | cons => rfl
    rw [takeEmpty, List.takeWhile_cons_of_neg (by simp [hline]),
      List.dropWhile_cons_of_neg (by simp [hline])]

theorem takeEmpty_append_rest (hrest : rest.head? ≠ some []) (lines : List Text) :
    takeEmpty (lines ++ rest) = ((takeEmpty lines).1, (takeEmpty lines).2 ++ rest) := by
  induction lines with
  | nil => exact takeEmpty_of_head? hrest
  | cons line lines ih =>
    cases line with
    | nil =>
      obtain ⟨h1, h2⟩ := Prod.mk.inj ih
      exact Prod.ext (congrArg ([] :: ·) h1) h2
    | cons c t => rfl

theorem head?_takeEmpty_snd (lines : List Text) : (takeEmpty lines).2.head? ≠ some [] := by
  induction lines with
  | nil => exact nofun
  | cons line lines ih =>
    cases line with
    | nil => exact ih
    | cons c t => simp [takeEmpty]

theorem takeUnbroken_of_unopened (h : Unopened convention rest lines)
    (hrest : Opens convention rest) :
    ∃ body more, lines = body ++ more ∧
      takeUnbroken convention none (lines ++ rest) = (body, more ++ rest) := by
  induction lines with
  | nil =>
    refine ⟨[], [], rfl, ?_⟩
    cases rest with
    | nil => rfl
    | cons line below =>
      have hopen : (opening? convention (line :: below)).isSome = true := by
        rcases hrest with hrest | hrest
        · cases hrest
        · exact hrest
      rw [List.nil_append, takeUnbroken, isBreak, hopen]
      rfl
  | cons line below ih =>
    obtain ⟨body, more, rfl, htaken⟩ := ih h.2
    rw [List.cons_append, takeUnbroken]
    split
    · exact ⟨[], line :: (body ++ more), rfl, rfl⟩
    · exact ⟨line :: body, more, rfl, by rw [htaken]⟩

theorem takeSection_of_unopened (h : Unopened convention rest lines)
    (hrest : Opens convention rest) (hhead : (lines ++ rest).head? ≠ some []) :
    ∃ taken more, lines = taken ++ more ∧ more.head? ≠ some [] ∧
      takeSection convention none (lines ++ rest) = (taken, more ++ rest) := by
  obtain ⟨body, more, rfl, htaken⟩ := takeUnbroken_of_unopened h hrest
  refine ⟨body ++ (takeEmpty more).1, (takeEmpty more).2, ?_, head?_takeEmpty_snd more, ?_⟩
  · rw [List.append_assoc, takeEmpty_append]
  · rw [takeSection, takeEmpty_of_head? hhead, htaken]
    dsimp only
    rw [takeEmpty_append_rest hrest.head?]

theorem takeParagraph_of_unopened (h : Unopened convention rest lines)
    (hrest : Opens convention rest) :
    ∃ taken more, lines = taken ++ more ∧ more.head? ≠ some [] ∧
      takeParagraph convention (lines ++ rest) = (taken, more ++ rest) := by
  induction lines with
  | nil =>
    refine ⟨[], [], rfl, nofun, ?_⟩
    cases rest with
    | nil => rfl
    | cons line below =>
      have hopen : (opening? convention (line :: below)).isSome = true := by
        rcases hrest with h | h
        · cases h
        · exact h
      rw [List.nil_append, takeParagraph, hopen, Bool.or_true, if_pos rfl]
      exact takeEmpty_of_head? hrest.head?
  | cons line below ih =>
    obtain ⟨taken, more, hbelow, hhead, htaken⟩ := ih h.2
    rw [List.cons_append, takeParagraph]
    split
    · rw [← List.cons_append, takeEmpty_append_rest hrest.head?]
      exact ⟨_, _, (takeEmpty_append (line :: below)).symm, head?_takeEmpty_snd _, rfl⟩
    · exact ⟨line :: taken, more, by rw [hbelow]; rfl, hhead, by rw [htaken]⟩

theorem canonicalParts_cons (inner : List Text → List Text) (started : Bool) (line : Text)
    (below : List Text) :
    canonicalParts convention inner started (line :: below) =
      ((nextPart convention started (line :: below)).1.mapDescriptions inner).lines convention ++
        canonicalParts convention inner
          (started || !(((nextPart convention started (line :: below)).1.mapDescriptions
            inner).lines convention).isEmpty)
          (nextPart convention started (line :: below)).2 := by
  rw [canonicalParts]

/-- Lines at which no section opens are their own canonical form. -/
theorem canonicalParts_of_unopened (inner : List Text → List Text) (started : Bool)
    (h : Unopened convention rest lines) (hrest : Opens convention rest)
    (hhead : lines.head? ≠ some []) :
    canonicalParts convention inner started (lines ++ rest) =
      lines ++ canonicalParts convention inner (started || !lines.isEmpty) rest := by
  -- on the number of lines: every part takes some from the front and leaves the others
  induction hlen : lines.length using Nat.strongRecOn generalizing lines started with
  | ind n ih =>
    cases lines with
    | nil => simp
    | cons line below =>
      obtain ⟨taken, more, hsplit, hmore, hnext⟩ : ∃ taken more, line :: below = taken ++ more ∧
          more.head? ≠ some [] ∧
          nextPart convention started (line :: below ++ rest) = (.plain taken, more ++ rest) := by
        rw [nextPart, h.1]
        cases started with
        | true =>
          obtain ⟨taken, more, hsplit, hmore, htaken⟩ := takeSection_of_unopened h hrest hhead
          exact ⟨taken, more, hsplit, hmore, by simp only [if_true, htaken]⟩
        | false =>
          obtain ⟨taken, more, hsplit, hmore, htaken⟩ := takeParagraph_of_unopened h hrest
          exact ⟨taken, more, hsplit, hmore, by simp only [Bool.false_eq_true, if_false, htaken]⟩
      have hshorter := nextPart_shorter convention started line (below ++ rest)
      rw [← List.cons_append, hnext] at hshorter
      have htotal := congrArg List.length hsplit
      simp only [List.length_append, List.length_cons] at hshorter htotal hlen
      have hne : taken ≠ [] := by
        rintro rfl
        simp at htotal
        omega
      have hrec := ih more.length (by omega) (started || !taken.isEmpty)
        (Unopened.of_append (hsplit ▸ h)) hmore rfl
      rw [List.cons_append, canonicalParts_cons, ← List.cons_append, hnext]
      change taken ++ canonicalParts convention inner (started || !taken.isEmpty) (more ++ rest) = _
      have hempty : taken.isEmpty = false := by simpa using hne
      have hall : (taken ++ more).isEmpty = false := by simp [hne]
      rw [hrec, hsplit, List.append_assoc, hempty, hall, Bool.not_false, Bool.or_true, Bool.true_or]

/-- Before the first section a docstring stays as it is, with all its empty lines. -/
theorem canonical_of_unopened (htrim : ∀ line ∈ lines ++ rest, trimEnd line = line)
    (h : Unopened convention rest lines) (hrest : Opens convention rest) :
    canonical convention (lines ++ rest) =
      lines ++ canonicalParts convention (canonical convention) (!lines.isEmpty) rest := by
  have hmap : (lines ++ rest).map trimEnd = lines ++ rest :=
    (List.map_congr_left htrim).trans (List.map_id _)
  -- the empty lines at the start are taken before a section is looked for
  have hlead := takeEmpty_append lines
  have hafter : Unopened convention rest (takeEmpty lines).2 :=
    Unopened.of_append (hlead.symm ▸ h)
  have hstarted : (!(takeEmpty lines).1.isEmpty || !(takeEmpty lines).2.isEmpty) =
      !lines.isEmpty := by
    rw [← Bool.not_and, ← congrArg List.isEmpty hlead]
    cases (takeEmpty lines).1 <;> rfl
  rw [canonical_eq, hmap, takeEmpty_append_rest hrest.head?]
  dsimp only
  rw [canonicalParts_of_unopened _ _ hafter hrest (head?_takeEmpty_snd lines), hstarted,
    ← List.append_assoc, hlead]

theorem canonical_eq_self (htrim : ∀ line ∈ lines, trimEnd line = line)
    (h : Unopened convention [] lines) : canonical convention lines = lines := by
  have hwhole : canonical convention (lines ++ []) = _ :=
    canonical_of_unopened (by simpa using htrim) h (Or.inl rfl)
  rw [canonicalParts] at hwhole
  simpa using hwhole

theorem unopened_google (h : ∀ line ∈ lines, Heading.ofColonLine? line = none) :
    Unopened .google rest lines := by
  induction lines with
  | nil => trivial
  | cons line below ih =>
    obtain ⟨hline, hbelow⟩ := List.forall_mem_cons.1 h
    exact ⟨opening?_google_none hline _, ih hbelow⟩

theorem unopened_numpy (h : ∀ line ∈ lines, Heading.ofTitle? line = none ∧ line.head? ≠ some '.') :
    Unopened .numpy rest lines := by
  induction lines with
  | nil => trivial
  | cons line below ih =>
    obtain ⟨⟨htitle, hhead⟩, hbelow⟩ := List.forall_mem_cons.1 h
    exact ⟨opening?_numpy_none (Or.inl htitle) hhead, ih hbelow⟩

/-! ## Lines that end in prose -/

theorem isUnderline_of_endsInProse {line : Text} (h : EndsInProse line) :
    isUnderline line = false := by
  obtain ⟨c, hc, hprose⟩ := h.last
  have hnot : isUnderlineCharacter c = false := by
    cases hunder : isUnderlineCharacter c with
    | false => rfl
    | true =>
      exact absurd rfl (ne_of_isProseCharacter hprose (isMark_of_isUnderlineCharacter hunder))
  exact isUnderline_of_last hc (isBlank_of_isProseCharacter hprose) hnot

/-- Neither convention opens a section at a line that ends in prose, or at an empty one, when
no underline is below. -/
theorem opening?_of_prose {line : Text} {below : List Text} (h : line = [] ∨ EndsInProse line)
    (hnext : ∀ next, below.head? = some next → isUnderline next = false) :
    opening? convention (line :: below) = none := by
  cases convention with
  | google => exact opening?_google_none (ofColonLine?_of_prose h) below
  | numpy =>
    rcases h with rfl | h
    · exact opening?_nil_line below
    · exact opening?_numpy_none (Or.inr hnext) h.head

theorem unopened_of_prose (h : ∀ line ∈ lines, line = [] ∨ EndsInProse line)
    (hrest : ∀ next, rest.head? = some next → isUnderline next = false) :
    Unopened convention rest lines := by
  induction lines with
  | nil => trivial
  | cons line below ih =>
    obtain ⟨hline, hbelow⟩ := List.forall_mem_cons.1 h
    refine ⟨opening?_of_prose hline ?_, ih hbelow⟩
    cases below with
    | nil => exact hrest
    | cons next below =>
      rintro l ⟨⟩
      rcases hbelow next List.mem_cons_self with rfl | hnext
      · rfl
      · exact isUnderline_of_endsInProse hnext

theorem canonical_of_prose (h : ∀ line ∈ lines, line = [] ∨ EndsInProse line) :
    canonical convention lines = lines := by
  refine canonical_eq_self (fun line hline => ?_) (unopened_of_prose h nofun)
  exact (isTrimmed_of_prose (h line hline)).trimEnd

end CallDoc.Section
