import CallDoc.Proofs.Section.Prose

/-!
Rewriting sections comes to an end. A round of it takes the next part from the front of the lines
that are left, and in a section of items a round takes the next item; each takes at least one line.
What is rewritten inside of a part is a description, and has fewer lines than the docstring around
it. A finished rewriting is a derivation of `Rewrites`, which knows of no bound; there is one for
every docstring, and its result is that of `canonical`.
-/
namespace CallDoc.Section

open Text

variable {convention : Convention} {body? : Option Nat} {form : ItemForm} {started : Bool}
  {lines : List Text}

/-- The rounds that take the items of a section, to the break that ends it. -/
inductive ItemRounds (convention : Convention) (body? : Option Nat) (form : ItemForm) :
    List Text → List Item → List Text → Prop
  | stop {lines : List Text} (h : isBreak convention body? lines = true) :
      ItemRounds convention body? form lines [] lines
  | round {line below items rest} (h : isBreak convention body? (line :: below) = false)
      (hrest : ItemRounds convention body? form (takeItem convention body? form line below).2
        items rest) :
      ItemRounds convention body? form (line :: below)
        ((takeItem convention body? form line below).1 :: items) rest

theorem itemRounds_takeItems (convention : Convention) (body? : Option Nat) (form : ItemForm)
    (lines : List Text) : ItemRounds convention body? form lines
      (takeItems convention body? form lines).1 (takeItems convention body? form lines).2 := by
  fun_induction takeItems convention body? form lines with
  | case1 => exact .stop rfl
  | case2 line below hbreak => exact .stop hbreak
  | case3 line below hbreak first rest ih => exact .round (Bool.eq_false_iff.2 hbreak) ih

theorem itemRounds_iff {items : List Item} {rest : List Text} :
    ItemRounds convention body? form lines items rest ↔
      takeItems convention body? form lines = (items, rest) := by
  constructor
  · intro h
    induction h with
    | @stop lines h =>
      unfold takeItems
      split
      · rfl
      · rw [if_pos h]
    | round h _ ih =>
      rw [takeItems, if_neg (by simp [h])]
      dsimp only
      rw [ih]
  · intro h
    have hrounds := itemRounds_takeItems convention body? form lines
    rwa [h] at hrounds

/-- The empty lines that a docstring starts with, and the others. -/
def opened (lines : List Text) : List Text × List Text := takeEmpty (lines.map trimEnd)

/-- What is written for the next part, where `inner` gives what becomes of a description. -/
def written (convention : Convention) (inner : List Text → List Text) (started : Bool)
    (lines : List Text) : List Text :=
  ((nextPart convention started lines).1.mapDescriptions inner).lines convention

/-- A finished rewriting of the lines that are left of a docstring of `given` lines, with its
result. In every round the descriptions in a part are rewritten, `rest` is what is written of them
behind their empty lines, and then the lines after the part are. -/
inductive Rewrites (convention : Convention) : Nat → Bool → List Text → List Text → Prop
  | done {given started} : Rewrites convention given started [] []
  | round {given started line below out} {inner rest : List Text → List Text}
      (hfewer : ∀ description ∈ (nextPart convention started (line :: below)).1.descriptions,
        description.length < given)
      (hrest : ∀ description ∈ (nextPart convention started (line :: below)).1.descriptions,
        Rewrites convention description.length (!(opened description).1.isEmpty)
          (opened description).2 (rest description))
      (hinner : ∀ description ∈ (nextPart convention started (line :: below)).1.descriptions,
        inner description = (opened description).1 ++ rest description)
      (hafter : Rewrites convention given
        (started || !(written convention inner started (line :: below)).isEmpty)
        (nextPart convention started (line :: below)).2 out) :
      Rewrites convention given started (line :: below)
        (written convention inner started (line :: below) ++ out)

/-- A finished rewriting of a docstring, with its result. -/
def Converts (convention : Convention) (lines out : List Text) : Prop :=
  ∃ rest, Rewrites convention lines.length (!(opened lines).1.isEmpty) (opened lines).2 rest ∧
    out = (opened lines).1 ++ rest

theorem opened_length (lines : List Text) : (opened lines).2.length ≤ lines.length := by
  have hrest := (takeEmpty_suffix (lines.map trimEnd)).length_le
  rwa [List.length_map] at hrest

/-- By induction on the number of lines that a docstring has, and on those that are left of it. -/
theorem rewrites_canonicalParts (convention : Convention) {given : Nat} (started : Bool)
    (lines : List Text) (hlines : lines.length ≤ given) :
    Rewrites convention given started lines
      (canonicalParts convention (canonical convention) started lines) := by
  induction given using Nat.strongRecOn generalizing started lines with
  | ind given ih =>
    fun_induction canonicalParts convention (canonical convention) started lines with
    | case1 => exact .done
    | case2 started line below part text ihafter =>
      have hfewer : ∀ description ∈ part.1.descriptions, description.length < given :=
        fun description hmem =>
          Nat.lt_of_lt_of_le (nextPart_description_length _ _ _ description hmem) hlines
      have hshorter : part.2.length < (line :: below).length := nextPart_shorter ..
      exact .round hfewer
        (fun description hmem => ih _ (hfewer description hmem) _ _ (opened_length description))
        (fun description _ => canonical_eq convention description)
        (ihafter (Nat.le_trans (Nat.le_of_lt hshorter) hlines))

theorem Rewrites.eq_canonicalParts {given : Nat} {out : List Text}
    (h : Rewrites convention given started lines out) :
    out = canonicalParts convention (canonical convention) started lines := by
  induction h with
  | done => rw [canonicalParts]
  | @round given started line below out inner rest hfewer hrest hinner hafter ihrest ihafter =>
    have hpart : written convention inner started (line :: below) =
        written convention (canonical convention) started (line :: below) := by
      refine congrArg (Part.lines convention) ?_
      refine Part.mapDescriptions_congr fun description hmem => ?_
      rw [hinner description hmem, ihrest description hmem, canonical_eq]
      rfl
    rw [ihafter, hpart, canonicalParts_cons]
    rfl

theorem converts_iff {out : List Text} :
    Converts convention lines out ↔ out = canonical convention lines := by
  rw [canonical_eq]
  constructor
  · rintro ⟨rest, hrest, rfl⟩
    rw [hrest.eq_canonicalParts]
    rfl
  · rintro rfl
    exact ⟨_, rewrites_canonicalParts convention _ _ (opened_length lines), rfl⟩

/-- Every round takes at least a line, every description is rewritten from fewer lines than there
are around it, and so every docstring is rewritten to its end, in one way. -/
theorem canonical_progress (convention : Convention) :
    (∀ started line below, (nextPart convention started (line :: below)).2 <:+ below) ∧
    (∀ body? form line below, (takeItem convention body? form line below).2 <:+ below) ∧
    (∀ body? form lines items rest, ItemRounds convention body? form lines items rest ↔
      takeItems convention body? form lines = (items, rest)) ∧
    (∀ lines queue, queue <:+ (opened lines).2 → ∀ started,
      ∀ description ∈ (nextPart convention started queue).1.descriptions,
        description.length < lines.length) ∧
    ∀ lines out, Converts convention lines out ↔ out = canonical convention lines := by
  refine ⟨nextPart_suffix_below convention, takeItem_suffix convention, ?_, ?_, ?_⟩
  · exact fun _ _ _ _ _ => itemRounds_iff
  · intro lines queue hqueue started description hmem
    calc description.length
        < queue.length := nextPart_description_length _ _ _ description hmem
      _ ≤ (opened lines).2.length := hqueue.length_le
      _ ≤ lines.length := opened_length lines
  · exact fun _ _ => converts_iff

/-- A section in the description of a parameter. -/
theorem canonical_progress_section :
    ∃ lines queue description out,
      (lines = trimmedLines "\nArgs:\n  x: One.\n    Returns:\n      Two.".toList ∧
        description = ["One.".toList, "Returns:".toList, "  Two.".toList] ∧
        queue <:+ (opened lines).2 ∧
        description ∈ (nextPart .google true queue).1.descriptions) ∧
      description.length < lines.length ∧ Converts .google lines out ∧
      out = [[], ":param x: One.".toList, "          :returns: Two.".toList, []] := by
  obtain ⟨lines, hlines, hmem, hout⟩ :
      ∃ lines, lines = trimmedLines "\nArgs:\n  x: One.\n    Returns:\n      Two.".toList ∧
        ["One.".toList, "Returns:".toList, "  Two.".toList] ∈
          (nextPart .google true (opened lines).2).1.descriptions ∧
        canonical .google lines =
          [[], ":param x: One.".toList, "          :returns: Two.".toList, []] :=
    ⟨_, rfl, by decide +kernel, by decide +kernel⟩
  obtain ⟨-, -, -, hfewer, hconverts⟩ := canonical_progress .google
  exact ⟨lines, _, _, _, ⟨hlines, rfl, List.suffix_rfl, hmem⟩,
    hfewer lines _ List.suffix_rfl _ _ hmem, (hconverts lines _).2 rfl, hout⟩

end CallDoc.Section
