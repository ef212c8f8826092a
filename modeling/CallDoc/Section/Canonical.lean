import CallDoc.Section.Part

/-!
The canonical form of a docstring: its sections are field lists, first those with a colon,
then those that are underlined. Descriptions of items can hold sections of their own, which
take this form too; they have fewer lines than the docstring that holds them.
-/
namespace CallDoc.Section

open Text

/-- The canonical lines from here on, where `inner` gives those of a description. -/
def canonicalParts (convention : Convention) (inner : List Text → List Text) (started : Bool)
    (lines : List Text) : List Text :=
  match lines with
  | [] => []
  | line :: below =>
    let part := nextPart convention started (line :: below)
    let written := (part.1.mapDescriptions inner).lines convention
    written ++ canonicalParts convention inner (started || !written.isEmpty) part.2
termination_by lines.length
decreasing_by exact nextPart_shorter ..

theorem canonicalParts_congr (convention : Convention) {f g : List Text → List Text}
    (started : Bool) (lines : List Text)
    (h : ∀ description : List Text, description.length < lines.length →
      f description = g description) :
    canonicalParts convention f started lines = canonicalParts convention g started lines := by
  fun_induction canonicalParts convention f started lines with
  | case1 => simp [canonicalParts]
  | case2 started line below part written ih =>
    have hpart : part.1.mapDescriptions f = part.1.mapDescriptions g :=
      Part.mapDescriptions_congr fun description hmem =>
        h description (nextPart_description_length _ _ _ description hmem)
    have hshorter : part.2.length < (line :: below).length := nextPart_shorter ..
    have hrest := ih fun description hlen => h description (Nat.lt_trans hlen hshorter)
    conv => rhs; rw [canonicalParts]
    simp only [written, part, hpart] at hrest ⊢
    rw [hrest]

/-- The canonical form of a list of lines. -/
def canonical (convention : Convention) (lines : List Text) : List Text :=
  let trimmed := lines.map trimEnd
  let lead := takeEmpty trimmed
  let count := lines.length
  lead.1 ++ canonicalParts convention
    (fun description =>
      if description.length < count then canonical convention description else [])
    (!lead.1.isEmpty) lead.2
termination_by lines.length

/-- The canonical form of a docstring holds that of its descriptions, which are shorter. -/
theorem canonical_eq (convention : Convention) (lines : List Text) :
    canonical convention lines =
      (takeEmpty (lines.map trimEnd)).1 ++
        canonicalParts convention (canonical convention)
          (!(takeEmpty (lines.map trimEnd)).1.isEmpty) (takeEmpty (lines.map trimEnd)).2 := by
  rw [canonical]
  refine congrArg _ (canonicalParts_congr convention _ _ fun description hlen => ?_)
  have hrest := (takeEmpty_suffix (lines.map trimEnd)).length_le
  rw [List.length_map] at hrest
  exact if_pos (Nat.lt_of_lt_of_le hlen hrest)

/-- The text with the sections of one convention in canonical form. -/
def canonicalText (convention : Convention) (t : Text) : Text :=
  unlines (canonical convention (trimmedLines t))

end Section

/-- The conventions for sections that are recognized. -/
structure Conventions where
  google : Bool
  numpy : Bool
  deriving DecidableEq, Repr

/-- The text with its sections as field lists. -/
def Conventions.normalize (c : Conventions) (t : Text) : Text :=
  let t := if c.google then Section.canonicalText .google t else t
  if c.numpy then Section.canonicalText .numpy t else t

end CallDoc
