import CallDoc.Section.Reader
import CallDoc.Section.SeeAlso

/-!
A docstring in parts: prose, and sections with their headings. Parts are cut off one after
the other; each takes at least one line, as `nextPart_suffix_below` says. Written out again, a
section has become fields, an admonition or a labelled piece of prose.
-/
namespace CallDoc.Section

open Text

inductive Part
  /-- Lines that stay as they are. -/
  | plain (lines : List Text)
  /-- A section of items. -/
  | items (heading : Heading) (entries : List Item)
  /-- A section that is an item as a whole, unless it is empty. -/
  | value (heading : Heading) (entry : Option Item)
  /-- A section of prose. -/
  | prose (heading : Heading) (lines : List Text)
  deriving Repr

/-- How the items of a section are read; a section without a form holds prose. -/
def Heading.form? (convention : Convention) : Heading → Option ItemForm
  | .parameters | .keywordArguments | .otherParameters | .attributes | .warns =>
    some ⟨true, false⟩
  | .methods => some ⟨false, false⟩
  | .raises => some ⟨false, true⟩
  | .returns | .yields =>
    match convention with
    | .google => none
    | .numpy => some ⟨true, true⟩
  | .seeAlso | .rubric _ | .admonition _ => none

/-- A returned value, whose lines are a type, a colon and a description, or a description
alone. -/
def returned? (lines : List Text) : Option Item :=
  match dedent lines with
  | [] => none
  | first :: more =>
    match partition first with
    | (_, none) => some ⟨[], [], first :: more⟩
    | (type, some after) => some ⟨[], type, if after.isEmpty then more else after :: more⟩

/-- The section below a heading, and the lines after it. Its body is indented like the
first line of it that is not empty. -/
def takeBody (convention : Convention) (heading : Heading) (lines : List Text) :
    Part × List Text :=
  let body? := some ((firstIndent? lines).getD 0)
  match Heading.form? convention heading with
  | some form =>
    let entries := takeItems convention body? form (takeEmpty lines).2
    (.items heading entries.1, entries.2)
  | none =>
    let prose := takeSection convention body? lines
    match heading with
    | .returns | .yields => (.value heading (returned? prose.1), prose.2)
    | _ => (.prose heading prose.1, prose.2)

/-- The next part, and the lines after it. Before anything has been written the lines up to
an empty one are a part of their own. -/
def nextPart (convention : Convention) (started : Bool) (lines : List Text) :
    Part × List Text :=
  match opening? convention lines with
  | some (.heading heading, below) => takeBody convention heading below
  | some (.index line, below) =>
    let body := takeSection convention (some ((firstIndent? below).getD 0)) below
    (.plain (line :: body.1), body.2)
  | none =>
    let prose :=
      if started then takeSection convention none lines else takeParagraph convention lines
    (.plain prose.1, prose.2)

theorem takeBody_suffix (convention : Convention) (heading : Heading) (lines : List Text) :
    (takeBody convention heading lines).2 <:+ lines := by
  unfold takeBody
  dsimp only
  split
  · exact (takeItems_suffix ..).trans (takeEmpty_suffix lines)
  · split <;> exact takeSection_suffix ..

theorem takeEmpty_snd_cons_of_isEmpty {line : Text} (h : line.isEmpty = true)
    (below : List Text) : (takeEmpty (line :: below)).2 = (takeEmpty below).2 := by
  simp [takeEmpty, h]

theorem takeParagraph_suffix_below {convention : Convention} {line : Text} {below : List Text}
    (h : opening? convention (line :: below) = none) :
    (takeParagraph convention (line :: below)).2 <:+ below := by
  unfold takeParagraph
  simp only [h, Option.isSome_none, Bool.or_false]
  split
  · rename_i hempty
    rw [takeEmpty_snd_cons_of_isEmpty hempty]
    exact takeEmpty_suffix below
  · exact takeParagraph_suffix convention below

/-- Outside sections, what is no opening is taken. -/
theorem takeSection_suffix_below {convention : Convention} {line : Text} {below : List Text}
    (h : opening? convention (line :: below) = none) :
    (takeSection convention none (line :: below)).2 <:+ below := by
  unfold takeSection
  refine (takeEmpty_suffix _).trans ?_
  cases hempty : line.isEmpty with
  | true =>
    rw [takeEmpty_snd_cons_of_isEmpty hempty]
    exact (takeUnbroken_suffix ..).trans (takeEmpty_suffix below)
  | false =>
    have hrest : (takeEmpty (line :: below)).2 = line :: below := by
      simp [takeEmpty, hempty]
    have hbreak : isBreak convention none (line :: below) = false := by
      simp [isBreak, h, hempty]
    rw [hrest, takeUnbroken, if_neg (by simp [hbreak])]
    exact takeUnbroken_suffix convention none below

/-- Every part takes at least one line. -/
theorem nextPart_suffix_below (convention : Convention) (started : Bool) (line : Text)
    (below : List Text) : (nextPart convention started (line :: below)).2 <:+ below := by
  unfold nextPart
  split
  · rename_i heading rest h
    exact (takeBody_suffix ..).trans (opening?_suffix h)
  · rename_i index rest h
    exact (takeSection_suffix ..).trans (opening?_suffix h)
  · rename_i h
    dsimp only
    split
    · exact takeSection_suffix_below h
    · exact takeParagraph_suffix_below h

theorem nextPart_shorter (convention : Convention) (started : Bool) (line : Text)
    (below : List Text) :
    (nextPart convention started (line :: below)).2.length < (line :: below).length :=
  Nat.lt_succ_of_le (nextPart_suffix_below ..).length_le

/-- The descriptions of the items in a part. -/
def Part.descriptions : Part → List (List Text)
  | .items _ entries => entries.map Item.description
  | .value _ entry => entry.toList.map Item.description
  | _ => []

theorem returned?_description_length {lines : List Text} {item : Item}
    (h : returned? lines = some item) : item.description.length ≤ lines.length := by
  have hdedent : (dedent lines).length = lines.length := by simp [dedent]
  unfold returned? at h
  split at h
  · cases h
  · rename_i first more hfirst
    rw [hfirst, List.length_cons] at hdedent
    split at h
    · obtain rfl := Option.some.inj h
      simp only [List.length_cons]
      omega
    · obtain rfl := Option.some.inj h
      split
      · show more.length ≤ lines.length
        omega
      · show more.length + 1 ≤ lines.length
        omega

theorem takeBody_description_length (convention : Convention) (heading : Heading)
    (lines : List Text) :
    ∀ description ∈ (takeBody convention heading lines).1.descriptions,
      description.length ≤ lines.length := by
  intro description hmem
  unfold takeBody at hmem
  dsimp only at hmem
  split at hmem
  · obtain ⟨item, hitem, rfl⟩ := List.mem_map.1 hmem
    exact Nat.le_trans (takeItems_description_length _ _ _ _ item hitem)
      (takeEmpty_suffix lines).length_le
  · have hprose := takeSection_taken_length convention (some ((firstIndent? lines).getD 0)) lines
    split at hmem
    · obtain ⟨item, hitem, rfl⟩ := List.mem_map.1 hmem
      exact Nat.le_trans (returned?_description_length (Option.mem_toList.1 hitem)) hprose
    · obtain ⟨item, hitem, rfl⟩ := List.mem_map.1 hmem
      exact Nat.le_trans (returned?_description_length (Option.mem_toList.1 hitem)) hprose
    · cases hmem

/-- A description has fewer lines than the docstring it is cut from: the heading of its
section is not among them. -/
theorem nextPart_description_length (convention : Convention) (started : Bool)
    (lines : List Text) :
    ∀ description ∈ (nextPart convention started lines).1.descriptions,
      description.length < lines.length := by
  intro description hmem
  unfold nextPart at hmem
  split at hmem
  · rename_i heading rest h
    have hbody := takeBody_description_length _ _ _ description hmem
    cases lines with
    | nil => cases h
    | cons line below =>
      exact Nat.lt_succ_of_le (Nat.le_trans hbody (opening?_suffix h).length_le)
  · cases hmem
  · cases hmem

/-- The item with its description replaced by what `f` makes of it. -/
def Item.mapDescription (f : List Text → List Text) (item : Item) : Item :=
  { item with description := f item.description }

/-- The part with the descriptions of its items replaced by what `f` makes of them; among
the items of a section those that say nothing are left out. -/
def Part.mapDescriptions (f : List Text → List Text) : Part → Part
  | .items heading entries =>
    .items heading ((entries.map (Item.mapDescription f)).filter fun item => !item.isEmpty)
  | .value heading entry => .value heading (entry.map (Item.mapDescription f))
  | part => part

/-- Only the descriptions in a part matter for what becomes of it. -/
theorem Part.mapDescriptions_congr {f g : List Text → List Text} {part : Part}
    (h : ∀ description ∈ part.descriptions, f description = g description) :
    part.mapDescriptions f = part.mapDescriptions g := by
  cases part with
  | items heading entries =>
    have hentries : entries.map (Item.mapDescription f) = entries.map (Item.mapDescription g) :=
      List.map_congr_left fun item hitem => by
        simp only [Item.mapDescription, h item.description (List.mem_map.2 ⟨item, hitem, rfl⟩)]
    simp only [Part.mapDescriptions, hentries]
  | value heading entry =>
    cases entry with
    | none => rfl
    | some item =>
      have hitem := h item.description (List.mem_map.2 ⟨item, by simp, rfl⟩)
      simp only [Part.mapDescriptions, Option.map_some, Item.mapDescription, hitem]
  | plain lines => rfl
  | prose heading lines => rfl

/-- The lines of a section of items. -/
def itemLines (items : List Item) : Heading → List Text
  | .parameters => paramList "param".toList "type".toList items
  | .keywordArguments => paramList "keyword".toList "kwtype".toList items
  | .otherParameters => fieldOfItems "Other Parameters".toList items
  | .attributes => attributeFields items
  | .methods => methodDirectives items
  | .raises => errorFields items
  | .returns => returnFields items
  | .warns => fieldOfItems "Warns".toList items
  | .yields => fieldOfItems "Yields".toList items
  | .seeAlso | .rubric _ | .admonition _ => []

/-- The lines of a section of prose. Underlined See Also sections hold names of objects
where they can. -/
def proseLines (convention : Convention) (lines : List Text) : Heading → List Text
  | .rubric label => rubric label lines
  | .admonition name => admonition name lines
  | .seeAlso =>
    match convention, related? lines with
    | .numpy, some entries => relatedAdmonition entries
    | _, _ => admonition "seealso".toList lines
  | _ => []

/-- The lines that a part is written as. -/
def Part.lines (convention : Convention) : Part → List Text
  | .plain lines => lines
  | .items heading entries => itemLines entries heading
  | .value heading entry => itemLines entry.toList heading
  | .prose heading lines => proseLines convention lines heading

end CallDoc.Section
