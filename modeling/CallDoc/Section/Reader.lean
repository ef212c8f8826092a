import CallDoc.Section.Item
import CallDoc.Text.Lines

/-!
Taking lines from the front of a docstring: up to the next section, or as far as an item's
description is indented. Every function here returns what it took and the lines that are
left, which are never more than there were.
-/
namespace CallDoc.Section

open Text

/-- The characters of an underline. -/
def isUnderlineCharacter (c : Char) : Bool := "=-\x60:\x27\x22~^_*+#<>".toList.contains c

/-- At least two characters of an underline, and nothing else. -/
def isUnderline (line : Text) : Bool :=
  let marks := trimEnd line
  2 ≤ marks.length && marks.all isUnderlineCharacter

/-- The start of a directive that stands for a section of its own. -/
def isIndexEntry (line : Text) : Bool := startsWith ".. index::".toList (lowercase line)

/-- What the lines start with, when a section begins at the first of them. -/
inductive Opening
  | heading (h : Heading)
  /-- An index entry, which is kept as it is. -/
  | index (line : Text)
  deriving DecidableEq, Repr

/-- The opening of a section, and the lines below it. A heading with a colon has an
indented body; an underlined one takes its underline with it. -/
def opening? (convention : Convention) : List Text → Option (Opening × List Text)
  | [] => none
  | line :: below =>
    match convention with
    | .google =>
      (Heading.ofColonLine? line).bind fun h =>
        if 0 < (firstIndent? below).getD 0 then some (.heading h, below) else none
    | .numpy =>
      match Heading.ofTitle? line, below with
      | some h, underline :: below =>
        if isUnderline underline then some (.heading h, below) else none
      | _, _ => if isIndexEntry line then some (.index line, below) else none

/-- A section ends here: at the end of the lines, at the next opening, at two empty lines
under underlined headings, or at a line indented less than the section's body. -/
def isBreak (convention : Convention) (body? : Option Nat) (lines : List Text) : Bool :=
  match lines with
  | [] => true
  | line :: below =>
    (opening? convention lines).isSome ||
      (convention == .numpy && line.isEmpty && below.head? == some []) ||
      body?.any fun n => !line.isEmpty && !isIndented n line

def takeEmpty (lines : List Text) : List Text × List Text :=
  (lines.takeWhile List.isEmpty, lines.dropWhile List.isEmpty)

/-- The lines before the next break. -/
def takeUnbroken (convention : Convention) (body? : Option Nat) :
    List Text → List Text × List Text
  | [] => ([], [])
  | line :: below =>
    if isBreak convention body? (line :: below) then ([], line :: below)
    else
      let rest := takeUnbroken convention body? below
      (line :: rest.1, rest.2)

/-- The lines before the next break with the empty lines after them; empty lines before
them are dropped. -/
def takeSection (convention : Convention) (body? : Option Nat) (lines : List Text) :
    List Text × List Text :=
  let body := takeUnbroken convention body? (takeEmpty lines).2
  let gap := takeEmpty body.2
  (body.1 ++ gap.1, gap.2)

/-- The lines up to an empty one or an opening, and the empty lines after them. -/
def takeParagraph (convention : Convention) : List Text → List Text × List Text
  | [] => ([], [])
  | line :: below =>
    if line.isEmpty || (opening? convention (line :: below)).isSome then
      takeEmpty (line :: below)
    else
      let rest := takeParagraph convention below
      (line :: rest.1, rest.2)

/-- The empty lines and those indented by at least `n` before the next break. -/
def takeIndented (convention : Convention) (body? : Option Nat) (n : Nat) :
    List Text → List Text × List Text
  | [] => ([], [])
  | line :: below =>
    if !isBreak convention body? (line :: below) && (line.isEmpty || isIndented n line) then
      let rest := takeIndented convention body? n below
      (line :: rest.1, rest.2)
    else ([], line :: below)

theorem opening?_suffix {convention : Convention} {line : Text} {below rest : List Text}
    {o : Opening} (h : opening? convention (line :: below) = some (o, rest)) : rest <:+ below := by
  unfold opening? at h
  dsimp only at h
  split at h
  · obtain ⟨heading, -, h⟩ := Option.bind_eq_some_iff.1 h
    split at h
    · obtain ⟨-, rfl⟩ := Prod.mk.inj (Option.some.inj h)
      exact List.suffix_rfl
    · cases h
  · split at h
    · split at h
      · obtain ⟨-, rfl⟩ := Prod.mk.inj (Option.some.inj h)
        exact List.suffix_cons ..
      · cases h
    · split at h
      · obtain ⟨-, rfl⟩ := Prod.mk.inj (Option.some.inj h)
        exact List.suffix_rfl
      · cases h

theorem takeEmpty_append (lines : List Text) : (takeEmpty lines).1 ++ (takeEmpty lines).2 = lines :=
  List.takeWhile_append_dropWhile

theorem takeUnbroken_append (convention : Convention) (body? : Option Nat)
    (lines : List Text) :
    (takeUnbroken convention body? lines).1 ++ (takeUnbroken convention body? lines).2 =
      lines := by
  induction lines with
  | nil => rfl
  | cons line below ih =>
    unfold takeUnbroken
    split
    · rfl
    · rw [List.cons_append, ih]

theorem takeParagraph_append (convention : Convention) (lines : List Text) :
    (takeParagraph convention lines).1 ++ (takeParagraph convention lines).2 = lines := by
  induction lines with
  | nil => rfl
  | cons line below ih =>
    unfold takeParagraph
    split
    · exact takeEmpty_append (line :: below)
    · rw [List.cons_append, ih]

theorem takeIndented_append (convention : Convention) (body? : Option Nat) (n : Nat)
    (lines : List Text) :
    (takeIndented convention body? n lines).1 ++ (takeIndented convention body? n lines).2 =
      lines := by
  induction lines with
  | nil => rfl
  | cons line below ih =>
    unfold takeIndented
    split
    · rw [List.cons_append, ih]
    · rfl

theorem takeEmpty_suffix (lines : List Text) : (takeEmpty lines).2 <:+ lines :=
  ⟨_, takeEmpty_append lines⟩

theorem takeUnbroken_suffix (convention : Convention) (body? : Option Nat) (lines : List Text) :
    (takeUnbroken convention body? lines).2 <:+ lines :=
  ⟨_, takeUnbroken_append ..⟩

theorem takeSection_suffix (convention : Convention) (body? : Option Nat) (lines : List Text) :
    (takeSection convention body? lines).2 <:+ lines :=
  ((takeEmpty_suffix _).trans (takeUnbroken_suffix ..)).trans (takeEmpty_suffix lines)

theorem takeParagraph_suffix (convention : Convention) (lines : List Text) :
    (takeParagraph convention lines).2 <:+ lines :=
  ⟨_, takeParagraph_append ..⟩

/-- A section is made of the lines that it takes, without the empty ones before them. -/
theorem takeSection_taken_length (convention : Convention) (body? : Option Nat)
    (lines : List Text) : (takeSection convention body? lines).1.length ≤ lines.length := by
  have hlead := congrArg List.length (takeEmpty_append lines)
  have hbody := congrArg List.length (takeUnbroken_append convention body? (takeEmpty lines).2)
  have hgap := congrArg List.length
    (takeEmpty_append (takeUnbroken convention body? (takeEmpty lines).2).2)
  simp only [List.length_append] at hlead hbody hgap
  simp only [takeSection, List.length_append]
  omega

/-- An item and the lines after it: its first line and all that is indented below. -/
def takeItem (convention : Convention) (body? : Option Nat) (form : ItemForm) (line : Text)
    (below : List Text) : Item × List Text :=
  let body := takeIndented convention body? (indent line + 1) below
  let item := Item.ofLine convention form line
  ({ item with description := item.description ++ dedent body.1 }, body.2)

theorem takeItem_suffix (convention : Convention) (body? : Option Nat) (form : ItemForm)
    (line : Text) (below : List Text) : (takeItem convention body? form line below).2 <:+ below :=
  ⟨_, takeIndented_append ..⟩

/-- The description of an item has no more lines than the item. -/
theorem takeItem_description_length (convention : Convention) (body? : Option Nat)
    (form : ItemForm) (line : Text) (below : List Text) :
    (takeItem convention body? form line below).1.description.length ≤
      (line :: below).length := by
  have hline := Item.ofLine_description_length convention form line
  have hbody := congrArg List.length
    (takeIndented_append convention body? (indent line + 1) below)
  simp only [List.length_append] at hbody
  simp only [takeItem, dedent, List.length_append, List.length_map, List.length_cons]
  omega

/-- The items before the next break. -/
def takeItems (convention : Convention) (body? : Option Nat) (form : ItemForm)
    (lines : List Text) : List Item × List Text :=
  match lines with
  | [] => ([], [])
  | line :: below =>
    if isBreak convention body? (line :: below) then ([], line :: below)
    else
      let first := takeItem convention body? form line below
      let rest := takeItems convention body? form first.2
      (first.1 :: rest.1, rest.2)
termination_by lines.length
decreasing_by exact Nat.lt_succ_of_le (takeItem_suffix ..).length_le

theorem takeItems_suffix (convention : Convention) (body? : Option Nat) (form : ItemForm)
    (lines : List Text) : (takeItems convention body? form lines).2 <:+ lines := by
  fun_induction takeItems convention body? form lines with
  | case1 | case2 => exact List.suffix_rfl
  | case3 line below hbreak first rest ih =>
    have hfirst : first.2 <:+ below := takeItem_suffix ..
    exact (ih.trans hfirst).trans (List.suffix_cons line below)

theorem takeItems_description_length (convention : Convention) (body? : Option Nat)
    (form : ItemForm) (lines : List Text) :
    ∀ item ∈ (takeItems convention body? form lines).1,
      item.description.length ≤ lines.length := by
  fun_induction takeItems convention body? form lines with
  | case1 => simp
  | case2 => simp
  | case3 line below hbreak first rest ih =>
    intro item hitem
    rcases List.mem_cons.1 hitem with rfl | hitem
    · exact takeItem_description_length ..
    · have hfirst : first.2.length ≤ below.length := (takeItem_suffix ..).length_le
      have hrest := ih item hitem
      simp only [List.length_cons]
      omega

end CallDoc.Section
