import CallDoc.Proofs.Outline.Caption
import CallDoc.Proofs.Outline.FieldList
import CallDoc.Proofs.Section.Layout

/-!
The entries of an outline as items of sections: the item that is read from the lines of an
entry, and the fields that the item becomes.
-/
namespace CallDoc

open Text Section

namespace Outline

/-! ## Reading items -/

namespace Entry

variable (e : Entry)

theorem isProse_first : isProse e.first = true := e.prose e.first List.mem_cons_self

theorem isProse_more : ∀ line ∈ e.more, isProse line = true := fun line hline =>
  e.prose line (List.mem_cons_of_mem e.first hline)

theorem typedName_of_none {e : Entry} (h : e.type? = none) (before after : Text) :
    e.typedName before after = e.spelling := by rw [typedName, h]

theorem typedName_of_some {e : Entry} {type : Text} (h : e.type? = some type)
    (before after : Text) : e.typedName before after = e.spelling ++ before ++ type ++ after := by
  rw [typedName, h]

/-- The item of an entry whose description takes the given lines. -/
def item (kind : Kind) (description : List Text) : Item :=
  match kind with
  | .params => ⟨escapeStars e.spelling, e.type?.getD [], description⟩
  | .errors => ⟨[], e.name, description⟩

end Entry

/-- What the first line of an item says of its description. -/
def Entry.begun (e : Entry) : Convention → List Text
  | .google => [e.first]
  | .numpy => []

variable {e : Entry} {kind : Kind} {convention : Convention}

/-- Nothing is written before the name of an error. -/
theorem Entry.escapeStars_of_plain (h : e.stars = 0) : escapeStars e.spelling = e.name := by
  rw [escapeStars_spelling, h]
  rfl

theorem ofLine_draft_param (e : Entry) (n : Nat) :
    Item.ofLine convention Kind.params.form (e.draft n convention).line =
      e.item .params (e.begun convention) := by
  have hword := e.spells_spelling.isWord
  have hfirst := isSolid_of_isProse e.isProse_first
  cases htype : e.type? with
  | none =>
    have hitem (description : List Text) :
        e.item .params description = ⟨escapeStars e.spelling, [], description⟩ := by
      rw [Entry.item, htype]
      rfl
    rw [hitem]
    cases convention with
    | google =>
      rw [Entry.draft, Entry.typedName_of_none htype, ← List.append_assoc, ← List.append_assoc]
      exact ofLine_google hword.isSolid hword.colon hword.paren hfirst Kind.params.form n
    | numpy =>
      rw [Entry.draft, Entry.typedName_of_none htype]
      exact ofLine_numpy hword.isSolid hword.colon
  | some type =>
    have hprose := e.typed type htype
    have hitem (description : List Text) :
        e.item .params description = ⟨escapeStars e.spelling, type, description⟩ := by
      rw [Entry.item, htype]
      rfl
    rw [hitem]
    cases convention with
    | google =>
      rw [Entry.draft, Entry.typedName_of_some htype, ← List.append_assoc, ← List.append_assoc]
      exact ofLine_google_typed hword hprose hfirst n
    | numpy =>
      rw [Entry.draft, Entry.typedName_of_some htype, List.append_nil]
      exact ofLine_numpy_typed hword (isSolid_of_isProse hprose)

theorem ofLine_draft_error (hstars : e.stars = 0) (htype : e.type? = none) (n : Nat) :
    Item.ofLine convention Kind.errors.form (e.draft n convention).line =
      e.item .errors (e.begun convention) := by
  have hword := e.spells_spelling.isWord
  rw [Entry.item, ← Entry.escapeStars_of_plain hstars]
  cases convention with
  | google =>
    rw [Entry.draft, Entry.typedName_of_none htype, ← List.append_assoc, ← List.append_assoc]
    exact ofLine_google hword.isSolid hword.colon hword.paren (isSolid_of_isProse e.isProse_first)
      Kind.errors.form n
  | numpy =>
    rw [Entry.draft, Entry.typedName_of_none htype]
    exact ofLine_numpy_error hword.isSolid

/-- The name and the type of an entry are read back from its first line. -/
theorem ofLine_draft (hplain : kind = .errors → e.stars = 0 ∧ e.type? = none) (n : Nat) :
    Item.ofLine convention kind.form (e.draft n convention).line =
      e.item kind (e.begun convention) := by
  cases kind with
  | params => exact ofLine_draft_param e n
  | errors => exact ofLine_draft_error (hplain rfl).1 (hplain rfl).2 n

/-- The draft with empty lines after it. -/
def spacedDraft (convention : Convention) (n : Nat) (gap : List Text) (e : Entry) : Draft :=
  ⟨(e.draft n convention).line, (e.draft n convention).below ++ gap⟩

/-- The lines of an entry are read as its item; only empty lines come after the description. -/
theorem item_spacedDraft (hplain : kind = .errors → e.stars = 0 ∧ e.type? = none)
    {gap : List Text} (hgap : ∀ line ∈ gap, line = []) (n : Nat) :
    (spacedDraft convention n gap e).item convention kind.form =
      e.item kind (e.lines ++ gap) := by
  have hdescription : e.begun convention ++ dedent ((e.draft n convention).below ++ gap) =
      e.lines ++ gap := by
    cases convention with
    | google => exact congrArg (e.first :: ·) (dedent_pad e.isProse_more hgap (n + e.hang))
    | numpy => exact dedent_pad e.prose hgap e.hang
  rw [Draft.item, spacedDraft]
  dsimp only
  rw [ofLine_draft hplain, ← hdescription]
  cases kind <;> rfl

/-! ## Writing fields -/

/-- The words for parameters and their types, where these are keyword arguments and where
they are others. -/
def paramRoles (keyword : Bool) : Text × Text :=
  if keyword then ("keyword".toList, "kwtype".toList) else ("param".toList, "type".toList)

theorem paramRoles_mem (keyword : Bool) :
    (paramRoles keyword).1 ∈ Field.roles ∧ (paramRoles keyword).2 ∈ Field.roles := by
  cases keyword <;> decide

/-- The fields of an entry in a field list that sections have been turned into. -/
def Entry.canonicalFields (keyword : Bool) (e : Entry) : Kind → List Field
  | .params =>
    e.fields (paramRoles keyword).1 (paramRoles keyword).2 (escapeStars e.spelling)
      ((fieldMark (paramRoles keyword).1 (escapeStars e.spelling)).length + 1)
  | .errors => e.fields "raises".toList "type".toList e.name 4

theorem isWritten_canonicalFields (keyword : Bool) (e : Entry) (kind : Kind) :
    ∀ f ∈ e.canonicalFields keyword kind, f.IsWritten := by
  cases kind with
  | params =>
    obtain ⟨hrole, htype⟩ := paramRoles_mem keyword
    exact e.isWritten_fields hrole htype e.spells_escaped (Nat.succ_pos _)
  | errors => exact e.isWritten_fields (by decide) (by decide) e.spells_name (by decide)

theorem meaning_fields {role typeRole role' typeRole' name name' : Text} {pad pad' : Nat}
    (hrole : FieldRole.ofWord role = FieldRole.ofWord role')
    (htype : FieldRole.ofWord typeRole = FieldRole.ofWord typeRole') (hname : e.Spells name)
    (hname' : e.Spells name') :
    (e.fields role typeRole name pad).map Field.meaning =
      (e.fields role' typeRole' name' pad').map Field.meaning := by
  simp only [Entry.fields, List.map_cons, List.map_map, Field.meaning, Function.comp_def, hrole,
    htype, hname.plainName, hname'.plainName]

/-- Both field lists mean the same. -/
theorem meaning_canonicalFields (keyword : Bool) (e : Entry) (kind : Kind) :
    (e.canonicalFields keyword kind).map Field.meaning =
      (e.fields kind.role "type".toList e.spelling e.hang).map Field.meaning := by
  cases kind with
  | params =>
    cases keyword <;> exact meaning_fields rfl rfl e.spells_escaped e.spells_spelling
  | errors => exact meaning_fields rfl rfl e.spells_name e.spells_spelling

theorem described_item (kind : Kind) {gap : List Text} (hgap : ∀ line ∈ gap, line = []) :
    described (e.item kind (e.lines ++ gap)) = e.first :: e.more := by
  have hdescription : (e.item kind (e.lines ++ gap)).description = e.lines ++ gap := by
    cases kind <;> rfl
  have hne : ∀ line ∈ e.lines, line ≠ [] := fun line hline =>
    (isSolid_of_isProse (e.prose line hline)).ne_nil
  rw [described, hdescription]
  exact stripEmpty_append (fun he => hne [] (List.mem_of_head? he) rfl)
    (fun he => hne [] (List.mem_of_getLast? he) rfl) hgap

theorem paramFields_item {gap : List Text} (hgap : ∀ line ∈ gap, line = []) (keyword : Bool) :
    paramFields (paramRoles keyword).1 (paramRoles keyword).2
        (e.item .params (e.lines ++ gap)) =
      (e.canonicalFields keyword .params).flatMap Field.lines := by
  have htype : (e.item .params (e.lines ++ gap)).type = e.type?.getD [] := rfl
  rw [paramFields_eq _ _ e.prose (described_item .params hgap), htype, Entry.canonicalFields,
    Entry.fields, List.flatMap_cons]
  refine congrArg _ ?_
  cases hsome : e.type? with
  | none => rfl
  | some type =>
    have hne := (isSolid_of_isProse (e.typed type hsome)).ne_nil
    rw [Option.getD_some, if_neg (by simpa using hne), Option.toList_some, List.map_singleton,
      List.flatMap_singleton]
    rfl

theorem errorField_item (htype : e.type? = none) {gap : List Text}
    (hgap : ∀ line ∈ gap, line = []) (keyword : Bool) :
    Joins [errorField (e.item .errors (e.lines ++ gap))]
      ((e.canonicalFields keyword .errors).flatMap Field.lines) := by
  have hname : errorName (e.item .errors (e.lines ++ gap)).type = e.name :=
    errorName_of_isWord e.spells_name.isWord
  have hne : errorName (e.item .errors (e.lines ++ gap)).type ≠ [] :=
    hname ▸ e.spells_name.isWord.ne_nil
  rw [errorField_eq hne (described_item .errors hgap), hname, Entry.canonicalFields,
    Entry.fields, htype, Option.toList_none, List.map_nil, List.flatMap_singleton]
  exact joins_singleton (List.cons_ne_nil _ _)

end Outline
end CallDoc
