import CallDoc.Proofs.Doc.Duplicates
import CallDoc.Proofs.Outline.Caution

/-!
Reading an errors section. Every item becomes a field, and the fields are read in their order, but
the field of an item in which a space separates two errors is not known as one about an error.
-/
namespace CallDoc

open Text Section

namespace Outline

/-- A summary with an errors section below it. -/
structure Notice where
  summary : List Text
  caption : Caption
  indent : Nat
  cautions : List Caution
  prose : IsProseLines summary
  errors : caption.kind = .errors
  indented : 0 < indent
  nonempty : cautions ≠ []

namespace Notice

def sheet (o : Notice) : Sheet where
  summary := o.summary
  caption := o.caption
  indent := o.indent
  topics := o.cautions.map Caution.topic
  prose := o.prose
  indented := o.indented
  nonempty := by simp [o.nonempty]

def lines (convention : Convention) (o : Notice) : List Text := o.sheet.lines convention

/-- The fields that the items become. -/
def fields (o : Notice) : List Field := o.cautions.map Caution.field

end Notice

/-! ## The fields of the items -/

namespace Caution

theorem joins_errorFields (cautions : List Caution) :
    Joins ((cautions.map fun c => ⟨[], c.subject.spelling, c.topic.lines⟩).map errorField)
      ((cautions.map field).flatMap Field.lines) := by
  induction cautions with
  | nil => exact joins_self []
  | cons c more ih =>
    rw [List.map_cons, List.map_cons, List.map_cons, List.flatMap_cons, ← List.singleton_append]
    exact c.joins_errorField.append ih

/-- A field names the error of its item, if it is about one, and declares nothing. -/
theorem raised_of_readAs {c : Caution} {blocks : List Block} (h : c.field.ReadAs blocks) :
    Block.raised blocks = c.raised?.toList ∧ Block.declarations blocks = [] ∧
      ∀ e ∈ Block.scopeAll blocks, Block.scopeAll e.body = [] := by
  obtain ⟨number, inner, rfl⟩ := h
  rw [header?_field]
  cases c.raised? with
  | none => exact ⟨rfl, rfl, List.forall_mem_nil _⟩
  | some name => exact ⟨rfl, rfl, List.forall_mem_singleton.2 rfl⟩

theorem raised_of_forall₂ {cautions : List Caution} {blocks : List (List Block)}
    (h : List.Forall₂ Field.ReadAs (cautions.map field) blocks) :
    Block.raised blocks.flatten = cautions.filterMap raised? ∧
      Block.declarations blocks.flatten = [] ∧
      ∀ e ∈ Block.scopeAll blocks.flatten, Block.scopeAll e.body = [] := by
  rw [List.forall₂_map_left_iff] at h
  induction h with
  | nil => exact ⟨rfl, rfl, List.forall_mem_nil _⟩
  | @cons c _ _ _ hc _ ih =>
    obtain ⟨hown, hdeclared, hflat⟩ := raised_of_readAs hc
    obtain ⟨hmore, hnone, hflats⟩ := ih
    rw [List.flatten_cons, Block.raised_append, Block.declarations_append, Block.scopeAll_append,
      hown, hmore, hdeclared, hnone]
    refine ⟨?_, rfl, List.forall_mem_append.2 ⟨hflat, hflats⟩⟩
    cases h : c.raised? with
    | none => rw [List.filterMap_cons_none h]; rfl
    | some name => rw [List.filterMap_cons_some h]; rfl

/-- The errors that are known are those of the items without a space, in their order. -/
theorem filterMap_raised? (cautions : List Caution) : cautions.filterMap raised? =
    (cautions.filter fun c => ' ' ∉ c.subject.spelling).map fun c =>
      Frame.plainName c.subject.header := by
  induction cautions with
  | nil => rfl
  | cons c more ih =>
    by_cases hmem : ' ' ∈ c.subject.spelling
    · rw [List.filterMap_cons_none (c.raised?_eq.trans (if_pos hmem)),
        List.filter_cons_of_neg (by simp [hmem]), ih]
    · rw [List.filterMap_cons_some (c.raised?_eq.trans (if_neg hmem)),
        List.filter_cons_of_pos (by simp [hmem]), List.map_cons, ih]

end Caution

namespace Notice

variable {convention : Convention} (o : Notice)

theorem joins_itemLines :
    Joins (itemLines (o.sheet.topics.map fun t => ⟨[], t.label, t.lines⟩) o.caption.heading)
      (o.fields.flatMap Field.lines ++ [[]]) := by
  have hlines : itemLines (o.sheet.topics.map fun t => ⟨[], t.label, t.lines⟩) o.caption.heading =
      (o.cautions.map fun c => ⟨[], c.subject.spelling, c.topic.lines⟩).map errorField ++ [[]] := by
    rw [Caption.heading, o.errors, sheet, List.map_map]
    change errorFields _ = _
    rw [errorFields, if_neg (by simp [o.nonempty])]
    rfl
  rw [hlines]
  exact (Caution.joins_errorFields o.cautions).append (joins_self [[]])

/-- The tree of a notice: its summary, and the errors of its items. -/
theorem exists_parse : ∃ blocks, Block.parse Role.usual
        (DocReader.standard.canonical (unlines (o.lines convention))) = .ok blocks ∧
      Block.raised blocks = o.cautions.filterMap Caution.raised? ∧
      Block.declarations blocks = [] ∧
      (∀ e ∈ Block.scopeAll blocks, Block.scopeAll e.body = []) ∧
      Block.KeepsCount blocks ∧ Block.describe blocks = unlines o.summary := by
  let itemOf (t : Topic) : Item := ⟨[], t.label, t.lines⟩
  have hitem : ∀ t ∈ o.sheet.topics,
      (t.draft o.indent convention).item convention o.caption.kind.form = itemOf t := by
    rw [o.errors]
    exact List.forall_mem_map.2 fun c _ => c.item_topic o.indent
  have hlaid : ∀ f ∈ o.fields, f.IsLaid := List.forall_mem_map.2 fun c _ => c.isLaid_field
  obtain ⟨number, blocks, hparse, hread, hkeeps, hdescribe⟩ := o.sheet.exists_parse hitem
    (fun _ => rfl)
    o.joins_itemLines hlaid (by simp [fields, o.nonempty])
  obtain ⟨hraised, hdeclared, hflat⟩ := Caution.raised_of_forall₂ hread
  exact ⟨_, hparse, hraised, hdeclared, hflat, hkeeps, hdescribe⟩

end Notice

/-- A section on errors is read, and of its items exactly those are known in which no space stands:
in their order, and each by its name or the target of its reference. So there is an entry for each
item exactly if no item has a space in front of its description. -/
theorem readText_notice (convention : Convention) (o : Notice) :
    ∃ doc, DocReader.standard.readText (unlines (o.lines convention)) = .ok doc ∧
      doc.description = unlines o.summary ∧
      doc.raises = (o.cautions.filter fun c => ' ' ∉ c.subject.spelling).map
        (fun c => Frame.plainName c.subject.header) ∧
      (o.cautions.length ≤ doc.raises.length ↔ ∀ c ∈ o.cautions, ' ' ∉ c.subject.spelling) := by
  obtain ⟨blocks, hparse, hraised, hdeclared, hflat, hkeeps, hdescribe⟩ := o.exists_parse
  have hread : DocReader.standard.readText (unlines (o.lines convention)) =
      Doc.ofBlocks blocks := by
    change (Block.parse Role.usual _).bind Doc.ofBlocks = _
    rw [hparse]
    rfl
  have hwell := Block.wellHeaded_of_ofLines hparse
  obtain ⟨doc, hdoc⟩ : ∃ doc, Doc.ofBlocks blocks = .ok doc := by
    rw [Doc.exists_ofBlocks_iff hwell hkeeps, Block.conflicting_iff_of_flat hflat, not_not, hdeclared]
    exact List.nodup_nil
  have hraises : doc.raises = (o.cautions.filter fun c => ' ' ∉ c.subject.spelling).map
      fun c => Frame.plainName c.subject.header := by
    rw [(Doc.records_of_ofBlocks hwell hkeeps hdoc).raises, hraised, Caution.filterMap_raised?]
  refine ⟨doc, hread.trans hdoc, ?_, hraises, ?_⟩
  · obtain ⟨d, -, rfl⟩ := map_eq_ok_iff.1 hdoc
    exact hdescribe
  · rw [hraises, List.length_map, (List.length_filter_le _ _).ge_iff_eq,
      List.length_filter_eq_length_iff]
    simp

theorem raises_mem_titles : lowercase "Raises".toList ∈ Kind.errors.titles := by decide

/-- A section on the errors of a division: a reference, a name, and two names in one item. -/
def division : Notice where
  summary := ["Divide".toList]
  caption :=
    { kind := .errors, title := "Raises".toList, underline := "------".toList
      titled := raises_mem_titles
      underlined := ⟨by decide, forall_mem_of_all (by decide)⟩ }
  indent := 2
  cautions := [
    { subject := .reference "exc".toList "ZeroDivisionError".toList
      first := "dividing by nothing".toList, more := [], hang := 2
      valid := ⟨by decide, by decide, by decide, forall_mem_of_all (by decide),
        staysOpen_of_not_mem (by decide)⟩
      prose := by decide +kernel
      hangs := Nat.two_pos },
    { subject := .names "OverflowError, FloatingPointError".toList
      first := "out of range".toList, more := [], hang := 2
      valid := ⟨isSolid_of_isProse (by decide +kernel), forall_mem_of_all (by decide), by decide,
        by decide, by decide⟩
      prose := by decide +kernel
      hangs := Nat.two_pos },
    { subject := .names "math.DomainError".toList
      first := "no numbers".toList, more := [], hang := 2
      valid := ⟨IsToken.isSolid (by decide), forall_mem_of_all (by decide), by decide, by decide,
        by decide⟩
      prose := by decide +kernel
      hangs := Nat.two_pos }]
  prose := ⟨by decide, by decide +kernel⟩
  errors := rfl
  indented := Nat.two_pos
  nonempty := by decide

theorem readText_notice_division : ∃ doc, DocReader.standard.readText
      ("Divide\n\nRaises:\n  :exc:\x60ZeroDivisionError\x60: dividing by nothing\n" ++
        "  OverflowError, FloatingPointError: out of range\n" ++
        "  math.DomainError: no numbers").toList = .ok doc ∧
    doc.raises = ["ZeroDivisionError".toList, "math.DomainError".toList] ∧
    ¬division.cautions.length ≤ doc.raises.length := by
  obtain ⟨doc, hread, -, hraises, hlength⟩ := readText_notice .google division
  have hlines : unlines (division.lines .google) =
      ("Divide\n\nRaises:\n  :exc:\x60ZeroDivisionError\x60: dividing by nothing\n" ++
        "  OverflowError, FloatingPointError: out of range\n" ++
        "  math.DomainError: no numbers").toList := by decide +kernel
  exact ⟨doc, hlines ▸ hread, hraises.trans (by decide +kernel), mt hlength.1 (by decide)⟩

/-- Of two errors in one item, with a space between them, neither is known. -/
theorem readText_notice_shared :
    DocReader.standard.readText "Add\n\nRaises:\n  ValueError, TypeError: bad".toList =
        .ok ⟨"Add".toList, "Add".toList, [], []⟩ ∧
      DocReader.standard.readText "Add\n\nRaises\n------\nValueError, TypeError\n  bad".toList =
        .ok ⟨"Add".toList, "Add".toList, [], []⟩ := by
  constructor <;> decide +kernel

end Outline
end CallDoc
