import CallDoc.Proofs.Doc.Duplicates
import CallDoc.Proofs.Outline.FieldList
import CallDoc.Proofs.Outline.Remark

/-!
Reading a parameters section in which no item declares a type. An item becomes a field with its
words in the header, and from the number of words alone it follows what the field is about and
whether it has a type.
-/
namespace CallDoc

open Text Section

namespace Outline

/-! ## What a remark declares -/

namespace Remark

variable {r : Remark} {name value : Text}

/-- The type comes before the text, as it does in the header. -/
def declarations (r : Remark) : List Declaration :=
  r.parameter?.toList.flatMap fun name =>
    (r.type?.map fun type => ⟨.type, name, type⟩).toList ++ [⟨.text, name, unlines r.lines⟩]

theorem mem_declarations {x : Declaration} : x ∈ r.declarations ↔
    r.parameter? = some x.name ∧
      ((x.what = .type ∧ r.type? = some x.value) ∨ x.what = .text ∧ x.value = unlines r.lines) := by
  obtain ⟨what, name, value⟩ := x
  rw [declarations]
  cases r.parameter? <;> cases r.type? <;> cases what <;> simp <;> tauto

theorem text_mem_declarations : ⟨.text, name, value⟩ ∈ r.declarations ↔
    r.parameter? = some name ∧ value = unlines r.lines := by
  simp [mem_declarations]

theorem type_mem_declarations : ⟨.type, name, value⟩ ∈ r.declarations ↔
    r.parameter? = some name ∧ r.type? = some value := by
  simp [mem_declarations]

/-- Two remarks declare the same thing if they are about one parameter, and not otherwise. -/
theorem nodup_keys_iff (remarks : List Remark) :
    ((remarks.flatMap declarations).map Declaration.key).Nodup ↔
      (remarks.filterMap parameter?).Nodup := by
  have hown (r : Remark) : (r.declarations.map Declaration.key).Nodup := by
    rw [declarations]
    cases r.parameter? <;> cases r.type? <;> simp [Declaration.key]
  have hname {r : Remark} {key : Declared × Text} (h : key ∈ r.declarations.map Declaration.key) :
      r.parameter? = some key.2 := by
    obtain ⟨x, hx, rfl⟩ := List.mem_map.1 h
    exact (mem_declarations.1 hx).1
  have htext {r : Remark} {name : Text} (h : r.parameter? = some name) :
      (.text, name) ∈ r.declarations.map Declaration.key :=
    List.mem_map.2 ⟨⟨.text, name, unlines r.lines⟩, text_mem_declarations.2 ⟨h, rfl⟩, rfl⟩
  rw [List.map_flatMap, List.nodup_flatMap, and_iff_right fun r _ => hown r, List.Nodup,
    List.pairwise_filterMap]
  refine List.Pairwise.iff fun a b => ⟨fun h name ha name' hb hsame => ?_, fun h key ha hb => ?_⟩
  · subst hsame
    exact h (htext ha) (htext hb)
  · exact h _ (hname ha) _ (hname hb) rfl

theorem eq_of_parameter? {remarks : List Remark} (h : (remarks.filterMap parameter?).Nodup)
    {a b : Remark} (ha : a ∈ remarks) (hb : b ∈ remarks) (hname : a.parameter? = some name)
    (hname' : b.parameter? = some name) : a = b := by
  have : Std.Symm fun a b : Remark =>
      ∀ x, a.parameter? = some x → ∀ y, b.parameter? = some y → x ≠ y :=
    ⟨fun _ _ h x hx y hy => (h y hy x hx).symm⟩
  by_contra hne
  exact (List.pairwise_filterMap.1 h).forall ha hb hne name hname name hname' rfl

theorem type?_eq_none_iff : r.type? = none ↔ r.words.length ≠ 2 := by
  rw [type?]
  rcases r.words with _ | ⟨a, _ | ⟨b, _ | ⟨c, more⟩⟩⟩ <;> simp

theorem exists_parameter? (h : r.type? ≠ none) : ∃ name, r.parameter? = some name := by
  rw [Ne, type?_eq_none_iff, not_not] at h
  obtain ⟨type, name, hwords⟩ := List.length_eq_two.1 h
  exact ⟨Frame.plainName name, by rw [parameter?, hwords]⟩

end Remark

/-! ## A section of remarks -/

/-- A summary with a parameters section below it, in which no item declares a type. -/
structure Listing where
  summary : List Text
  caption : Caption
  indent : Nat
  remarks : List Remark
  prose : IsProseLines summary
  params : caption.kind = .params
  indented : 0 < indent
  nonempty : remarks ≠ []

namespace Listing

def drafts (convention : Convention) (l : Listing) : List Draft :=
  l.remarks.map fun r => r.draft l.indent convention

def sectionLines (convention : Convention) (l : Listing) : List Text :=
  l.caption.lines convention ++ (l.drafts convention).flatMap Draft.lines

def lines (convention : Convention) (l : Listing) : List Text :=
  l.summary ++ [] :: l.sectionLines convention

/-- The fields that the items become. -/
def fields (l : Listing) : List Field := l.remarks.map (Remark.field l.caption.keyword)

variable {convention : Convention} (l : Listing)

/-- The listing with its remarks as topics. -/
def sheet : Sheet where
  summary := l.summary
  caption := l.caption
  indent := l.indent
  topics := l.remarks.map Remark.topic
  prose := l.prose
  indented := l.indented
  nonempty := by simp [l.nonempty]

theorem lines_sheet : l.sheet.lines convention = l.lines convention := by
  have hdrafts : l.sheet.drafts convention = l.drafts convention := by
    rw [Sheet.drafts, sheet, List.map_map]
    exact List.map_congr_left fun r _ => r.draft_topic
  rw [Sheet.lines, Sheet.sectionLines, hdrafts]
  rfl

/-- Each item is written as its field. -/
theorem itemLines_remarks :
    itemLines (l.remarks.map fun r => ⟨escapeStars r.spelling, [], r.lines⟩)
        (Kind.params.heading l.caption.keyword) = l.fields.flatMap Field.lines ++ [[]] := by
  have hlines (items : List Item) : itemLines items (Kind.params.heading l.caption.keyword) =
      items.flatMap (paramFields (paramRoles l.caption.keyword).1
        (paramRoles l.caption.keyword).2) ++ [[]] := by
    cases l.caption.keyword <;> rfl
  rw [hlines, fields, List.flatMap_map, List.flatMap_map]
  congr 1
  exact List.flatMap_congr fun r _ => r.paramFields_item l.caption.keyword

end Listing

/-! ## Reading -/

namespace Remark

variable {keyword : Bool}

theorem declarations_of_readAs {r : Remark} {blocks : List Block}
    (h : (r.field keyword).ReadAs blocks) : Block.declarations blocks = r.declarations ∧
      ∀ e ∈ Block.scopeAll blocks, Block.scopeAll e.body = [] := by
  obtain ⟨number, inner, rfl⟩ := h
  have hbody : Block.describe [.paragraph inner [.text (unlines r.lines)]] = unlines r.lines :=
    (Block.describe_document r.isProseLines.isSolid inner (List.forall_mem_nil _)).2
  rw [header?_field, declarations]
  cases r.parameter? with
  | none => exact ⟨rfl, List.forall_mem_nil _⟩
  | some name =>
    refine ⟨?_, List.forall_mem_singleton.2 rfl⟩
    rw [← hbody]
    rfl

theorem declarations_of_forall₂ {remarks : List Remark} {blocks : List (List Block)}
    (h : List.Forall₂ Field.ReadAs (remarks.map (field keyword)) blocks) :
    Block.declarations blocks.flatten = remarks.flatMap declarations ∧
      ∀ e ∈ Block.scopeAll blocks.flatten, Block.scopeAll e.body = [] := by
  rw [List.forall₂_map_left_iff] at h
  induction h with
  | nil => exact ⟨rfl, List.forall_mem_nil _⟩
  | cons hr _ ih =>
    obtain ⟨hown, hflat⟩ := declarations_of_readAs hr
    obtain ⟨hmore, hflats⟩ := ih
    rw [List.flatten_cons, List.flatMap_cons, Block.declarations_append, Block.scopeAll_append,
      hown, hmore]
    exact ⟨rfl, List.forall_mem_append.2 ⟨hflat, hflats⟩⟩

end Remark

namespace Listing

variable {convention : Convention} {l : Listing}

/-- The tree of a listing: its summary, and what its remarks declare. -/
theorem exists_parse (hparen : convention = .google → ∀ r ∈ l.remarks, ')' ∉ r.spelling) :
    ∃ blocks, Block.parse Role.usual
        (DocReader.standard.canonical (unlines (l.lines convention))) = .ok blocks ∧
      Block.declarations blocks = l.remarks.flatMap Remark.declarations ∧
      (∀ e ∈ Block.scopeAll blocks, Block.scopeAll e.body = []) ∧
      Block.KeepsCount blocks ∧ Block.describe blocks = unlines l.summary := by
  let itemOf (t : Topic) : Item := ⟨escapeStars t.label, [], t.lines⟩
  have hitem : ∀ t ∈ l.sheet.topics,
      (t.draft l.indent convention).item convention l.caption.kind.form = itemOf t := by
    rw [l.params]
    refine List.forall_mem_map.2 fun r hr => ?_
    exact r.item_topic (fun hgoogle => hparen hgoogle r hr) l.indent
  have hfields : Joins (itemLines (l.sheet.topics.map itemOf) l.caption.heading)
      (l.fields.flatMap Field.lines ++ [[]]) := by
    have hlines := l.itemLines_remarks
    rw [← l.params] at hlines
    rw [sheet, List.map_map]
    exact hlines ▸ joins_self _
  have hlaid : ∀ f ∈ l.fields, f.IsLaid := List.forall_mem_map.2 fun r _ => r.isLaid_field _
  obtain ⟨number, blocks, hparse, hread, hkeeps, hdescribe⟩ :=
    l.sheet.exists_parse hitem (fun _ => rfl) hfields hlaid (by simp [fields, l.nonempty])
  obtain ⟨hdeclared, hflat⟩ := Remark.declarations_of_forall₂ hread
  rw [lines_sheet] at hparse
  exact ⟨_, hparse, hdeclared, hflat, hkeeps, hdescribe⟩

section Records

variable {blocks : List Block} {doc : Doc} (hrecords : doc.Records blocks)
  (hdeclared : Block.declarations blocks = l.remarks.flatMap Remark.declarations)
include hrecords hdeclared

theorem find?_of_mem (hnodup : (l.remarks.filterMap Remark.parameter?).Nodup) {r : Remark}
    (hr : r ∈ l.remarks) {name : Text} (hname : r.parameter? = some name) :
    doc.params.find? name = some ⟨some (unlines r.lines), r.type?⟩ := by
  have htext : (doc.params.get name).text = some (unlines r.lines) := by
    rw [hrecords.text, hdeclared]
    exact List.mem_flatMap.2 ⟨r, hr, Remark.text_mem_declarations.2 ⟨hname, rfl⟩⟩
  have htype : (doc.params.get name).type = r.type? := by
    refine Option.ext fun type => ?_
    rw [hrecords.type, hdeclared, List.mem_flatMap]
    refine ⟨fun ⟨other, hother, hmem⟩ => ?_, fun htype => ?_⟩
    · obtain ⟨hsame, htype⟩ := Remark.type_mem_declarations.1 hmem
      rwa [Remark.eq_of_parameter? hnodup hr hother hname hsame]
    · exact ⟨r, hr, Remark.type_mem_declarations.2 ⟨hname, htype⟩⟩
  rw [ParamDocs.get] at htext htype
  cases hfind : doc.params.find? name with
  | none =>
    rw [hfind] at htext
    cases htext
  | some known =>
    rw [hfind, Option.getD_some] at htext htype
    rw [← htext, ← htype]

theorem exists_of_find? {name : Text} {known : ParamDoc}
    (h : doc.params.find? name = some known) :
    ∃ r ∈ l.remarks, r.parameter? = some name := by
  have hmem := (ParamDocs.find?_isSome_iff doc.params name).1 (by rw [h]; rfl)
  obtain ⟨x, hx, rfl⟩ := (hrecords.names name).1 hmem
  rw [hdeclared] at hx
  obtain ⟨r, hr, hx⟩ := List.mem_flatMap.1 hx
  exact ⟨r, hr, (Remark.mem_declarations.1 hx).1⟩

theorem find?_eq_some_iff (hnodup : (l.remarks.filterMap Remark.parameter?).Nodup) (name : Text)
    (known : ParamDoc) : doc.params.find? name = some known ↔ ∃ r ∈ l.remarks,
      r.parameter? = some name ∧ known = ⟨some (unlines r.lines), r.type?⟩ := by
  constructor
  · intro h
    obtain ⟨r, hr, hname⟩ := exists_of_find? hrecords hdeclared h
    have hfind := find?_of_mem hrecords hdeclared hnodup hr hname
    exact ⟨r, hr, hname, Option.some.inj (h.symm.trans hfind)⟩
  · rintro ⟨r, hr, hname, rfl⟩
    exact find?_of_mem hrecords hdeclared hnodup hr hname

theorem forall_type_eq_none_iff (hnodup : (l.remarks.filterMap Remark.parameter?).Nodup) :
    (∀ entry ∈ doc.params, entry.2.type = none) ↔ ∀ r ∈ l.remarks, r.words.length ≠ 2 := by
  refine ⟨fun hnone r hr => Remark.type?_eq_none_iff.1 ?_, fun hwords entry hentry => ?_⟩
  · by_contra htype
    obtain ⟨name, hname⟩ := Remark.exists_parameter? htype
    have hknown := find?_of_mem hrecords hdeclared hnodup hr hname
    exact htype (hnone _ ((ParamDocs.find?_eq_some_iff hrecords.ordered).1 hknown))
  · have hknown := (ParamDocs.find?_eq_some_iff hrecords.ordered).2 hentry
    obtain ⟨r, hr, -, hsame⟩ := (find?_eq_some_iff hrecords hdeclared hnodup _ _).1 hknown
    rw [hsame]
    exact Remark.type?_eq_none_iff.2 (hwords r hr)

end Records
end Listing

/-- A section in which no type is declared is read unless two of its items are about one
parameter. Of an item with one word the word is the parameter, and an item of two words is about
the second, of which the first is then the type; an item of more words is lost. So types are
read from the section exactly if some item has two words. -/
theorem readText_listing_iff (convention : Convention) (l : Listing)
    (hparen : convention = .google → ∀ r ∈ l.remarks, ')' ∉ r.spelling) :
    ((∃ doc, DocReader.standard.readText (unlines (l.lines convention)) = .ok doc) ↔
        (l.remarks.filterMap Remark.parameter?).Nodup) ∧
      ∀ doc, DocReader.standard.readText (unlines (l.lines convention)) = .ok doc →
        doc.description = unlines l.summary ∧
        (∀ name known, doc.params.find? name = some known ↔ ∃ r ∈ l.remarks,
          r.parameter? = some name ∧ known = ⟨some (unlines r.lines), r.type?⟩) ∧
        ((∀ entry ∈ doc.params, entry.2.type = none) ↔
          ∀ r ∈ l.remarks, r.words.length ≠ 2) := by
  obtain ⟨blocks, hparse, hdeclared, hflat, hkeeps, hdescribe⟩ := l.exists_parse hparen
  have hread : DocReader.standard.readText (unlines (l.lines convention)) =
      Doc.ofBlocks blocks := by
    change (Block.parse Role.usual _).bind Doc.ofBlocks = _
    rw [hparse]
    rfl
  have hwell := Block.wellHeaded_of_ofLines hparse
  have hclean : (∃ doc, Doc.ofBlocks blocks = .ok doc) ↔
      (l.remarks.filterMap Remark.parameter?).Nodup := by
    rw [Doc.exists_ofBlocks_iff hwell hkeeps, Block.conflicting_iff_of_flat hflat, not_not, hdeclared,
      Remark.nodup_keys_iff]
  rw [hread]
  refine ⟨hclean, fun doc hdoc => ?_⟩
  have hrecords := Doc.records_of_ofBlocks hwell hkeeps hdoc
  have hnodup := hclean.1 ⟨doc, hdoc⟩
  refine ⟨?_, Listing.find?_eq_some_iff hrecords hdeclared hnodup,
    Listing.forall_type_eq_none_iff hrecords hdeclared hnodup⟩
  obtain ⟨d, -, rfl⟩ := map_eq_ok_iff.1 hdoc
  exact hdescribe

/-- A parameters section for a function that adds up: two parameters in one item, and three. -/
def addition : Listing where
  summary := ["Add".toList]
  caption :=
    { kind := .params, title := "Arguments".toList, underline := "=========".toList
      titled := by decide
      underlined := ⟨by decide, forall_mem_of_all (by decide)⟩ }
  indent := 2
  remarks := [
    { words := ["x,".toList, "y".toList], first := "numbers".toList, more := [], hang := 2
      phrase := by decide
      prose := by decide +kernel
      hangs := Nat.two_pos },
    { words := ["n".toList], first := "how often".toList, more := [], hang := 2
      phrase := by decide
      prose := by decide +kernel
      hangs := Nat.two_pos },
    { words := ["a,".toList, "b,".toList, "c".toList], first := "others".toList, more := []
      hang := 2
      phrase := by decide
      prose := by decide +kernel
      hangs := Nat.two_pos }]
  prose := ⟨by decide, by decide +kernel⟩
  params := rfl
  indented := Nat.two_pos
  nonempty := by decide

theorem readText_listing_iff_addition :
    (∀ r ∈ addition.remarks, ')' ∉ r.spelling) ∧
      ∃ doc, DocReader.standard.readText
          "Add\n\nArguments:\n  x, y: numbers\n  n: how often\n  a, b, c: others".toList = .ok doc ∧
        doc.params.find? "y".toList = some ⟨some "numbers".toList, some "x,".toList⟩ ∧
        doc.params.find? "n".toList = some ⟨some "how often".toList, none⟩ ∧
        doc.params.find? "c".toList = none := by
  have hparen : ∀ r ∈ addition.remarks, ')' ∉ r.spelling := by decide
  obtain ⟨hread, hdoc⟩ := readText_listing_iff .google addition fun _ => hparen
  obtain ⟨doc, h⟩ := hread.2 (by decide)
  obtain ⟨-, hparams, -⟩ := hdoc doc h
  refine ⟨hparen, doc, h, (hparams ..).2 ?_, (hparams ..).2 ?_, ?_⟩
  · exact ⟨_, List.mem_cons_self, rfl, rfl⟩
  · exact ⟨_, List.mem_cons_of_mem _ List.mem_cons_self, rfl, rfl⟩
  · refine Option.eq_none_iff_forall_not_mem.2 fun known hknown => ?_
    obtain ⟨r, hr, hname, -⟩ := (hparams ..).1 hknown
    revert r
    decide

/-- In an item on two parameters that declares no type the first of them is taken for the type
of the second. -/
theorem readText_listing_shared :
    DocReader.standard.readText "Add\n\nArgs:\n  x, y: numbers".toList =
        .ok ⟨"Add".toList, "Add".toList,
          [("y".toList, ⟨some "numbers".toList, some "x,".toList⟩)], []⟩ ∧
      DocReader.standard.readText "Add\n\nArgs\n----\nx, y\n  numbers".toList =
        .ok ⟨"Add".toList, "Add".toList,
          [("y".toList, ⟨some "numbers".toList, some "x,".toList⟩)], []⟩ := by
  constructor <;> decide +kernel

end Outline
end CallDoc
