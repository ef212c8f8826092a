import CallDoc.Proofs.Markup.Shown
import CallDoc.Proofs.Outline.FieldList
import CallDoc.Proofs.Type.Ends
import CallDoc.Type.Reduce

/-!
A type in a field of its own. The body of the field is read as a text like any other, and the
type is what is shown of it: a spelling loses its escapes, and the underscores that make words
in it references.
-/
namespace CallDoc

open Text Section

/-! ## One line -/

/-- A line with something at both ends that is not blank, and without tabs. -/
structure Text.IsOneLine (t : Text) : Prop where
  solid : IsSolid t
  newline : '\n' ∉ t
  tab : '\t' ∉ t

theorem Text.IsOneLine.ne_some {t : Text} (h : IsOneLine t) : some t ≠ some [] :=
  fun he => h.solid.ne_nil (Option.some.inj he)

theorem Text.trimmedLines_of_isOneLine {t : Text} (h : IsOneLine t) : trimmedLines t = [t] := by
  have hlast : [t].getLast? ≠ some [] := h.ne_some
  have hlines := trimmedLines_unlines_of_newline (List.forall_mem_singleton.2 h.newline) hlast
  rwa [unlines_singleton, List.map_singleton, h.solid.trimEnd] at hlines

section OneLine

variable {t : Text} (h : IsOneLine t) (hcolon : Heading.ofColonLine? t = none)
include h hcolon

theorem cleanMargin_of_isOneLine : cleanMargin t = t := by
  have hsource : sourceLines t = [t] := by
    rw [sourceLines, splitOn_of_not_mem h.newline, List.map_singleton,
      expandTabs_of_not_mem h.tab]
    simp [h.solid.blank]
  have hstart : trimStart t = t := h.solid.trimStart_append [] rfl
  have hdedent : dedent [] = [] := rfl
  have hstrip : stripEmpty [t] = [t] := by
    rw [← List.append_nil [t]]
    exact stripEmpty_append h.ne_some h.ne_some (List.forall_mem_nil _)
  rw [cleanMargin, hsource]
  simp only [keepsMargin, hstart, hcolon, hdedent, Option.isSome_none, Bool.false_and,
    Bool.false_eq_true, if_false, hstrip, unlines_singleton]

/-- A line that begins no section is in canonical form. -/
theorem canonical_of_isOneLine (hdot : t.head? ≠ some '.') :
    DocReader.standard.canonical t = t := by
  have hcanonical (convention : Convention) : canonicalText convention t = t := by
    have hopening : opening? convention [t] = none := by
      cases convention with
      | google => exact opening?_google_none hcolon []
      | numpy =>
        exact opening?_numpy_none (Or.inr fun next he => absurd he.symm (Option.some_ne_none next))
          hdot
    rw [canonicalText, trimmedLines_of_isOneLine h, canonical_eq_self
      (List.forall_mem_singleton.2 h.solid.trimEnd) ⟨hopening, trivial⟩, unlines_singleton]
  rw [DocReader.canonical, cleanMargin_of_isOneLine h hcolon]
  exact (congrArg (canonicalText .numpy) (hcanonical .google)).trans (hcanonical .numpy)

end OneLine

theorem Line.ofText_of_isOneLine {t : Text} (h : IsOneLine t) : ofText t = [⟨0, t⟩] := by
  rw [ofText, trimmedLines_of_isOneLine h]
  rfl

/-! ## The field -/

/-- The field `:type name: type`. -/
def typeField (name type : Text) : Text := fieldMark "type".toList name ++ ' ' :: type

section Field

variable {name type : Text} (hname : isName name = true) (hline : IsOneLine type)
include hname hline

theorem isOneLine_typeField : IsOneLine (typeField name type) := by
  obtain ⟨u, c, hlast, hc⟩ := hline.solid.last
  have hmem {d : Char} (hblank : isBlank d = true) (hother : d ∉ ":type ".toList) (hd : d ∉ type) :
      d ∉ typeField name type := by
    have hword : d ∉ name := fun hmem => by
      have := (Outline.isWord_of_isName hname).blank d hmem
      rw [hblank] at this
      cases this
    simp [typeField, fieldMark] at hother ⊢
    tauto
  refine ⟨⟨⟨':', _, rfl, rfl⟩, fieldMark "type".toList name ++ ' ' :: u, c, ?_, hc⟩,
    hmem rfl (by decide) hline.newline, hmem rfl (by decide) hline.tab⟩
  rw [typeField, hlast, List.append_assoc, List.cons_append]

/-- A field at the start of the document is its only block. -/
theorem cut_typeField :
    Frame.cut (Line.ofText (typeField name type)) =
      [.field 0 .type name none (Line.ofText type)] := by
  have hword := Outline.isWord_of_isName hname
  have hlast : name.getLast? ≠ some '\\' := fun he =>
    Outline.isName_ne hname (List.mem_of_getLast? he) (by decide) (by decide) rfl
  have hrole : IsWord "type".toList := Field.isWord_of_mem_roles (by decide)
  have hmark : Frame.fieldHeader? (typeField name type) =
      some ("type".toList ++ ' ' :: name, type) :=
    Frame.fieldHeader?_fieldMark hrole hword.isSolid (staysOpen_of_not_mem hword.colon) hlast
      hline.solid
  have hheader : Frame.readHeader? ("type".toList ++ ' ' :: name) = some (.type, none, name) := by
    have hplain : Frame.plainName ([] ++ name) = name := Outline.plainName_append nofun hname
    rw [Frame.readHeader?_words hrole hword]
    exact congrArg (fun plain => some (FieldRole.type, none, plain)) hplain
  have hblank : Line.isBlank ⟨0, typeField name type⟩ = false := rfl
  have hindent : Line.isIndented ⟨0, typeField name type⟩ = false := rfl
  have hexplicit : Frame.isExplicit (typeField name type) = false :=
    Frame.isExplicit_of_head (by decide)
  have hbody : Line.bodyBelow ⟨0, type⟩ [] = Line.ofText type := by
    rw [Line.ofText_of_isOneLine hline, Line.bodyBelow, Line.isBlank, hline.solid.blank]
    rfl
  have hfirst : Frame.first ⟨0, typeField name type⟩ [] =
      ([.field 0 .type name none (Line.ofText type)], []) := by
    have hhanging : Line.hanging [] = ([], []) := rfl
    unfold Frame.first
    rw [hhanging]
    dsimp only
    rw [hindent, hexplicit, hmark]
    simp only [Bool.false_eq_true, if_false, hheader, hbody]
  rw [Line.ofText_of_isOneLine (isOneLine_typeField hname hline), Frame.cut,
    if_neg (by simp [hblank]), hfirst, Frame.cut, List.append_nil]

/-- The type is what is shown of the text behind the name. -/
theorem readText_typeField :
    DocReader.standard.readText (typeField name type) =
      ((Block.parse Role.usual type).bind Doc.ofBlocks).map fun doc =>
        ⟨[], [], [(name, ⟨none, some doc.description⟩)], []⟩ := by
  have hhead : (typeField name type).head? = some ':' := rfl
  have hcanonical := canonical_of_isOneLine (isOneLine_typeField hname hline)
    (ofColonLine?_of_mark hhead (by decide)) (by rw [hhead]; decide)
  have hparse : Block.parse Role.usual (typeField name type) =
      (Block.parse Role.usual type).map fun body => [.field 0 .type name none body] := by
    rw [Block.parse, Block.ofLines_eq, cut_typeField hname hline, List.mapM_cons, List.mapM_nil,
      Frame.toBlock, Block.parse]
    cases Block.ofLines Role.usual (Line.ofText type) <;> rfl
  rw [DocReader.readText, hcanonical]
  change (Block.parse Role.usual _).bind Doc.ofBlocks = _
  rw [hparse]
  cases Block.parse Role.usual type with
  | error e => rfl
  | ok body =>
    change Doc.ofBlocks [.field 0 .type name none body] = (Doc.ofBlocks body).map _
    have hdeclare : Block.declareAll .empty [.field 0 .type name none body] =
        (Block.declareAll .empty body).map fun _ =>
          ⟨[(name, ⟨none, some (Block.describe body)⟩)], []⟩ := by
      rw [Block.declareAll, Block.declare]
      cases Block.declareAll .empty body <;> rfl
    rw [Doc.ofBlocks, Doc.ofBlocks, hdeclare]
    cases Block.declareAll .empty body <;> rfl

end Field

/-! ## Its type -/

theorem Block.describe_paragraph (number : Nat) (spans : List Span) :
    describe [.paragraph number spans] = stripWhere (· == '\n') (Span.shownAll spans) := by
  have hchunks : (chunksOfAll [] [.paragraph number spans]).1 =
      [.prose number (hang [] (Span.shownAll spans))] := rfl
  rw [describe, hchunks, hang_nil, Chunk.description]
  exact congrArg _ ((List.append_nil _).trans (List.append_nil _))

section Spelled

variable {name type : Text} {hint : Hint} (hline : IsOneLine type)
  (hhint : Hint.ofSpelling type = .ok hint)
include hline hhint

/-- The spelling of a type that does not look like a list is a paragraph. -/
theorem cut_of_ofSpelling (hmarker : Marker.ofLine? type = none) :
    Frame.cut (Line.ofText type) = [.paragraph 0 type] := by
  obtain ⟨c, u, hstart, hc⟩ := Hint.exists_cons_of_ofSpelling hhint hline.solid
  obtain ⟨v, d, hlast, hd⟩ := Hint.exists_concat_of_ofSpelling hhint hline.solid
  have hblank : isBlank c = false :=
    Spelling.isBlank_of_continuesName (Spelling.continuesName_of_startsName hc)
  have hmarks : ∀ d ∈ ".:*+-".toList, isMark d = true ∧ d ≠ '_' :=
    forall_mem_of_all (by decide)
  have hmark : c ∉ ".:*+-".toList := fun hmem =>
    Spelling.ne_of_startsName hc (hmarks c hmem).1 (hmarks c hmem).2 rfl
  have hdoctest : startsWith ">>>".toList type = false := by
    rw [hstart]
    exact startsWith_cons_of_ne (Spelling.ne_of_startsName hc (by decide) (by decide)) _ u
  have hcolon : type.getLast? ≠ some ':' := by
    rw [hlast, List.getLast?_concat]
    rintro ⟨⟩
    exact hd.elim (fun hd => Spelling.ne_of_continuesName hd (by decide) (by decide) rfl)
      (by decide)
  have htext : unlines ([⟨0, type⟩].map fun l : Line => trim l.text) = type := by
    rw [List.map_singleton, unlines_singleton, hline.solid.trim]
  have hnone : ∀ l ∈ ([] : List Line), l.isBlank = false := nofun
  have hend : ∀ l, ([] : List Line).head? = some l → l.isBlank = true := nofun
  have hparagraph := Frame.ofParagraph_of_unannounced htext hline.solid.ne_nil hdoctest
    (Frame.announcesLiteral_of_last hcolon) hnone hend
  have hfirst : Frame.first ⟨0, type⟩ [] = Frame.ofParagraph ⟨0, type⟩ [] :=
    Frame.first_of_head hstart hblank hmark hmarker []
  rw [Line.ofText_of_isOneLine hline, Frame.cut, Line.isBlank, hline.solid.blank,
    if_neg Bool.false_ne_true, hfirst]
  rw [List.append_nil] at hparagraph
  rw [hparagraph, Frame.cut]
  rfl

theorem parse_of_ofSpelling (hmarker : Marker.ofLine? type = none) :
    Block.parse Role.usual type =
      (Inline.scan Role.usual none type).map fun spans => [.paragraph 0 spans] := by
  rw [Block.parse, Block.ofLines_eq, cut_of_ofSpelling hline hhint hmarker, List.mapM_cons,
    List.mapM_nil, Frame.toBlock, Inline.parse]
  cases Inline.scan Role.usual none type <;> rfl

variable (hname : isName name = true) (hmarker : Marker.ofLine? type = none)
include hname hmarker

theorem readText_typeField_of_scan {spans : List Span}
    (hspans : Inline.scan Role.usual none type = .ok spans) :
    DocReader.standard.readText (typeField name type) = .ok ⟨[], [],
      [(name, ⟨none, some (stripWhere (· == '\n') (Span.shownAll spans))⟩)], []⟩ := by
  rw [readText_typeField hname hline, parse_of_ofSpelling hline hhint hmarker, hspans,
    ← Block.describe_paragraph 0 spans]
  rfl

theorem readText_typeField_of_isInert (hinert : Inline.isInert Role.usual none type = true) :
    DocReader.standard.readText (typeField name type) =
      .ok ⟨[], [], [(name, ⟨none, some type⟩)], []⟩ := by
  obtain ⟨spans, hspans⟩ := Inline.exists_scan_of_isInert hinert
  have hstrip : stripWhere (· == '\n') (type ++ []) = type :=
    hline.solid.stripWhere_newline (List.forall_mem_nil _)
  rw [List.append_nil] at hstrip
  rw [readText_typeField_of_scan hline hhint hname hmarker hspans,
    (Inline.shownAll_eq_iff hspans).2 hinert, hstrip]

theorem isInert_of_readText_typeField
    (hread : DocReader.standard.readText (typeField name type) =
      .ok ⟨[], [], [(name, ⟨none, some type⟩)], []⟩) :
    Inline.isInert Role.usual none type = true := by
  cases hspans : Inline.scan Role.usual none type with
  | error e =>
    rw [readText_typeField hname hline, parse_of_ofSpelling hline hhint hmarker, hspans] at hread
    cases hread
  | ok spans =>
    rcases Inline.isInert_or_alters hspans with ⟨hinert, -⟩ | ⟨-, halters⟩
    · exact hinert
    · rw [readText_typeField_of_scan hline hhint hname hmarker hspans] at hread
      have hstrip : stripWhere (· == '\n') (Span.shownAll spans) = type := by simpa using hread
      exact absurd hstrip (halters.stripWhere (by decide)).ne

/-- A field declares the type with its own spelling exactly when no character of that is taken
as markup; then it is resolved as the type that the spelling denotes. -/
theorem readText_typeField_iff :
    (DocReader.standard.readText (typeField name type) =
        .ok ⟨[], [], [(name, ⟨none, some type⟩)], []⟩ ↔
      Inline.isInert Role.usual none type = true) ∧
    (Inline.isInert Role.usual none type = true → ∀ ns : Namespace,
      ∃ doc, DocReader.standard.readText (typeField name type) = .ok doc ∧
        ns.resolve name (doc.params.get name).type none = ns.reduce hint) := by
  have hkept := readText_typeField_of_isInert hline hhint hname hmarker
  refine ⟨⟨isInert_of_readText_typeField hline hhint hname hmarker, hkept⟩, fun hinert ns =>
    ⟨_, hkept hinert, ?_⟩⟩
  have htype : (ParamDocs.get [(name, ⟨none, some type⟩)] name).type = some type := by
    simp [ParamDocs.get, ParamDocs.find?]
  rw [htype]
  change ns.reduceSpelling type = _
  rw [Namespace.reduceSpelling, hhint]
  rfl

end Spelled

theorem readText_typeField_iff_path :
    DocReader.standard.readText ":type x: pathlib.Path or _Default".toList =
        .ok ⟨[], [], [("x".toList, ⟨none, some "pathlib.Path or _Default".toList⟩)], []⟩ ∧
      (∀ ns : Namespace,
        ∃ doc, DocReader.standard.readText ":type x: pathlib.Path or _Default".toList = .ok doc ∧
          ns.resolve "x".toList (doc.params.get "x".toList).type none =
            ns.reduce (.union [.named "pathlib.Path".toList, .named "_Default".toList])) ∧
      DocReader.standard.readText ":type x: Color_ or None".toList ≠
        .ok ⟨[], [], [("x".toList, ⟨none, some "Color_ or None".toList⟩)], []⟩ := by
  have hname : isName "x".toList = true := by decide
  have hpath : IsOneLine "pathlib.Path or _Default".toList :=
    ⟨⟨⟨'p', _, rfl, rfl⟩, "pathlib.Path or _Defaul".toList, 't', rfl, rfl⟩, by decide, by decide⟩
  have hcolor : IsOneLine "Color_ or None".toList :=
    ⟨⟨⟨'C', _, rfl, rfl⟩, "Color_ or Non".toList, 'e', rfl, rfl⟩, by decide, by decide⟩
  have hpathHint : Hint.ofSpelling "pathlib.Path or _Default".toList =
      .ok (.union [.named "pathlib.Path".toList, .named "_Default".toList]) := by decide +kernel
  have hcolorHint : Hint.ofSpelling "Color_ or None".toList =
      .ok (.union [.named "Color_".toList, .none]) := by decide +kernel
  have hinert : Inline.isInert Role.usual none "pathlib.Path or _Default".toList = true := by decide
  obtain ⟨hkept, hresolved⟩ := readText_typeField_iff hpath hpathHint hname (by decide)
  obtain ⟨haltered, -⟩ := readText_typeField_iff hcolor hcolorHint hname (by decide)
  exact ⟨hkept.2 hinert, hresolved hinert, fun hsame => absurd (haltered.1 hsame) (by decide)⟩

/-- A word that ends in an underscore is a reference to the reader of markup, and shown without
it; the spelling denotes a type of another name. -/
theorem readText_typeField_reference :
    DocReader.standard.readText ":type x: Color_".toList =
        .ok ⟨[], [], [("x".toList, ⟨none, some "Color".toList⟩)], []⟩ ∧
      Hint.ofSpelling "Color_".toList = .ok (.named "Color_".toList) ∧
      Hint.ofSpelling "Color".toList ≠ .ok (.named "Color_".toList) := by
  decide +kernel

end CallDoc
