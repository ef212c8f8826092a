import CallDoc.Docstring
import CallDoc.Proofs.Doc.Lead
import CallDoc.Proofs.Doc.Marks
import CallDoc.Proofs.Doc.Params
import CallDoc.Proofs.Markup.Unmarked
import CallDoc.Proofs.Numeral.Label
import CallDoc.Proofs.Section.Unmarked

/-!
Documentation read from text without escapes. The only escapes in it begin display marks, which
come from the spans that are shown; names have none, and a plain report has none either.
-/
namespace CallDoc

open Text Display

/-! ## Prose -/

section Shown

variable {spans : List Span}

theorem Span.marked_shown {span : Span} (h : span.Unmarked) : Marked marks span.shown := by
  have hemphasis {mark content : Text} (hmark : mark ∈ marks) (hcontent : Text.Unmarked content) :
      Marked marks (mark ++ content ++ reset) :=
    ((marked_of_mem hmark).append (marked_of_not_mem hcontent)).append (marked_of_mem (by decide))
  cases span with
  | text content | literal content => exact marked_of_not_mem h
  | emphasis content => exact hemphasis (by decide) h
  | strong content => exact hemphasis (by decide) h
  | reference content => exact hemphasis (by decide) h
  | hyperlink content uri =>
    obtain ⟨hcontent, huri⟩ := unmarked_append.1 h
    refine marked_of_not_mem (?_ : Text.Unmarked (_ ++ _ ++ _ ++ _))
    simp only [unmarked_append]
    exact ⟨⟨⟨hcontent, by decide⟩, huri⟩, by decide⟩

theorem Span.marked_shownAll (h : ∀ span ∈ spans, span.Unmarked) :
    Marked marks (Span.shownAll spans) := by
  induction spans with
  | nil => exact .nil
  | cons span more ih =>
    obtain ⟨hspan, hmore⟩ := List.forall_mem_cons.1 h
    exact (marked_shown hspan).append (ih hmore)

theorem marked_titleShown {title : Text} (h : Marked marks title) :
    Marked marks (titleShown title) := by
  refine Marked.append ?_ (marked_of_not_mem (by decide))
  split
  · exact h.lowercaseAfter (fun _ => id) []
  · exact h

end Shown

/-- The prose of a chunk is well marked. -/
def Chunk.Marked (chunk : Chunk) : Prop :=
  ∀ text, chunk.prose? = some text → Display.Marked marks text

theorem marked_prose {line : Nat} {t : Text} (h : Display.Marked marks t) :
    (Chunk.prose line t).Marked := fun _ htext => Option.some.inj htext ▸ h

theorem marked_showProse {lead : Lead} (hlead : lead.Lacks '\x1b') (line : Nat) {t : Text}
    (h : Display.Marked marks t) : ∀ chunk ∈ (showProse lead line t).1, chunk.Marked := by
  have hhung : Display.Marked marks (hang lead.indent t) :=
    h.hang (fun _ => id) (Lead.not_mem_indent (by decide) lead)
  exact List.forall_mem_singleton.2 (marked_prose ((marked_of_not_mem hlead.text).append hhung))

namespace Block

mutual

theorem marked_chunks (lead : Lead) (hlead : lead.Lacks '\x1b') :
    ∀ block : Block, block.Unmarked → ∀ chunk ∈ (chunks lead block).1, chunk.Marked
  | paragraph line _, .paragraph h => marked_showProse hlead line (Span.marked_shownAll h)
  | doctest line _, .doctest h => marked_showProse hlead line (marked_of_not_mem h)
  | rubric line _, .rubric h =>
    marked_showProse hlead line (marked_titleShown (Span.marked_shownAll h))
  | literal _ _, .literal h =>
    have hindent : '\x1b' ∉ quoteIndent := not_mem_spaces (by decide) 4
    List.forall_mem_singleton.2 (marked_prose ((marked_of_not_mem hindent).append
      ((marked_of_not_mem h).hang (fun _ => id) hindent)))
  | quote _ children, .quote h =>
    marked_chunksOfAll _ (Lead.lacks_cons (not_mem_spaces (by decide) 4) hlead) children h
  | admonition line label children, .admonition hlabel h =>
    have htitle : '\x1b' ∉ label ++ [':'] :=
      unmarked_append.2 ⟨hlabel, (by decide : Text.Unmarked [':'])⟩
    have hspent := hlead.follows (by decide) (Lead.follows_spent lead)
    List.forall_mem_append.2 ⟨marked_showProse hlead line (marked_of_not_mem htitle),
      marked_chunksOfAll _ (Lead.lacks_cons (not_mem_spaces (by decide) 4) hspent) children h⟩
  | bullets _ bullet items, .bullets hbullet h => by
    refine marked_chunksOfItems lead _ hlead (fun label hlabel => ?_) items h
    rw [List.eq_of_mem_replicate hlabel]
    exact unmarked_append.2 ⟨hbullet, (by decide : Text.Unmarked [' '])⟩
  | enumerated _ sequence bracket start items, .enumerated h =>
    marked_chunksOfItems lead _ hlead
      (fun _ => sequence.not_mem_of_mem_labels (by decide) (by decide)) items h
  | field .., _ => List.forall_mem_singleton.2 nofun
  | comment .., _ => List.forall_mem_singleton.2 nofun

theorem marked_chunksOfAll (lead : Lead) (hlead : lead.Lacks '\x1b') :
    ∀ blocks : List Block, (∀ block ∈ blocks, block.Unmarked) →
      ∀ chunk ∈ (chunksOfAll lead blocks).1, chunk.Marked
  | [], _ => List.forall_mem_nil _
  | block :: more, h =>
    have ⟨hblock, hmore⟩ := List.forall_mem_cons.1 h
    have hnext := hlead.follows (by decide) (follows_chunks lead block)
    List.forall_mem_append.2
      ⟨marked_chunks lead hlead block hblock, marked_chunksOfAll _ hnext more hmore⟩

theorem marked_chunksOfItems (lead : Lead) (labels : List Text) (hlead : lead.Lacks '\x1b')
    (hlabels : ∀ label ∈ labels, '\x1b' ∉ label) :
    ∀ items : List (List Block), (∀ item ∈ items, ∀ block ∈ item, block.Unmarked) →
      ∀ chunk ∈ (chunksOfItems lead labels items).1, chunk.Marked
  | [], _ => List.forall_mem_nil _
  | item :: more, h => by
    cases labels with
    | nil => exact List.forall_mem_nil _
    | cons label labels =>
      obtain ⟨hitem, hmore⟩ := List.forall_mem_cons.1 h
      obtain ⟨hlabel, hlabels⟩ := List.forall_mem_cons.1 hlabels
      have hnext := hlead.follows (by decide) (follows_chunksOfAll (label :: lead) item).tail
      exact List.forall_mem_append.2
        ⟨marked_chunksOfAll _ (Lead.lacks_cons hlabel hlead) item hitem,
          marked_chunksOfItems _ labels hnext hlabels more hmore⟩

end

theorem marked_join {chunks : List Chunk} (h : ∀ chunk ∈ chunks, chunk.Marked) :
    Marked marks (Chunk.join chunks) := by
  induction chunks with
  | nil => exact .nil
  | cons chunk more ih =>
    obtain ⟨hchunk, hmore⟩ := List.forall_mem_cons.1 h
    cases chunk with
    | prose line text =>
      refine ((hchunk text rfl).append ?_).append (ih hmore)
      cases more with
      | nil => exact .nil
      | cons next more =>
        simp only [List.head?_cons, Option.elim_some, Chunk.gap]
        split <;> exact marked_of_not_mem (by decide)
    | skipped line => exact .char (by decide) (ih hmore)
    | field line => exact ih hmore

section Blocks

variable {blocks : List Block} (h : ∀ block ∈ blocks, block.Unmarked)
include h

theorem marked_describe : Marked marks (describe blocks) :=
  (marked_join (marked_chunksOfAll [] Lead.lacks_nil blocks h)).stripNewlines fun _ => id

theorem marked_summarize : Marked marks (summarize blocks) := by
  have hchunks := marked_chunksOfAll [] Lead.lacks_nil blocks h
  rw [summarize, Chunk.summary]
  cases hfirst : (chunksOfAll [] blocks).1.findSome? Chunk.prose? with
  | none => exact .nil
  | some text =>
    obtain ⟨chunk, hchunk, htext⟩ := List.exists_of_findSome?_eq_some hfirst
    exact hchunks chunk hchunk text htext

end Blocks

end Block

/-! ## Declarations -/

/-- Every escape in what is said of a parameter begins a display mark. -/
structure ParamDoc.WellMarked (param : ParamDoc) : Prop where
  text : ∀ t, param.text = some t → Marked marks t
  type : ∀ t, param.type = some t → Marked marks t

/-- Every escape in what is declared begins a display mark, and the names have none. -/
structure Declarations.WellMarked (d : Declarations) : Prop where
  names : ∀ entry ∈ d.params, Unmarked entry.1
  params : ∀ entry ∈ d.params, entry.2.WellMarked
  raises : UnmarkedLines d.raises

namespace Declarations

theorem wellMarked_empty : empty.WellMarked :=
  ⟨List.forall_mem_nil _, List.forall_mem_nil _, List.forall_mem_nil _⟩

namespace WellMarked

variable {d d' : Declarations} {what : Declared} {name : Text}

theorem get (h : d.WellMarked) (name : Text) : (d.params.get name).WellMarked := by
  rw [ParamDocs.get]
  cases hknown : d.params.find? name with
  | none => constructor <;> exact fun _ ht => absurd ht.symm (Option.some_ne_none _)
  | some known =>
    obtain ⟨before, after, hparams, -⟩ := List.lookup_eq_some_iff.1 hknown
    exact h.params (name, known) (hparams ▸ List.mem_append_right _ List.mem_cons_self)

theorem set (h : d.WellMarked) (hname : Unmarked name) {value : Text} (hvalue : Marked marks value) :
    (d.set what name value).WellMarked := by
  obtain ⟨htext, htype⟩ := h.get name
  have hset (t : Text) (ht : some value = some t) : Marked marks t := Option.some.inj ht ▸ hvalue
  refine ⟨fun entry hentry => ?_, fun entry hentry => ?_, h.raises⟩
  all_goals rcases ParamDocs.mem_of_mem_insert hentry with rfl | hentry
  · exact hname
  · exact h.names entry hentry
  · cases what with
    | text => exact ⟨hset, htype⟩
    | type => exact ⟨htext, hset⟩
  · exact h.params entry hentry

theorem setInline (h : d.WellMarked) (hname : Unmarked name) {type : Option Text}
    (htype : ∀ t, type = some t → Unmarked t) (hd : d.setInline name type = .ok d') :
    d'.WellMarked := by
  cases type with
  | none =>
    obtain rfl := Except.ok.inj hd
    exact h
  | some type =>
    obtain ⟨-, -, rfl⟩ := map_eq_ok_iff.1 hd
    exact h.set hname (marked_of_not_mem (htype type rfl))

theorem declareParam (h : d.WellMarked) (hname : Unmarked name) {type : Option Text}
    (htype : ∀ t, type = some t → Unmarked t) {body : Except Error Text}
    (hbody : ∀ value, body = .ok value → Marked marks value)
    (hd : d.declareParam what name type body = .ok d') : d'.WellMarked := by
  obtain ⟨inline, hinline, hd⟩ := bind_eq_ok_iff.1 hd
  obtain ⟨-, -, hd⟩ := bind_eq_ok_iff.1 hd
  obtain ⟨value, hvalue, hd⟩ := bind_eq_ok_iff.1 hd
  obtain rfl := Except.ok.inj hd
  exact (h.setInline hname htype hinline).set hname (hbody value hvalue)

end WellMarked
end Declarations

namespace Block

mutual

/-- A block without escapes keeps the declarations well marked. -/
theorem wellMarked_declare {d d' : Declarations} (hd : d.WellMarked) : ∀ block : Block,
    block.Unmarked → declare d block = .ok d' → d'.WellMarked
  | field _ role name type body, .field hname htype h, hrun => by
    have hbody (value : Text)
        (hvalue : (declareAll .empty body).map (fun _ => describe body) = .ok value) :
        Marked marks value := by
      obtain ⟨-, -, rfl⟩ := map_eq_ok_iff.1 hvalue
      exact marked_describe h
    cases role with
    | param | type => exact hd.declareParam hname htype hbody hrun
    | raises =>
      obtain rfl := Except.ok.inj hrun
      exact ⟨hd.names, hd.params,
        List.forall_mem_append.2 ⟨hd.raises, List.forall_mem_singleton.2 hname⟩⟩
    | other =>
      obtain rfl := Except.ok.inj hrun
      exact hd
  | quote _ children, .quote h, hrun => wellMarked_declareAll hd children h hrun
  | admonition _ _ children, .admonition _ h, hrun => wellMarked_declareAll hd children h hrun
  | bullets _ _ items, .bullets _ h, hrun => wellMarked_declareItems hd _ items h hrun
  | enumerated _ _ _ _ items, .enumerated h, hrun => wellMarked_declareItems hd _ items h hrun
  | paragraph .., _, hrun | literal .., _, hrun | doctest .., _, hrun | rubric .., _, hrun
  | comment .., _, hrun => Except.ok.inj hrun ▸ hd

theorem wellMarked_declareAll {d d' : Declarations} (hd : d.WellMarked) : ∀ blocks : List Block,
    (∀ block ∈ blocks, block.Unmarked) → declareAll d blocks = .ok d' → d'.WellMarked
  | [], _, hrun => Except.ok.inj hrun ▸ hd
  | block :: more, h, hrun => by
    obtain ⟨hblock, hmore⟩ := List.forall_mem_cons.1 h
    obtain ⟨next, hnext, hrun⟩ := bind_eq_ok_iff.1 hrun
    exact wellMarked_declareAll (wellMarked_declare hd block hblock hnext) more hmore hrun

theorem wellMarked_declareItems {d d' : Declarations} (hd : d.WellMarked) (labels : List Text) :
    ∀ items : List (List Block), (∀ item ∈ items, ∀ block ∈ item, block.Unmarked) →
      declareItems d labels items = .ok d' → d'.WellMarked
  | [], _, hrun => Except.ok.inj hrun ▸ hd
  | item :: more, h, hrun => by
    cases labels with
    | nil => exact Except.ok.inj hrun ▸ hd
    | cons label labels =>
      obtain ⟨hitem, hmore⟩ := List.forall_mem_cons.1 h
      obtain ⟨next, hnext, hrun⟩ := bind_eq_ok_iff.1 hrun
      exact wellMarked_declareItems (wellMarked_declareAll hd item hitem hnext) labels more hmore
        hrun

end

end Block

/-! ## Documentation -/

namespace Doc

/-- Every escape in the documentation begins a display mark, and the names have none. -/
structure WellMarked (doc : Doc) : Prop where
  summary : Marked marks doc.summary
  description : Marked marks doc.description
  names : ∀ entry ∈ doc.params, Unmarked entry.1
  params : ∀ entry ∈ doc.params, entry.2.WellMarked
  raises : UnmarkedLines doc.raises

theorem wellMarked_of_parse {roles : List Text} {t : Text} {blocks : List Block} {doc : Doc}
    (ht : Unmarked t) (hparse : Block.parse roles t = .ok blocks)
    (hdoc : ofBlocks blocks = .ok doc) : doc.WellMarked := by
  have hblocks := Block.unmarked_parse ht hparse
  obtain ⟨d, hd, rfl⟩ := map_eq_ok_iff.1 hdoc
  have hdeclared := Block.wellMarked_declareAll Declarations.wellMarked_empty blocks hblocks hd
  exact ⟨Block.marked_summarize hblocks, Block.marked_describe hblocks, hdeclared.names,
    hdeclared.params, hdeclared.raises⟩

section Report

variable {doc : Doc} (h : doc.WellMarked)
include h

theorem WellMarked.marked_paramLines {name : Text} {param : ParamDoc}
    (hmem : (name, param) ∈ doc.params) : ∀ line ∈ paramLines name param, Marked marks line := by
  have hname : Marked marks (spaces 2 ++ name) :=
    marked_of_not_mem (unmarked_append.2 ⟨unmarked_spaces 2, h.names _ hmem⟩)
  refine List.forall_mem_cons.2 ⟨hname.append ?_, List.forall_mem_map.2 fun line hline => ?_⟩
  · cases htype : param.type with
    | none => exact .nil
    | some type =>
      exact ((marked_of_not_mem (by decide)).append ((h.params _ hmem).type type htype)).append
        (marked_of_not_mem (by decide))
  · have htext : Marked marks (param.text.getD []) := by
      cases htext : param.text with
      | none => exact .nil
      | some text => exact (h.params _ hmem).text text htext
    split
    · exact .nil
    · exact (marked_of_not_mem (unmarked_spaces 6)).append (htext.lines (fun _ => id) line hline)

theorem WellMarked.marked_reportParts : ∀ part ∈ doc.reportParts, Marked marks part := by
  have hnewline : '\x1b' ∉ ['\n'] := by decide
  refine List.forall_mem_append.2 ⟨List.forall_mem_append.2 ⟨?_, ?_⟩, ?_⟩
  · split
    · exact nofun
    · exact List.forall_mem_singleton.2 h.description
  · split
    · exact nofun
    · refine List.forall_mem_singleton.2 (marked_joinWith hnewline ?_)
      refine List.forall_mem_cons.2 ⟨marked_of_not_mem (by decide), fun line hline => ?_⟩
      obtain ⟨⟨name, param⟩, hmem, hline⟩ := List.mem_flatMap.1 hline
      exact h.marked_paramLines hmem line hline
  · split
    · exact nofun
    · refine List.forall_mem_singleton.2 (marked_joinWith hnewline ?_)
      refine List.forall_mem_cons.2 ⟨marked_of_not_mem (by decide), List.forall_mem_map.2 ?_⟩
      exact fun name hname =>
        marked_of_not_mem (unmarked_append.2 ⟨unmarked_spaces 2, h.raises name hname⟩)

/-- Without its marks the report has no escape. -/
theorem WellMarked.unmarked_textReport : Unmarked (doc.textReport true) := by
  have hgap : '\x1b' ∉ ['\n', '\n'] := by decide
  have hwhole := (marked_joinWith hgap h.marked_reportParts).withoutMarks
  rw [textReport, if_pos rfl]
  split
  · exact unmarked_nil
  · exact unmarked_append.2 ⟨hwhole, (by decide : Unmarked ['\n'])⟩

end Report

end Doc

/-- No escape gets from the markup into a plain report: what is read from text without escapes
has them only where display marks begin, and these are removed. -/
theorem DocReader.report_of_read (reader : DocReader) {t : Text} (ht : '\x1b' ∉ t) {doc : Doc}
    (h : reader.read (some t) = .ok doc) :
    (∀ source, '\x1b' ∉ doc.report (.text true) source) ∧
      (∀ shown ∈ doc.summary :: doc.description ::
          doc.params.flatMap (fun (_, param) => param.text.toList ++ param.type.toList),
        ∀ before after, shown = before ++ '\x1b' :: after →
          ∃ mark ∈ [italic, bold, underline, reset], mark <+: '\x1b' :: after) := by
  have hmarked : doc.WellMarked := by
    cases hparse : Block.parse reader.roles (reader.canonical t) with
    | error e =>
      rw [read, readText, hparse] at h
      cases h
    | ok blocks =>
      rw [read, readText, hparse] at h
      exact Doc.wellMarked_of_parse
        (reader.conventions.unmarked_normalize (unmarked_cleanMargin ht)) hparse h
  refine ⟨fun _ => hmarked.unmarked_textReport, fun shown hshown before after => ?_⟩
  suffices Marked marks shown from this.exists_prefix fun _ => id
  rcases List.mem_cons.1 hshown with rfl | hshown
  · exact hmarked.summary
  rcases List.mem_cons.1 hshown with rfl | hshown
  · exact hmarked.description
  obtain ⟨⟨name, param⟩, hmem, hshown⟩ := List.mem_flatMap.1 hshown
  rcases List.mem_append.1 hshown with hshown | hshown
  · exact (hmarked.params _ hmem).text shown (Option.mem_toList.1 hshown)
  · exact (hmarked.params _ hmem).type shown (Option.mem_toList.1 hshown)

/-- Emphasis in the prose, in a text and in a type. -/
theorem DocReader.report_of_read_emphasis :
    ∃ doc, standard.read (some "*A* b\n\n:param x: **X**\n:type x: \x60T\x60".toList) = .ok doc ∧
      doc.description = "\x1b[3mA\x1b[0m b".toList ∧
      doc.params = [(['x'], ⟨some "\x1b[1mX\x1b[0m".toList, some "\x1b[4mT\x1b[0m".toList⟩)] ∧
      (∀ source, '\x1b' ∉ doc.report (.text true) source) ∧
      (∀ before after, "\x1b[4mT\x1b[0m".toList = before ++ '\x1b' :: after →
        ∃ mark ∈ [italic, bold, underline, reset], mark <+: '\x1b' :: after) := by
  have hread : standard.read (some "*A* b\n\n:param x: **X**\n:type x: \x60T\x60".toList) =
      .ok ⟨"\x1b[3mA\x1b[0m b".toList, "\x1b[3mA\x1b[0m b".toList,
        [(['x'], ⟨some "\x1b[1mX\x1b[0m".toList, some "\x1b[4mT\x1b[0m".toList⟩)], []⟩ := by
    decide +kernel
  obtain ⟨hplain, hmarks⟩ := standard.report_of_read (by decide) hread
  exact ⟨_, hread, rfl, rfl, hplain, hmarks _ (by decide)⟩

end CallDoc
