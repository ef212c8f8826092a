import Mathlib.Data.List.ReduceOption
import CallDoc.Proofs.Markup.Counting
import CallDoc.Proofs.Markup.FieldList

/-!
A document of one paragraph of prose with a field list below it: its tree, and the
documentation that the tree holds.
-/
namespace CallDoc

open Text

/-- The lines of a field list, in which some pieces are empty lines. -/
def Field.written (pieces : List (Option Field)) : List Text :=
  pieces.flatMap fun piece => piece.elim [[]] Field.lines

theorem Line.map_text_ofText (t : Text) : (Line.ofText t).map Line.text = trimmedLines t :=
  List.ext_getElem? fun n => by simp [Line.ofText, Function.comp_def]

/-- The frame of a field with the lines of its body, or none when its header is not read. -/
def Field.Framed (f : Field) (frames : List Frame) : Prop :=
  ∃ number body, frames = (f.header?.map fun (role, type, name) =>
      Frame.field number role name type body).toList ∧
    body.map Line.text = f.body

/-- The block of a field, which says nothing but its header and its body. -/
def Field.ReadAs (f : Field) (blocks : List Block) : Prop :=
  ∃ number inner, blocks = (f.header?.map fun (role, type, name) =>
    Block.field number role name type [.paragraph inner [.text (unlines f.body)]]).toList

def Block.IsField (block : Block) : Prop :=
  ∃ number role name type body, block = .field number role name type body

/-- The block of a field, which says nothing but its body. -/
def Field.Read (f : Field) (block : Block) : Prop :=
  ∃ number inner, block =
    .field number (FieldRole.ofWord f.role) (Frame.plainName f.name) none
      [.paragraph inner [.text (unlines f.body)]]

namespace Field

theorem written_map_some (fields : List Field) :
    written (fields.map some) = fields.flatMap lines := by
  rw [written, List.flatMap_map]
  rfl

theorem written_append (a b : List (Option Field)) :
    written (a ++ b) = written a ++ written b := List.flatMap_append

theorem isField_of_read {fields : List Field} {blocks : List Block}
    (h : List.Forall₂ Read fields blocks) : ∀ block ∈ blocks, block.IsField := by
  intro block hblock
  obtain ⟨f, -, number, inner, rfl⟩ := exists_of_mem_forall₂ h hblock
  exact ⟨number, _, _, _, _, rfl⟩

theorem isField_of_readAs {fields : List Field} {blocks : List (List Block)}
    (h : List.Forall₂ ReadAs fields blocks) : ∀ block ∈ blocks.flatten, block.IsField := by
  intro block hblock
  obtain ⟨own, hown, hblock⟩ := List.mem_flatten.1 hblock
  obtain ⟨f, -, number, inner, rfl⟩ := exists_of_mem_forall₂ h hown
  obtain ⟨⟨role, type, name⟩, -, rfl⟩ := Option.map_eq_some_iff.1 (Option.mem_toList.1 hblock)
  exact ⟨number, _, _, _, _, rfl⟩

/-- No list stands in the fields. -/
theorem keepsCount_of_readAs {fields : List Field} {blocks : List (List Block)}
    (h : List.Forall₂ ReadAs fields blocks) : Block.KeepsCount blocks.flatten := by
  refine .of_forall fun block hblock => ?_
  obtain ⟨own, hown, hblock⟩ := List.mem_flatten.1 hblock
  obtain ⟨f, -, number, inner, rfl⟩ := exists_of_mem_forall₂ h hown
  obtain ⟨⟨role, type, name⟩, -, rfl⟩ := Option.map_eq_some_iff.1 (Option.mem_toList.1 hblock)
  exact .singleton nofun (List.forall_mem_singleton.2 (Block.keepsCount_paragraph inner _))

theorem read_of_readAs {fields : List Field} (h : ∀ f ∈ fields, f.IsWritten)
    {blocks : List (List Block)} (hread : List.Forall₂ ReadAs fields blocks) :
    List.Forall₂ Read fields blocks.flatten := by
  induction hread with
  | nil => exact .nil
  | cons hf _ ih =>
    obtain ⟨hwritten, hmore⟩ := List.forall_mem_cons.1 h
    obtain ⟨number, inner, rfl⟩ := hf
    rw [header?_of_isWritten hwritten]
    exact .cons ⟨number, inner, rfl⟩ (ih hmore)

variable {pieces : List (Option Field)} (h : ∀ f ∈ pieces.reduceOption, f.IsLaid)
include h

theorem endsInProse_of_written : ∀ line ∈ written pieces, line = [] ∨ EndsInProse line := by
  intro line hline
  obtain ⟨piece, hpiece, hline⟩ := List.mem_flatMap.1 hline
  cases piece with
  | none => exact Or.inl (List.mem_singleton.1 hline)
  | some f => exact Or.inr (endsInProse (h f (List.reduceOption_mem_iff.2 hpiece)) line hline)

theorem getLast?_written (hlast : pieces.getLast? ≠ some none) :
    (written pieces).getLast? ≠ some [] := by
  rcases List.eq_nil_or_concat' pieces with rfl | ⟨init, piece, rfl⟩
  · exact nofun
  · cases piece with
    | none => simp at hlast
    | some f =>
      have hf := h f (List.reduceOption_mem_iff.2 (by simp))
      obtain ⟨first, more, hbody⟩ := List.exists_cons_of_ne_nil hf.body.ne_nil
      have hlines : written (init ++ [some f]) = written init ++ f.lines := by simp [written]
      rw [hlines, List.getLast?_append_of_ne_nil _ (by rw [lines_eq hbody]; simp)]
      exact fun he => (endsInProse hf [] (List.mem_of_getLast? he)).ne_nil rfl

omit h in
/-- A field list that does not start with a field starts with an empty line. -/
theorem head?_written (hgap : ∀ f, pieces.head? ≠ some (some f)) (line : Text)
    (hline : (written pieces).head? = some line) : line = [] := by
  cases pieces with
  | nil => cases hline
  | cons piece pieces =>
    cases piece with
    | none => exact (Option.some.inj hline).symm
    | some f => exact absurd rfl (hgap f)

omit h in
/-- The mark of a field stands at the margin. -/
theorem exists_mark_of_written {f : Field} (hf : some f ∈ pieces) :
    ∃ line ∈ written pieces, line ≠ [] ∧ indent line = 0 := by
  obtain ⟨t, more, hlines⟩ := f.exists_lines
  refine ⟨f.mark ++ t, List.mem_flatMap.2 ⟨some f, hf, ?_⟩, List.cons_ne_nil _ _, rfl⟩
  change f.mark ++ t ∈ f.lines
  rw [hlines]
  exact List.mem_cons_self

end Field

namespace Frame

variable {f : Field}

theorem first_field (h : f.IsLaid) {first : Text} {more : List Text}
    (hbody : f.body = first :: more) {line : Line} (hline : line.text = f.mark ++ ' ' :: first)
    {body rest : List Line} (hbelow : body.map Line.text = Text.pad f.pad more)
    (hrest : ∀ line, (rest.dropWhile Line.isBlank).head? = some line → line.isIndented = false) :
    ∃ frames, Frame.first line (body ++ rest) = (frames, rest) ∧ f.Framed frames := by
  obtain ⟨number, t⟩ := line
  dsimp only at hline
  subst hline
  have hprose := h.body.prose
  rw [hbody] at hprose
  obtain ⟨hfirst, hmore⟩ := List.forall_mem_cons.1 hprose
  have hindented : ∀ line ∈ body, line.isBlank = false ∧ line.isIndented = true := by
    intro line hmem
    have htext : line.text ∈ Text.pad f.pad more := hbelow ▸ List.mem_map_of_mem hmem
    obtain ⟨t, ht, he⟩ := List.mem_map.1 htext
    have hsolid := isSolid_of_isProse (hmore t ht)
    rw [Line.isBlank, Line.isIndented, ← he, hsolid.indent]
    exact ⟨hsolid.blank_append _, decide_eq_true h.pad⟩
  have hstart : Line.isIndented ⟨number, f.mark ++ ' ' :: first⟩ = false := rfl
  have hexplicit : isExplicit (f.mark ++ ' ' :: first) = false := isExplicit_of_head (by decide)
  have hblank : Line.isBlank ⟨number, first⟩ = false := Line.isBlank_of_isProse hfirst
  refine ⟨_, ?_, number, Line.bodyBelow ⟨number, first⟩ body, rfl, ?_⟩
  · unfold Frame.first
    dsimp only
    rw [Line.hanging_append body hrest, Line.hanging_of_indented hindented, List.nil_append,
      hstart, hexplicit, Field.fieldHeader?_mark h (isSolid_of_isProse hfirst)]
    dsimp only
    rw [← Field.header?.eq_def]
    cases f.header? <;> rfl
  · rw [Line.bodyBelow, hblank, if_neg Bool.false_ne_true, List.map_append,
      Line.dedent_pad hmore hbelow, hbody]
    rfl

/-- Below the empty lines in front of it a field list starts at the margin. -/
theorem isIndented_of_written {pieces : List (Option Field)} {lines : List Line}
    (hlines : lines.map Line.text = Field.written pieces) :
    ∀ line, (lines.dropWhile Line.isBlank).head? = some line → line.isIndented = false := by
  induction pieces generalizing lines with
  | nil =>
    obtain rfl := List.map_eq_nil_iff.1 hlines
    exact nofun
  | cons piece pieces ih =>
    obtain ⟨own, rest, rfl, hown, hrest⟩ := List.map_eq_append_iff.1 hlines
    cases piece with
    | none =>
      obtain ⟨line, rfl, hline⟩ := List.map_eq_singleton_iff.1 hown
      have hblank : line.isBlank = true := by rw [Line.isBlank, hline]; rfl
      rw [List.singleton_append, List.dropWhile_cons_of_pos hblank]
      exact ih hrest
    | some f =>
      obtain ⟨t, more, hlines⟩ := f.exists_lines
      change own.map Line.text = f.lines at hown
      rw [hlines] at hown
      obtain ⟨line, body, rfl, hline, -⟩ := List.map_eq_cons_iff.1 hown
      have hblank : line.isBlank = false := by rw [Line.isBlank, hline]; rfl
      rw [List.cons_append, List.dropWhile_cons_of_neg (by simp [hblank])]
      rintro l ⟨⟩
      rw [Line.isIndented, hline]
      rfl

/-- A field list is cut into its fields. -/
theorem cut_written {pieces : List (Option Field)} (h : ∀ f ∈ pieces.reduceOption, f.IsLaid)
    {lines : List Line} (hlines : lines.map Line.text = Field.written pieces) :
    ∃ frames, List.Forall₂ Field.Framed pieces.reduceOption frames ∧
      cut lines = frames.flatten := by
  induction pieces generalizing lines with
  | nil =>
    obtain rfl := List.map_eq_nil_iff.1 hlines
    rw [cut]
    exact ⟨[], .nil, rfl⟩
  | cons piece pieces ih =>
    obtain ⟨own, rest, rfl, hown, hrest⟩ := List.map_eq_append_iff.1 hlines
    cases piece with
    | none =>
      obtain ⟨line, rfl, hline⟩ := List.map_eq_singleton_iff.1 hown
      have hblank : line.isBlank = true := by rw [Line.isBlank, hline]; rfl
      rw [List.singleton_append, cut, if_pos hblank]
      exact ih h hrest
    | some f =>
      rw [List.reduceOption_cons_of_some] at h ⊢
      obtain ⟨hf, hmore⟩ := List.forall_mem_cons.1 h
      obtain ⟨first, more, hbody⟩ := List.exists_cons_of_ne_nil hf.body.ne_nil
      change own.map Line.text = f.lines at hown
      rw [Field.lines, hbody] at hown
      obtain ⟨line, body, rfl, hline, hbelow⟩ := List.map_eq_cons_iff.1 hown
      -- what follows starts at the margin, so that the body takes its own lines only
      obtain ⟨own, hfirst, hown⟩ :=
        first_field hf hbody hline hbelow (isIndented_of_written hrest)
      obtain ⟨frames, hframes, hcut⟩ := ih hmore hrest
      have hblank : line.isBlank = false := by rw [Line.isBlank, hline]; rfl
      rw [List.cons_append, cut, if_neg (by simp [hblank]), hfirst, hcut]
      exact ⟨own :: frames, .cons hown hframes, rfl⟩

end Frame

namespace Block

variable (roles : List Text)

theorem ofLines_prose {prose : List Text} (h : IsProseLines prose) {lines : List Line}
    (hlines : lines.map Line.text = prose) :
    ∃ number, ofLines roles lines = .ok [.paragraph number [.text (unlines prose)]] := by
  have hend : ∀ t, ([] : List Text).head? = some t → t = [] := nofun
  obtain ⟨number, after, hcut, hafter⟩ :=
    Frame.cut_prose h hend (hlines.trans (List.append_nil prose).symm)
  obtain rfl := List.map_eq_nil_iff.1 hafter
  refine ⟨number, ?_⟩
  rw [ofLines_eq, hcut, Frame.cut]
  change ((Inline.parse roles (unlines prose)).map _).bind _ = _
  rw [Inline.parse_prose h]
  rfl

theorem mapM_of_framed {fields : List Field} (h : ∀ f ∈ fields, f.IsLaid)
    {frames : List (List Frame)} (hframes : List.Forall₂ Field.Framed fields frames) :
    ∃ blocks, frames.flatten.mapM (Frame.toBlock roles (ofLines roles)) = .ok blocks.flatten ∧
      List.Forall₂ Field.ReadAs fields blocks := by
  induction hframes with
  | nil => exact ⟨[], rfl, .nil⟩
  | @cons f _ _ _ hframe _ ih =>
    obtain ⟨hf, hmore⟩ := List.forall_mem_cons.1 h
    obtain ⟨number, body, rfl, hbody⟩ := hframe
    obtain ⟨inner, hread⟩ := ofLines_prose roles hf.body hbody
    obtain ⟨blocks, hblocks, hreads⟩ := ih hmore
    refine ⟨_ :: blocks, ?_, .cons ⟨number, inner, rfl⟩ hreads⟩
    rw [List.flatten_cons, List.flatten_cons, List.mapM_append, hblocks]
    cases f.header? with
    | none => rfl
    | some header =>
      rw [Option.map_some, Option.toList_some, List.mapM_cons, Frame.toBlock, hread]
      rfl

theorem exists_readAs_of_written {pieces : List (Option Field)}
    (h : ∀ f ∈ pieces.reduceOption, f.IsLaid) {lines : List Line}
    (hlines : lines.map Line.text = Field.written pieces) :
    ∃ blocks, (Frame.cut lines).mapM (Frame.toBlock roles (ofLines roles)) = .ok blocks.flatten ∧
      List.Forall₂ Field.ReadAs pieces.reduceOption blocks := by
  obtain ⟨frames, hframes, hcut⟩ := Frame.cut_written h hlines
  rw [hcut]
  exact mapM_of_framed roles h hframes

theorem exists_read_of_written {pieces : List (Option Field)}
    (h : ∀ f ∈ pieces.reduceOption, f.IsWritten) {lines : List Line}
    (hlines : lines.map Line.text = Field.written pieces) :
    ∃ blocks, (Frame.cut lines).mapM (Frame.toBlock roles (ofLines roles)) = .ok blocks ∧
      List.Forall₂ Field.Read pieces.reduceOption blocks := by
  obtain ⟨blocks, hblocks, hread⟩ :=
    exists_readAs_of_written roles (fun f hf => (h f hf).isLaid) hlines
  exact ⟨blocks.flatten, hblocks, Field.read_of_readAs h hread⟩

/-- Prose with a field list below it is a paragraph and the fields. -/
theorem parse_laid {prose : List Text} (hprose : IsProseLines prose)
    {pieces : List (Option Field)} (hpieces : ∀ f ∈ pieces.reduceOption, f.IsLaid)
    (hgap : ∀ f, pieces.head? ≠ some (some f)) {t : Text}
    (ht : trimmedLines t = prose ++ Field.written pieces) :
    ∃ number blocks, parse roles t =
        .ok (.paragraph number [.text (unlines prose)] :: blocks.flatten) ∧
      List.Forall₂ Field.ReadAs pieces.reduceOption blocks := by
  obtain ⟨number, after, hcut, hafter⟩ :=
    Frame.cut_prose hprose (Field.head?_written hgap) ((Line.map_text_ofText t).trans ht)
  obtain ⟨blocks, hblocks, hread⟩ := exists_readAs_of_written roles hpieces hafter
  refine ⟨number, blocks, ?_, hread⟩
  rw [parse, ofLines_eq, hcut, List.mapM_cons, hblocks, Frame.toBlock, Inline.parse_prose hprose]
  rfl

theorem parse_document {prose : List Text} (hprose : IsProseLines prose)
    {pieces : List (Option Field)} (hpieces : ∀ f ∈ pieces.reduceOption, f.IsWritten)
    (hgap : ∀ f, pieces.head? ≠ some (some f)) {t : Text}
    (ht : trimmedLines t = prose ++ Field.written pieces) :
    ∃ number blocks, parse roles t = .ok (.paragraph number [.text (unlines prose)] :: blocks) ∧
      List.Forall₂ Field.Read pieces.reduceOption blocks := by
  obtain ⟨number, blocks, hparse, hread⟩ :=
    parse_laid roles hprose (fun f hf => (hpieces f hf).isLaid) hgap ht
  exact ⟨number, blocks.flatten, hparse, Field.read_of_readAs hpieces hread⟩

/-! ## The documentation in it -/

theorem join_fields {chunks : List Chunk} (h : ∀ chunk ∈ chunks, ∃ line, chunk = .field line) :
    Chunk.join chunks = [] := by
  induction chunks with
  | nil => rfl
  | cons chunk more ih =>
    obtain ⟨⟨line, rfl⟩, hmore⟩ := List.forall_mem_cons.1 h
    exact ih hmore

/-- What is shown of prose is the prose itself. -/
theorem description_prose {prose : Text} (h : IsSolid prose) (number : Nat)
    {more : List Chunk} (hmore : ∀ chunk ∈ more, ∃ line, chunk = .field line) :
    Chunk.description (.prose number prose :: more) = prose := by
  have hgap : ∀ c ∈ more.head?.elim [] (Chunk.gap number prose), (c == '\n') = true := by
    cases more with
    | nil => exact nofun
    | cons chunk more =>
      intro c hc
      simp only [List.head?_cons, Option.elim_some, Chunk.gap] at hc
      split at hc <;> simp_all
  rw [Chunk.description, Chunk.join, join_fields hmore, List.append_nil, h.stripWhere_newline hgap]

theorem hang_nil (t : Text) : hang [] t = t := by
  have hsame : (fun c : Char => if c = '\n' then ['\n'] else [c]) = fun c => [c] :=
    funext fun c => by split <;> simp_all
  rw [hang, hsame]
  simp

theorem chunksOfAll_of_fields {blocks : List Block} (h : ∀ block ∈ blocks, block.IsField)
    (lead : Lead) : ∀ chunk ∈ (chunksOfAll lead blocks).1, ∃ line, chunk = .field line := by
  induction blocks with
  | nil => exact nofun
  | cons block more ih =>
    obtain ⟨⟨number, role, name, type, body, rfl⟩, hmore⟩ := List.forall_mem_cons.1 h
    exact List.forall_mem_cons.2 ⟨⟨number, rfl⟩, ih hmore⟩

theorem chunksOfAll_paragraph (number : Nat) (prose : Text) (blocks : List Block) :
    (chunksOfAll [] (.paragraph number [.text prose] :: blocks)).1 =
      .prose number prose :: (chunksOfAll [] blocks).1 := by
  change Chunk.prose number ([] ++ hang [] (Span.shownAll [.text prose])) ::
    (chunksOfAll [] blocks).1 = _
  simp [hang_nil, Span.shownAll, Span.shown]

theorem describe_document {prose : Text} (h : IsSolid prose) (number : Nat)
    {blocks : List Block} (hfields : ∀ block ∈ blocks, block.IsField) :
    summarize (.paragraph number [.text prose] :: blocks) = prose ∧
      describe (.paragraph number [.text prose] :: blocks) = prose := by
  rw [summarize, describe, chunksOfAll_paragraph]
  exact ⟨rfl, description_prose h number (chunksOfAll_of_fields hfields [])⟩

theorem declareAll_of_read {fields : List Field} (h : ∀ f ∈ fields, f.IsWritten)
    {blocks : List Block} (hread : List.Forall₂ Field.Read fields blocks) (d : Declarations) :
    declareAll d blocks = fields.foldlM Field.declare d := by
  induction hread generalizing d with
  | nil => rfl
  | @cons f block fields blocks hf _ ih =>
    obtain ⟨hwritten, hmore⟩ := List.forall_mem_cons.1 h
    obtain ⟨number, inner, rfl⟩ := hf
    have hbody : describe [.paragraph inner [.text (unlines f.body)]] = unlines f.body :=
      (describe_document hwritten.body.isSolid inner (List.forall_mem_nil _)).2
    have hdeclare : Block.declare d (.field number (FieldRole.ofWord f.role)
        (Frame.plainName f.name) none [.paragraph inner [.text (unlines f.body)]]) =
        f.declare d := by
      rw [Field.declare]
      cases FieldRole.ofWord f.role with
      | param => exact congrArg (fun t => d.declareParam .text _ none (.ok t)) hbody
      | type => exact congrArg (fun t => d.declareParam .type _ none (.ok t)) hbody
      | raises | other => rfl
    rw [declareAll, hdeclare, List.foldlM_cons]
    exact bind_congr fun d => ih hmore d

/-- The documentation in prose with a field list below it. -/
theorem ofBlocks_document {prose : List Text} (hprose : IsProseLines prose)
    {pieces : List (Option Field)} (hpieces : ∀ f ∈ pieces.reduceOption, f.IsWritten)
    (hgap : ∀ f, pieces.head? ≠ some (some f)) {t : Text}
    (ht : trimmedLines t = prose ++ Field.written pieces) {d : Declarations}
    (hd : pieces.reduceOption.foldlM Field.declare .empty = .ok d) :
    (parse roles t).bind Doc.ofBlocks =
      .ok ⟨unlines prose, unlines prose, d.params, d.raises⟩ := by
  obtain ⟨number, blocks, hparse, hread⟩ := parse_document roles hprose hpieces hgap ht
  obtain ⟨hsummary, hdescription⟩ :=
    describe_document hprose.isSolid number (Field.isField_of_read hread)
  have hdeclared : declareAll .empty (.paragraph number [.text (unlines prose)] :: blocks) =
      .ok d := (declareAll_of_read hpieces hread .empty).trans hd
  rw [hparse]
  change Doc.ofBlocks _ = _
  rw [Doc.ofBlocks, hdeclared, hsummary, hdescription]
  rfl

end Block

end CallDoc
