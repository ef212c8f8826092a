import CallDoc.Proofs.Markup.Source
import CallDoc.Proofs.Markup.Tree

/-!
Where blocks stand. Every block is cut from lines of its own: the first of them is not blank and
gives the block its number, and the bodies are read from others of them, one after the other. So
the numbers in a tree grow from block to block, and all of those inside of a block stand between
its own and that of the block behind it.
-/
namespace CallDoc

open Text

namespace Line

variable {parts lines : List Line} {n : Nat}

theorem IsSource.increasing (h : IsSource lines) :
    lines.Pairwise fun line next => line.number < next.number := by
  have hnumbers : (lines.map number).IsChain fun n next => n < next :=
    h.numbered.imp fun n next (hnext : next = n + 1) => hnext ▸ Nat.lt_succ_self n
  exact List.pairwise_map.1 (List.isChain_iff_pairwise.1 hnumbers)

/-- A line that is not blank has the number. -/
def HasSolid (lines : List Line) (n : Nat) : Prop :=
  ∃ line ∈ lines, line.isBlank = false ∧ line.number = n

theorem HasSolid.mono (h : HasSolid parts n) (hparts : parts ⊆ lines) : HasSolid lines n := by
  obtain ⟨line, hline, hsolid⟩ := h
  exact ⟨line, hparts hline, hsolid⟩

theorem HasSolid.lt {later : List Line} {m : Nat} (h : HasSolid lines n)
    (hlater : HasSolid later m)
    (hbefore : ∀ line ∈ lines, ∀ next ∈ later, line.number < next.number) : n < m := by
  obtain ⟨line, hline, -, rfl⟩ := h
  obtain ⟨next, hnext, -, rfl⟩ := hlater
  exact hbefore line hline next hnext

theorem subset_of_mem_pieces {pieces : List (List Line)} (h : pieces.flatten.Sublist lines)
    {piece : List Line} (hpiece : piece ∈ pieces) : piece ⊆ lines :=
  List.Subset.trans (List.infix_of_mem_flatten hpiece).subset h.subset

theorem not_blank_of_subset {t u : Text} (h : blank t = false) (hsub : t ⊆ u) :
    blank u = false := by
  obtain ⟨c, hc, hblank⟩ := List.all_eq_false.1 h
  exact List.all_eq_false.2 ⟨c, hsub hc, hblank⟩

theorem HasSolid.within (h : HasSolid parts n) (hparts : Within parts lines) :
    HasSolid lines n := by
  obtain ⟨part, hpart, hsolid, rfl⟩ := h
  obtain ⟨line, hline, hof⟩ := hparts.exists_partOf hpart
  exact ⟨line, hline, not_blank_of_subset hsolid hof.text.subset, hof.number.symm⟩

theorem exists_line_of_hasSolid {t : Text} (h : HasSolid (ofText t) n) :
    ∃ line, (Text.lines t)[n]? = some line ∧ blank line = false := by
  obtain ⟨line, hline, hsolid, rfl⟩ := h
  obtain ⟨i, hi, rfl⟩ := List.mem_mapIdx.1 hline
  have hlength : i < (Text.lines t).length := by rwa [trimmedLines, List.length_map] at hi
  have htext : (trimmedLines t)[i] = trimEnd (Text.lines t)[i] := List.getElem_map trimEnd
  have htrimmed : (trimmedLines t)[i] ⊆ (Text.lines t)[i] :=
    htext ▸ (prefix_dropEndWhile _ _).subset
  exact ⟨_, List.getElem?_eq_getElem hlength, not_blank_of_subset hsolid htrimmed⟩

end Line

/-! ## Frames -/

namespace Frame

open Line

/-- The number of the line that the block starts on. -/
def line : Frame → Nat
  | paragraph line _ | bullets line _ _ | enumerated line _ _ _ _ | literal line _
  | doctest line _ | quote line _ | field line _ _ _ _ | rubric line _ | admonition line _ _
  | comment line _ => line

/-- The frame starts at the first of the lines, and its bodies are cut from some of them, one after
the other. -/
structure CutFrom (frame : Frame) (lines : List Line) : Prop where
  start : ∃ line below, lines = line :: below ∧ line.isBlank = false ∧ line.number = frame.line
  bodies : ∃ pieces, pieces.flatten.Sublist lines ∧ List.Forall₂ Within frame.bodies pieces

section First

variable {line : Line} {below rest : List Line}

theorem cutFrom_paragraph (hline : line.isBlank = false) (text : Text) :
    CutFrom (.paragraph line.number text) [line] where
  start := ⟨line, [], rfl, hline, rfl⟩
  bodies := ⟨[], List.nil_sublist _, .nil⟩

theorem cutFrom_literal {next : Line} (hnext : next.isBlank = false) (more : List Line)
    (text : Text) : CutFrom (.literal next.number text) (next :: more) where
  start := ⟨next, more, rfl, hnext, rfl⟩
  bodies := ⟨[], List.nil_sublist _, .nil⟩

theorem suffix_of_dropWhile_dropWhile {next : Line} {more : List Line}
    (hnext : (below.dropWhile fun line => !line.isBlank).dropWhile Line.isBlank = next :: more) :
    next :: more <:+ below :=
  hnext ▸ (List.dropWhile_suffix _).trans (List.dropWhile_suffix _)

theorem Opens.exists_piece {frame : Frame} (h : Opens line below rest frame)
    (hline : line.isBlank = false) (hrest : rest <:+ below) :
    ∃ piece, (piece ++ rest).Sublist (line :: below) ∧ frame.CutFrom piece := by
  by_cases hliteral : frame.line = line.number
  · obtain ⟨taken, htaken⟩ := hrest
    refine ⟨line :: taken, ?_, ⟨line, taken, rfl, hline, hliteral.symm⟩, ?_⟩
    · rw [List.cons_append, htaken]
    · rcases h.exists_pieces with hnone | ⟨pieces, hpieces, hbodies⟩
      · rw [hnone]
        exact ⟨[], List.nil_sublist _, .nil⟩
      · rw [← htaken, ← List.cons_append] at hpieces
        exact ⟨pieces, List.append_cancel_right hpieces ▸ List.Sublist.refl _, hbodies⟩
  · cases h with
    | @literal next more h hnext =>
      refine ⟨next :: (hanging more).1, ?_, cutFrom_literal (of_dropWhile_eq_cons hnext) _ _⟩
      rw [List.cons_append, hanging_append_self]
      exact ((suffix_of_dropWhile_dropWhile hnext).sublist).cons line
    | _ => exact absurd rfl hliteral

theorem Cuts.exists_pieces {frames : List Frame} (h : Cuts line below frames rest)
    (hline : line.isBlank = false) (hrest : rest <:+ below) : ∃ pieces : List (List Line),
      (pieces.flatten ++ rest).Sublist (line :: below) ∧ List.Forall₂ CutFrom frames pieces := by
  cases h with
  | none => exact ⟨[], hrest.sublist.cons line, .nil⟩
  | one h =>
    obtain ⟨piece, hpiece, hcut⟩ := h.exists_piece hline hrest
    refine ⟨[piece], ?_, .cons hcut .nil⟩
    rwa [List.flatten_singleton]
  | @announced next more h hnext =>
    refine ⟨[[line], next :: (hanging more).1], ?_, .cons (cutFrom_paragraph hline _)
      (.cons (cutFrom_literal (of_dropWhile_eq_cons hnext) _ _) .nil)⟩
    have hall : [[line], next :: (hanging more).1].flatten ++ (hanging more).2 =
        line :: next :: more := by
      simp [hanging_append_self]
    rw [hall]
    exact (suffix_of_dropWhile_dropWhile hnext).sublist.cons_cons line

/-- The frames are cut from the lines piece by piece. -/
theorem exists_pieces_cut (lines : List Line) : ∃ pieces : List (List Line),
    pieces.flatten.Sublist lines ∧ List.Forall₂ CutFrom (cut lines) pieces := by
  fun_induction cut lines with
  | case1 => exact ⟨[], List.nil_sublist _, .nil⟩
  | case2 line below hblank ih =>
    obtain ⟨pieces, hpieces, hcut⟩ := ih
    exact ⟨pieces, hpieces.cons line, hcut⟩
  | case3 line below hblank ih =>
    obtain ⟨later, hlater, hrest⟩ := ih
    obtain ⟨pieces, hpieces, hfirst⟩ := (cuts_first line below).exists_pieces
      (Bool.eq_false_iff.2 hblank) (first_suffix line below)
    refine ⟨pieces ++ later, ?_, List.rel_append hfirst hrest⟩
    rw [List.flatten_append]
    exact (hlater.append_left pieces.flatten).trans hpieces

end First

theorem line_of_toBlock {roles : List Text} {read : List Line → Except Error (List Block)}
    {frame : Frame} {block : Block} (h : frame.toBlock roles read = .ok block) :
    block.line = frame.line := by
  cases frame with
  | literal | doctest | comment =>
    cases h
    rfl
  | _ =>
    obtain ⟨inner, -, rfl⟩ := map_eq_ok_iff.1 h
    rfl

end Frame

/-! ## Blocks -/

namespace Block

open Line

variable {roles : List Text} {lines : List Line} {blocks : List Block}

/-- The block starts on the first of the lines, and what stands in its bodies starts on some of
them, those of a body before those of the next. -/
structure ReadFrom (block : Block) (lines : List Line) : Prop where
  start : ∃ line below, lines = line :: below ∧ line.isBlank = false ∧ line.number = block.line
  bodies : ∃ pieces, pieces.flatten.Sublist lines ∧
    List.Forall₂ (fun body piece => ∀ block, Occurs block body → HasSolid piece block.line)
      block.bodies pieces

theorem ReadFrom.hasSolid {block : Block} (h : ReadFrom block lines) :
    HasSolid lines block.line := by
  obtain ⟨line, below, rfl, hsolid⟩ := h.start
  exact ⟨line, List.mem_cons_self, hsolid⟩

theorem ReadFrom.hasSolid_inner {block inner : Block} (h : ReadFrom block lines)
    {body : List Block} (hbody : body ∈ block.bodies) (hinner : Occurs inner body) :
    HasSolid lines inner.line := by
  obtain ⟨pieces, hpieces, hbodies⟩ := h.bodies
  obtain ⟨piece, hpiece, hsolid⟩ := exists_of_mem_forall₂ hbodies.flip hbody
  exact (hsolid inner hinner).mono (subset_of_mem_pieces hpieces hpiece)

theorem ReadFrom.line_le {block inner : Block} (h : ReadFrom block lines)
    (hlines : lines.Pairwise fun line next => line.number < next.number) {body : List Block}
    (hbody : body ∈ block.bodies) (hinner : Occurs inner body) : block.line ≤ inner.line := by
  obtain ⟨line, below, rfl, -, hline⟩ := h.start
  obtain ⟨part, hpart, -, hnumber⟩ := h.hasSolid_inner hbody hinner
  rw [← hline, ← hnumber]
  rcases List.mem_cons.1 hpart with rfl | hbelow
  · exact Nat.le_refl _
  · exact Nat.le_of_lt (List.rel_of_pairwise_cons hlines hbelow)

theorem ReadFrom.pairwise_bodies {block : Block} (h : ReadFrom block lines)
    (hlines : lines.Pairwise fun line next => line.number < next.number) :
    block.bodies.Pairwise fun item next => ∀ inner, Occurs inner item → ∀ later,
      Occurs later next → inner.line < later.line := by
  obtain ⟨pieces, hpieces, hbodies⟩ := h.bodies
  obtain ⟨-, hbetween⟩ := List.pairwise_flatten.1 (hlines.sublist hpieces)
  refine pairwise_of_forall₂ hbodies.flip hbetween ?_
  intro piece nextPiece item next hitem hnext hbefore inner hinner later hlater
  exact (hitem inner hinner).lt (hnext later hlater) hbefore

/-- Each block is read from lines of its own, and these follow one another as the blocks do. -/
def Pieced (lines : List Line) (blocks : List Block) : Prop :=
  ∃ pieces : List (List Line), pieces.flatten.Sublist lines ∧ List.Forall₂ ReadFrom blocks pieces

theorem Pieced.hasSolid (h : Pieced lines blocks) {block : Block} (hblock : Occurs block blocks) :
    HasSolid lines block.line := by
  obtain ⟨pieces, hpieces, hread⟩ := h
  have hmem {outer : Block} (houter : outer ∈ blocks) :
      ∃ piece, ReadFrom outer piece ∧ piece ⊆ lines := by
    obtain ⟨piece, hpiece, hread⟩ := exists_of_mem_forall₂ hread.flip houter
    exact ⟨piece, hread, subset_of_mem_pieces hpieces hpiece⟩
  cases hblock with
  | here hblock =>
    obtain ⟨piece, hread, hpiece⟩ := hmem hblock
    exact hread.hasSolid.mono hpiece
  | inside houter hbody hblock =>
    obtain ⟨piece, hread, hpiece⟩ := hmem houter
    exact (hread.hasSolid_inner hbody hblock).mono hpiece

theorem readFrom_of_toBlock {frame : Frame} {block : Block} {lines : List Line}
    (hcut : frame.CutFrom lines) (h : frame.toBlock roles (ofLines roles) = .ok block)
    (hbodies : ∀ body ∈ frame.bodies, ∀ inner, ofLines roles body = .ok inner →
      Pieced body inner) : ReadFrom block lines where
  start := Frame.line_of_toBlock h ▸ hcut.start
  bodies := by
    obtain ⟨pieces, hpieces, hwithin⟩ := hcut.bodies
    refine ⟨pieces, hpieces, forall₂_of_forall₂ (forall₂_bodies_of_toBlock h) hwithin ?_⟩
    intro body hbody inner piece hinner hpiece block hblock
    exact ((hbodies body hbody inner hinner).hasSolid hblock).within hpiece

theorem pieced_ofLines (h : ofLines roles lines = .ok blocks) : Pieced lines blocks := by
  refine ofLines_induction (P := Pieced) (fun lines blocks hblocks hbodies => ?_) h
  obtain ⟨pieces, hpieces, hcut⟩ := Frame.exists_pieces_cut lines
  refine ⟨pieces, hpieces, forall₂_of_forall₂ hblocks hcut ?_⟩
  intro frame hframe block piece hread hpiece
  exact readFrom_of_toBlock hpiece hread (hbodies frame hframe)

/-- The list is one of the lists of blocks in a tree: all of it, or a body at any depth. -/
inductive Listed (list : List Block) : List Block → Prop
  | whole : Listed list list
  | body {blocks : List Block} {outer : Block} (h : Occurs outer blocks)
      (hlist : list ∈ outer.bodies) : Listed list blocks

/-- The numbers of the lines grow through a list of blocks. -/
structure Placed (blocks : List Block) : Prop where
  /-- A block and everything in it stand above the next block. -/
  siblings : blocks.Pairwise fun block next => block.line < next.line ∧
    ∀ body ∈ block.bodies, ∀ inner, Occurs inner body → inner.line < next.line
  below : ∀ block ∈ blocks, ∀ body ∈ block.bodies, ∀ inner, Occurs inner body →
    block.line ≤ inner.line
  /-- What stands in an item stands above all of the next one. -/
  items : ∀ block ∈ blocks, block.bodies.Pairwise fun item next =>
    ∀ inner, Occurs inner item → ∀ later, Occurs later next → inner.line < later.line

theorem Pieced.placed (h : Pieced lines blocks) (hlines : IsSource lines) : Placed blocks := by
  obtain ⟨pieces, hpieces, hread⟩ := h
  obtain ⟨hinside, hbetween⟩ := List.pairwise_flatten.1 (hlines.increasing.sublist hpieces)
  refine ⟨pairwise_of_forall₂ hread.flip hbetween ?_, fun block hblock => ?_,
    fun block hblock => ?_⟩
  · intro piece later block next hblock hnext hbefore
    exact ⟨hblock.hasSolid.lt hnext.hasSolid hbefore, fun body hbody inner hinner =>
      (hblock.hasSolid_inner hbody hinner).lt hnext.hasSolid hbefore⟩
  · obtain ⟨piece, hpiece, hread⟩ := exists_of_mem_forall₂ hread.flip hblock
    exact fun body hbody inner hinner => hread.line_le (hinside piece hpiece) hbody hinner
  · obtain ⟨piece, hpiece, hread⟩ := exists_of_mem_forall₂ hread.flip hblock
    exact hread.pairwise_bodies (hinside piece hpiece)

/-- Every list of a tree is read from lines that are numbered one after the other. -/
theorem exists_source_of_listed (h : ofLines roles lines = .ok blocks) (hlines : IsSource lines)
    {list : List Block} (hlist : Listed list blocks) :
    ∃ lines, IsSource lines ∧ ofLines roles lines = .ok list := by
  have hinner {lines : List Line} {blocks : List Block} (h : ofLines roles lines = .ok blocks)
      (hlines : IsSource lines) {outer : Block} (houter : outer ∈ blocks) {body : List Block}
      (hbody : body ∈ outer.bodies) : ∃ lines, IsSource lines ∧ ofLines roles lines = .ok body := by
    obtain ⟨frame, hframe, hread⟩ := exists_of_mem_forall₂ (forall₂_of_ofLines h) houter
    obtain ⟨inner, hinner, hread⟩ := exists_body_of_toBlock hread hbody
    exact ⟨inner, hlines.within (Frame.within_cut frame hframe inner hinner), hread⟩
  cases hlist with
  | whole => exact ⟨lines, hlines, h⟩
  | body houter hlist =>
    induction houter generalizing lines with
    | here houter => exact hinner h hlines houter hlist
    | inside houter hbody _ ih =>
      obtain ⟨inner, hinner, hread⟩ := hinner h hlines houter hbody
      exact ih hread hinner

/-- Every block starts on a line of the text that is not blank, and in every list of the tree the
numbers of the lines grow. -/
theorem lines_of_parse {t : Text} (h : parse roles t = .ok blocks) :
    (∀ block, Occurs block blocks →
      ∃ line, (Text.lines t)[block.line]? = some line ∧ Text.blank line = false) ∧
    ∀ list, Listed list blocks → Placed list := by
  refine ⟨fun block hblock => ?_, fun list hlist => ?_⟩
  · exact exists_line_of_hasSolid ((pieced_ofLines h).hasSolid hblock)
  · obtain ⟨lines, hlines, hread⟩ := exists_source_of_listed h (isSource_ofText t) hlist
    exact (pieced_ofLines hread).placed hlines

/-- A list with two paragraphs in its first item and a list in its second one, before a paragraph
and a literal block. -/
theorem lines_of_parse_items :
    ∃ blocks, parse [] "- a\n\n  b\n\n- c\n\n  - d\n\ne::\n\n f".toList = .ok blocks ∧
      (blocks.map fun block => (block.line, block.bodies.map (List.map line))) =
        [(0, [[0, 2], [4, 6]]), (8, []), (10, [])] ∧
      (∀ block, Occurs block blocks → block.line < 11) ∧ Placed blocks := by
  have hread : (parse [] "- a\n\n  b\n\n- c\n\n  - d\n\ne::\n\n f".toList).map (fun blocks =>
      blocks.map fun block => (block.line, block.bodies.map (List.map line))) =
      .ok [(0, [[0, 2], [4, 6]]), (8, []), (10, [])] := by decide +kernel
  have hlength : (Text.lines "- a\n\n  b\n\n- c\n\n  - d\n\ne::\n\n f".toList).length = 11 := by
    decide +kernel
  obtain ⟨blocks, hparse, hlines⟩ := map_eq_ok_iff.1 hread
  obtain ⟨hsolid, hplaced⟩ := lines_of_parse hparse
  refine ⟨blocks, hparse, hlines, fun block hblock => ?_, hplaced blocks .whole⟩
  obtain ⟨line, hline, -⟩ := hsolid block hblock
  exact hlength ▸ (List.getElem?_eq_some_iff.1 hline).1

end Block
end CallDoc
