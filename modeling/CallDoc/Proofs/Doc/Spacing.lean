import CallDoc.Proofs.Doc.Lead
import CallDoc.Proofs.Markup.Breaks
import CallDoc.Proofs.Markup.Counting
import CallDoc.Proofs.Numeral.Label
import CallDoc.Proofs.Text.LetterCase

/-!
The blank lines of a description. The gap before a piece of prose is found from the line it
starts on and the line breaks of the piece before it; this is where the piece before it ends
unless line breaks of it were lost, as an escaped one is.
-/
namespace CallDoc

open Text

namespace Block

mutual

/-- Nothing in the block is a field or left out of the description. -/
def isShown : Block → Bool
  | quote _ children | admonition _ _ children => areShown children
  | bullets _ _ items | enumerated _ _ _ _ items => itemsAreShown items
  | paragraph .. | literal .. | doctest .. | rubric .. => true
  | field .. | comment .. => false

def areShown : List Block → Bool
  | [] => true
  | block :: more => isShown block && areShown more

def itemsAreShown : List (List Block) → Bool
  | [] => true
  | item :: more => areShown item && itemsAreShown more

end

end Block

/-! ## Extents -/

namespace Extent

/-- From the first line to the last there are at least so many line breaks. -/
def Holds (extent : Extent) (breaks : Nat) : Prop := extent.first + breaks ≤ extent.last

/-- From the first line to the last there are just so many line breaks. -/
def Filled (extent : Extent) (breaks : Nat) : Prop := extent.first + breaks = extent.last

/-- The chunk is prose that starts on the first line of the extent, and its line breaks fit. -/
def Shows (fits : Extent → Nat → Prop) (extent : Extent) (chunk : Chunk) : Prop :=
  ∃ text, chunk = .prose extent.first text ∧ fits extent (text.count '\n')

end Extent

/-- The prose that a frame shows apart from its bodies fits the lines of the frame. -/
def Frame.ShowsWithin (roles : List Text) (fits : Extent → Nat → Prop) (last : Nat) :
    Frame → Prop
  | paragraph line text => ∀ spans, Inline.parse roles text = .ok spans →
    fits ⟨line, last⟩ ((Span.shownAll spans).count '\n')
  | rubric line title => ∀ spans, Inline.parse roles title = .ok spans →
    fits ⟨line, last⟩ ((titleShown (Span.shownAll spans)).count '\n')
  | literal line text | doctest line text => fits ⟨line, last⟩ (text.count '\n')
  | admonition line label _ => fits ⟨line, line⟩ ((label ++ [':']).count '\n')
  | bullets _ bullet _ => '\n' ≠ bullet
  | enumerated .. | quote .. | field .. | comment .. => True

namespace Block

variable {fits : Extent → Nat → Prop}

theorem shows_showProse {lead : Lead} {line last : Nat} {t : Text} (hlead : lead.Lacks '\n')
    (h : fits ⟨line, last⟩ (t.count '\n')) :
    List.Forall₂ (Extent.Shows fits) [⟨line, last⟩] (showProse lead line t).1 := by
  refine .cons ⟨_, rfl, ?_⟩ .nil
  rwa [List.count_append, List.count_eq_zero.2 hlead.text, Nat.zero_add,
    count_newline_hang (Lead.not_mem_indent (by decide) lead)]

/-- Behind every lead the prose of the block is that of the extents. -/
def StandsOn (fits : Extent → Nat → Prop) (extents : List Extent) (block : Block) : Prop :=
  block.isShown = true → KeepsCount [block] → ∀ lead : Lead, lead.Lacks '\n' →
    List.Forall₂ (Extent.Shows fits) extents (chunks lead block).1

def AllStandOn (fits : Extent → Nat → Prop) (extents : List Extent) (blocks : List Block) : Prop :=
  areShown blocks = true → KeepsCount blocks → ∀ lead : Lead, lead.Lacks '\n' →
    List.Forall₂ (Extent.Shows fits) extents (chunksOfAll lead blocks).1

section Walk

variable {α : Type} {read : α → List Extent}

theorem allStandOn_flatMap {sources : List α} {blocks : List Block}
    (h : List.Forall₂ (fun source block => StandsOn fits (read source) block) sources blocks) :
    AllStandOn fits (sources.flatMap read) blocks := by
  induction h with
  | nil => exact fun _ _ _ _ => .nil
  | @cons source block sources more hblock _ ih =>
    intro hshown hkeeps lead hlead
    obtain ⟨hfirst, hmore⟩ := Bool.and_eq_true_iff.1 hshown
    have hnext := hlead.follows (by decide) (follows_chunks lead block)
    exact List.rel_append (hblock hfirst hkeeps.head lead hlead) (ih hmore hkeeps.tail _ hnext)

theorem shows_chunksOfItems {bodies : List α} {items : List (List Block)} {labels : List Text}
    {lead : Lead}
    (h : List.Forall₂ (fun body item => AllStandOn fits (read body) item) bodies items)
    (hlabels : ∀ label ∈ labels, '\n' ∉ label) (hlength : labels.length = items.length)
    (hshown : itemsAreShown items = true) (hkeeps : ∀ item ∈ items, KeepsCount item)
    (hlead : lead.Lacks '\n') :
    List.Forall₂ (Extent.Shows fits) (bodies.flatMap read)
      (chunksOfItems lead labels items).1 := by
  induction h generalizing lead labels with
  | nil => exact .nil
  | @cons body item bodies more hitem _ ih =>
    obtain ⟨label, labels, rfl⟩ := List.exists_cons_of_length_eq_add_one hlength
    obtain ⟨hlabel, hlabels⟩ := List.forall_mem_cons.1 hlabels
    obtain ⟨hfirst, hmore⟩ := Bool.and_eq_true_iff.1 hshown
    obtain ⟨hkeep, hkeeps⟩ := List.forall_mem_cons.1 hkeeps
    have hnext := hlead.follows (by decide) (follows_chunksOfAll (label :: lead) item).tail
    exact List.rel_append (hitem hfirst hkeep _ (Lead.lacks_cons hlabel hlead))
      (ih hlabels (Nat.succ.inj hlength) hmore hkeeps hnext)

end Walk

/-! ### One kind of block after the other -/

namespace StandsOn

variable {α : Type} {read : α → List Extent} {line last : Nat}

theorem paragraph {spans : List Span} (h : fits ⟨line, last⟩ ((Span.shownAll spans).count '\n')) :
    StandsOn fits [⟨line, last⟩] (.paragraph line spans) :=
  fun _ _ _ hlead => shows_showProse hlead h

theorem rubric {spans : List Span}
    (h : fits ⟨line, last⟩ ((titleShown (Span.shownAll spans)).count '\n')) :
    StandsOn fits [⟨line, last⟩] (.rubric line spans) :=
  fun _ _ _ hlead => shows_showProse hlead h

theorem doctest {text : Text} (h : fits ⟨line, last⟩ (text.count '\n')) :
    StandsOn fits [⟨line, last⟩] (.doctest line text) :=
  fun _ _ _ hlead => shows_showProse hlead h

theorem literal {text : Text} (h : fits ⟨line, last⟩ (text.count '\n')) :
    StandsOn fits [⟨line, last⟩] (.literal line text) := by
  intro _ _ lead _
  have hindent : '\n' ∉ quoteIndent := not_mem_spaces (by decide) 4
  refine .cons ⟨_, rfl, ?_⟩ .nil
  rwa [List.count_append, List.count_eq_zero.2 hindent, Nat.zero_add, count_newline_hang hindent]

theorem quote {extents : List Extent} {inner : List Block} (h : AllStandOn fits extents inner) :
    StandsOn fits extents (.quote line inner) :=
  fun hshown hkeeps _ hlead => h hshown (hkeeps.inside (List.mem_singleton_self _)) _
    (Lead.lacks_cons (not_mem_spaces (by decide) 4) hlead)

theorem admonition {extents : List Extent} {label : Text} {inner : List Block}
    (hlabel : fits ⟨line, line⟩ ((label ++ [':']).count '\n')) (h : AllStandOn fits extents inner) :
    StandsOn fits (⟨line, line⟩ :: extents) (.admonition line label inner) := by
  intro hshown hkeeps lead hlead
  have hspent := hlead.follows (by decide) (Lead.follows_spent lead)
  exact List.rel_append (shows_showProse hlead hlabel)
    (h hshown (hkeeps.inside (List.mem_singleton_self _)) _
      (Lead.lacks_cons (not_mem_spaces (by decide) 4) hspent))

theorem bullets {bodies : List α} {bullet : Char} {items : List (List Block)}
    (hbullet : '\n' ≠ bullet)
    (h : List.Forall₂ (fun body item => AllStandOn fits (read body) item) bodies items) :
    StandsOn fits (bodies.flatMap read) (.bullets line bullet items) := by
  intro hshown hkeeps lead hlead
  refine shows_chunksOfItems h (fun label hlabel => ?_) List.length_replicate hshown
    (fun _ => hkeeps.inside) hlead
  rw [List.eq_of_mem_replicate hlabel]
  simp [hbullet]

theorem enumerated {bodies : List α} {sequence : Sequence} {bracket : Bracket} {start : Nat}
    {items : List (List Block)}
    (h : List.Forall₂ (fun body item => AllStandOn fits (read body) item) bodies items) :
    StandsOn fits (bodies.flatMap read) (.enumerated line sequence bracket start items) :=
  fun hshown hkeeps _ hlead => shows_chunksOfItems h
    (fun _ => sequence.not_mem_of_mem_labels (by decide) (by decide))
    (sequence.length_labels bracket hkeeps.lt) hshown (fun _ => hkeeps.inside) hlead

end StandsOn

variable {roles : List Text} {lines : List Line} {blocks : List Block}

theorem standsOn_toBlock {read : List Line → List Extent} {frame : Frame} {last : Nat}
    {block : Block} (hblock : frame.toBlock roles (ofLines roles) = .ok block)
    (hshows : frame.ShowsWithin roles fits last)
    (hbodies : ∀ body ∈ frame.bodies, ∀ inner, ofLines roles body = .ok inner →
      AllStandOn fits (read body) inner) :
    StandsOn fits (frame.extentsOf read last) block := by
  have hitems {items : List (List Block)}
      (hread : frame.bodies.mapM (ofLines roles) = .ok items) :
      List.Forall₂ (fun body item => AllStandOn fits (read body) item) frame.bodies items :=
    ((List.forall₂_and_left _ _).2 ⟨fun _ hbody => hbody, mapM_eq_ok_iff.1 hread⟩).imp
      fun body item h => hbodies body h.1 item h.2
  cases frame with
  | paragraph =>
    obtain ⟨spans, hspans, rfl⟩ := map_eq_ok_iff.1 hblock
    exact .paragraph (hshows spans hspans)
  | rubric =>
    obtain ⟨spans, hspans, rfl⟩ := map_eq_ok_iff.1 hblock
    exact .rubric (hshows spans hspans)
  | literal =>
    obtain rfl := Except.ok.inj hblock
    exact .literal hshows
  | doctest =>
    obtain rfl := Except.ok.inj hblock
    exact .doctest hshows
  | quote line body =>
    obtain ⟨inner, hinner, rfl⟩ := map_eq_ok_iff.1 hblock
    exact .quote (hbodies body (List.mem_singleton_self body) inner hinner)
  | admonition line label body =>
    obtain ⟨inner, hinner, rfl⟩ := map_eq_ok_iff.1 hblock
    exact .admonition hshows (hbodies body (List.mem_singleton_self body) inner hinner)
  | bullets =>
    obtain ⟨items, hread, rfl⟩ := map_eq_ok_iff.1 hblock
    exact .bullets hshows (hitems hread)
  | enumerated =>
    obtain ⟨items, hread, rfl⟩ := map_eq_ok_iff.1 hblock
    exact .enumerated (hitems hread)
  | field =>
    obtain ⟨inner, -, rfl⟩ := map_eq_ok_iff.1 hblock
    exact nofun
  | comment =>
    obtain rfl := Except.ok.inj hblock
    exact nofun

/-- The prose of a tree is that of its extents, where every frame in lines of a certain kind
fits its own lines and bodies are of the same kind. -/
theorem allStandOn_ofLines {Source : List Line → Prop}
    (hwithin : ∀ lines parts, Source lines → Line.Within parts lines → Source parts)
    (hshows : ∀ lines, Source lines → ∀ pair ∈ Frame.cutEnds lines,
      pair.1.ShowsWithin roles fits pair.2)
    (h : ofLines roles lines = .ok blocks) (hsource : Source lines) :
    AllStandOn fits (Frame.extents lines) blocks := by
  refine ofLines_induction
    (P := fun lines blocks => Source lines → AllStandOn fits (Frame.extents lines) blocks)
    ?_ h hsource
  intro lines blocks hread ih hsource
  rw [← Frame.map_fst_cutEnds, List.forall₂_map_left_iff] at hread
  rw [Frame.extents_eq]
  refine allStandOn_flatMap (((List.forall₂_and_left _ _).2 ⟨fun _ hpair => hpair, hread⟩).imp ?_)
  rintro ⟨frame, last⟩ block ⟨hpair, hblock⟩
  have hframe := Frame.mem_cut_of_mem_cutEnds hpair
  exact standsOn_toBlock hblock (hshows lines hsource _ hpair) fun body hbody inner hinner =>
    ih frame hframe body hbody inner hinner
      (hwithin lines body hsource (Frame.within_cut frame hframe body hbody))

end Block

namespace Frame

variable {roles : List Text} {frame : Frame} {last : Nat}

theorem newline_not_mem_titleShown {title : Text} (h : '\n' ∉ title) : '\n' ∉ titleShown title := by
  rw [titleShown, List.mem_append, not_or]
  refine ⟨?_, by decide⟩
  split
  · exact fun hmem => h (of_mem_lowercaseAfter (by decide) (by decide) hmem)
  · exact h

theorem Fits.showsWithin (h : frame.Fits last) : frame.ShowsWithin roles Extent.Holds last := by
  cases frame with
  | paragraph line text =>
    exact fun spans hspans =>
      (Nat.add_le_add_left (Inline.count_newline_scan_le hspans) line).trans h
  | rubric line title =>
    intro spans hspans
    have hcount := Inline.count_newline_scan_le hspans
    rw [List.count_eq_zero.2 h.2, Nat.le_zero] at hcount
    rw [List.count_eq_zero.2 (newline_not_mem_titleShown (List.count_eq_zero.1 hcount))]
    exact h.1
  | admonition line label body =>
    have hlabel : '\n' ∉ label ++ [':'] := fun hmem => (List.mem_append.1 hmem).elim h (by decide)
    exact (congrArg (line + ·) (List.count_eq_zero.2 hlabel)).le
  | bullets | literal | doctest => exact h
  | enumerated | quote | field | comment => trivial

theorem Keeps.showsWithin (h : frame.Keeps last) (hfits : frame.Fits last) :
    frame.ShowsWithin roles Extent.Filled last := by
  cases frame with
  | paragraph line text =>
    obtain ⟨hcount, hbackslash, hbackquote⟩ := h
    exact fun spans hspans =>
      (congrArg (line + ·) (Inline.count_newline_scan hbackslash hbackquote hspans)).trans hcount
  | doctest => exact h
  | bullets => exact hfits
  | literal | rubric | admonition => cases h
  | enumerated | quote | field | comment => trivial

end Frame

/-! ## Gaps -/

/-- A piece of prose with the lines of the document that it stands on. -/
structure Piece extends Extent where
  text : Text
  deriving DecidableEq, Repr

namespace Piece

def chunk (p : Piece) : Chunk := .prose p.first p.text

/-- The number of line breaks between the lines of the piece that are not in its text. -/
def lost (p : Piece) : Nat := p.last - p.first - p.text.count '\n'

/-- The newlines between a piece and the next one: two where a blank line stands between their
lines, one where none does. A line break that was lost counts as a blank line. -/
def gap (p next : Piece) : Text :=
  if p.last + 1 < next.first + p.lost then ['\n', '\n'] else ['\n']

/-- The pieces as one text, each a gap away from the next. -/
def join : List Piece → Text
  | [] => []
  | [p] => p.text
  | p :: next :: more => p.text ++ p.gap next ++ join (next :: more)

theorem join_chunks {pieces : List Piece}
    (h : ∀ p ∈ pieces, p.first + p.text.count '\n' ≤ p.last) :
    Chunk.join (pieces.map chunk) = join pieces := by
  induction pieces with
  | nil => rfl
  | cons p more ih =>
    obtain ⟨hp, hmore⟩ := List.forall_mem_cons.1 h
    cases more with
    | nil => simp [chunk, Chunk.join, join]
    | cons next more =>
      have hgap : Chunk.gap p.first p.text next.chunk = p.gap next := by
        have hline : next.chunk.line = next.first := rfl
        have hiff : p.first + p.text.count '\n' + 1 < next.first ↔
            p.last + 1 < next.first + p.lost := by
          rw [lost]
          omega
        rw [Chunk.gap, hline, gap, if_congr hiff rfl rfl]
      rw [join, ← ih hmore, ← hgap]
      rfl

theorem exists_of_shows {extents : List Extent} {chunks : List Chunk}
    (h : List.Forall₂ (Extent.Shows Extent.Holds) extents chunks) :
    ∃ pieces : List Piece, pieces.map toExtent = extents ∧ pieces.map chunk = chunks ∧
      ∀ p ∈ pieces, p.first + p.text.count '\n' ≤ p.last := by
  induction h with
  | nil => exact ⟨[], rfl, rfl, List.forall_mem_nil _⟩
  | @cons extent chunk _ _ hchunk _ ih =>
    obtain ⟨text, rfl, hcount⟩ := hchunk
    obtain ⟨pieces, rfl, rfl, hpieces⟩ := ih
    exact ⟨⟨extent, text⟩ :: pieces, rfl, rfl, List.forall_mem_cons.2 ⟨hcount, hpieces⟩⟩

theorem lost_eq_zero {pieces : List Piece}
    (h : List.Forall₂ (Extent.Shows Extent.Filled) (pieces.map toExtent) (pieces.map chunk)) :
    ∀ p ∈ pieces, p.lost = 0 := by
  rw [List.forall₂_map_left_iff, List.forall₂_map_right_iff, List.forall₂_same] at h
  intro p hp
  obtain ⟨text, hchunk, hfilled⟩ := h p hp
  obtain ⟨-, rfl⟩ := Chunk.prose.inj hchunk
  rw [lost, ← hfilled]
  omega

end Piece

/-- A description that leaves nothing out has a blank line where its document has some, and none
elsewhere, but for the line breaks that are lost in a piece. A document without backslashes,
backquotes and double colons loses none. The numbers of its lists stay below the largest. -/
theorem Block.describe_pieces {roles : List Text} {t : Text} {blocks : List Block}
    (h : parse roles t = .ok blocks) (hshown : areShown blocks = true)
    (hkeeps : KeepsCount blocks) :
    ∃ pieces : List Piece,
      pieces.map Piece.toExtent = Frame.extents (Line.ofText t) ∧
      (chunksOfAll [] blocks).1 = pieces.map Piece.chunk ∧
      describe blocks = stripWhere (· == '\n') (Piece.join pieces) ∧
      (∀ p ∈ pieces, p.first + p.text.count '\n' ≤ p.last) ∧
      ('\\' ∉ t → '\x60' ∉ t → ¬ "::".toList <:+: t → ∀ p ∈ pieces, p.lost = 0) := by
  -- the same walk twice: in every document the pieces fit their lines, and in one that keeps its
  -- line breaks they fill them
  have hstands : AllStandOn Extent.Holds (Frame.extents (Line.ofText t)) blocks :=
    allStandOn_ofLines (fun _ _ hlines hparts => hlines.within hparts)
      (fun _ hlines pair hpair => (Frame.fits_cutEnds hlines pair hpair).showsWithin)
      h (Line.isSource_ofText t)
  obtain ⟨pieces, hextents, hchunks, hcount⟩ :=
    Piece.exists_of_shows (hstands hshown hkeeps [] Lead.lacks_nil)
  refine ⟨pieces, hextents, hchunks.symm, ?_, hcount, fun hbackslash hbackquote hcolons => ?_⟩
  · rw [describe, Chunk.description, ← hchunks, Piece.join_chunks hcount]
  · have hbreaks : Line.KeepsBreaks (Line.ofText t) :=
      Line.keepsBreaks_ofText ⟨hbackslash, hbackquote, hcolons⟩
    have hfilled : AllStandOn Extent.Filled (Frame.extents (Line.ofText t)) blocks :=
      allStandOn_ofLines (fun _ _ hlines hparts => hlines.within hparts)
        (fun _ hlines pair hpair => (Frame.keeps_cutEnds hlines pair hpair).showsWithin
          (Frame.fits_cutEnds hlines.source pair hpair))
        h hbreaks
    refine Piece.lost_eq_zero ?_
    rw [hextents, hchunks]
    exact hfilled hshown hkeeps [] Lead.lacks_nil

/-- Two lists with a blank line around each of them. -/
theorem Block.describe_pieces_lists :
    ∃ blocks pieces, parse [] "Some.\n\n- one\n- two\n  more\n\n(i) last".toList = .ok blocks ∧
      areShown blocks = true ∧ KeepsCount blocks ∧
      pieces.map Piece.toExtent = [⟨0, 0⟩, ⟨2, 2⟩, ⟨3, 4⟩, ⟨6, 6⟩] ∧
      describe blocks = "Some.\n\n- one\n- two\n  more\n\n(i) last".toList ∧
      describe blocks = stripWhere (· == '\n') (Piece.join pieces) ∧
      ∀ p ∈ pieces, p.lost = 0 := by
  have hread : (parse [] "Some.\n\n- one\n- two\n  more\n\n(i) last".toList).map
      (fun blocks => (areShown blocks, decide (KeepsCount blocks), describe blocks)) =
      .ok (true, true, "Some.\n\n- one\n- two\n  more\n\n(i) last".toList) := by decide +kernel
  have hextents : Frame.extents (Line.ofText "Some.\n\n- one\n- two\n  more\n\n(i) last".toList) =
      [⟨0, 0⟩, ⟨2, 2⟩, ⟨3, 4⟩, ⟨6, 6⟩] := by decide +kernel
  obtain ⟨blocks, hparse, hblocks⟩ := map_eq_ok_iff.1 hread
  obtain ⟨hshown, hboth⟩ := Prod.mk.inj hblocks
  obtain ⟨hdecided, hdescribe⟩ := Prod.mk.inj hboth
  have hkeeps := of_decide_eq_true hdecided
  obtain ⟨pieces, hpieces, -, hjoin, -, hlost⟩ := describe_pieces hparse hshown hkeeps
  refine ⟨blocks, pieces, hparse, hshown, hkeeps, hpieces.trans hextents, hdescribe, hjoin,
    hlost (by decide +kernel) (by decide +kernel) (by decide +kernel)⟩

/-- Behind an escaped line break the next item stands on the next line, and is shown below a
blank one. -/
theorem Block.describe_pieces_escape :
    ∃ blocks, parse [] "- a\\\n  b\n- c".toList = .ok blocks ∧ areShown blocks = true ∧
      Frame.extents (Line.ofText "- a\\\n  b\n- c".toList) = [⟨0, 1⟩, ⟨2, 2⟩] ∧
      describe blocks = "- ab\n\n- c".toList := by
  have hread : (parse [] "- a\\\n  b\n- c".toList).map
      (fun blocks => (areShown blocks, describe blocks)) =
      .ok (true, "- ab\n\n- c".toList) := by decide +kernel
  obtain ⟨blocks, hparse, hblocks⟩ := map_eq_ok_iff.1 hread
  obtain ⟨hshown, hdescribe⟩ := Prod.mk.inj hblocks
  exact ⟨blocks, hparse, hshown, by decide +kernel, hdescribe⟩

end CallDoc
