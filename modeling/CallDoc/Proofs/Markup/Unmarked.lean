import CallDoc.Proofs.Markup.Content
import CallDoc.Proofs.Markup.Opening
import CallDoc.Proofs.Markup.Source
import CallDoc.Proofs.Markup.Tree
import CallDoc.Proofs.Text.Unmarked

/-!
Reading markup puts no display mark into a block tree: all that its blocks hold is cut from the
lines that were read.
-/
namespace CallDoc

open Text

/-- No line has an escape. -/
def Line.Unmarked (lines : List Line) : Prop := ∀ line ∈ lines, Text.Unmarked line.text

namespace Line

variable {lines more : List Line}

theorem unmarked_cons {line : Line} :
    Unmarked (line :: lines) ↔ Text.Unmarked line.text ∧ Unmarked lines := List.forall_mem_cons

theorem Unmarked.of_subset (h : Unmarked lines) (hs : more ⊆ lines) : Unmarked more :=
  fun line hline => h line (hs hline)

theorem Unmarked.map_text (h : Unmarked lines) : UnmarkedLines (lines.map text) :=
  List.forall_mem_map.2 h

theorem Unmarked.dedent (h : Unmarked lines) : Unmarked (dedent lines) :=
  List.forall_mem_map.2 fun line hline => ((h line hline).drop _).trimEnd

theorem Unmarked.within (h : Unmarked lines) (hmore : Within more lines) : Unmarked more := by
  intro part hpart
  obtain ⟨line, hline, hpart⟩ := hmore.exists_partOf hpart
  exact (h line hline).of_subset hpart.text.subset

theorem unmarked_ofText {t : Text} (h : Text.Unmarked t) : Unmarked (ofText t) := by
  intro line hline
  obtain ⟨number, hnumber, rfl⟩ := List.mem_mapIdx.1 hline
  exact h.trimmedLines _ (List.getElem_mem hnumber)

end Line

namespace Frame

/-- The texts in a frame. -/
def texts : Frame → List Text
  | paragraph _ text | literal _ text | doctest _ text | rubric _ text | comment _ text => [text]
  | bullets _ bullet _ => [[bullet]]
  | enumerated .. | quote .. => []
  | field _ _ name type _ => name :: type.toList
  | admonition _ label _ => [label]

theorem unmarked_fieldHeader? {t header rest : Text} (h : Text.Unmarked t)
    (hheader : fieldHeader? t = some (header, rest)) : Text.Unmarked header := by
  obtain ⟨after, rfl, rfl⟩ := fieldHeader?_eq hheader
  exact (unmarked_append.1 (unmarked_cons.1 h).2).1

theorem unmarked_readHeader? {header name : Text} {role : FieldRole} {type : Option Text}
    (h : Text.Unmarked header) (hread : readHeader? header = some (role, type, name)) :
    UnmarkedLines (name :: type.toList) := by
  have hplain {name : Text} (h : Text.Unmarked name) : Text.Unmarked (plainName name) :=
    h.of_subset ((List.dropWhile_sublist _).trans List.filter_sublist).subset
  have hwords := h.words
  unfold readHeader? at hread
  split at hread
  · rename_i role' name' hheader
    rw [hheader] at hwords
    obtain ⟨-, he⟩ := Prod.mk.inj (Option.some.inj hread)
    obtain ⟨rfl, rfl⟩ := Prod.mk.inj he
    simp only [unmarkedLines_cons] at hwords ⊢
    exact ⟨hplain hwords.2.1, unmarkedLines_nil⟩
  · rename_i role' type' name' hheader
    rw [hheader] at hwords
    split at hread
    · obtain ⟨-, he⟩ := Prod.mk.inj (Option.some.inj hread)
      obtain ⟨rfl, rfl⟩ := Prod.mk.inj he
      simp only [unmarkedLines_cons, Option.toList_some] at hwords ⊢
      exact ⟨hplain hwords.2.2.1, hwords.2.1, unmarkedLines_nil⟩
    · cases hread
  · cases hread

theorem unmarked_bullet? {t : Text} {bullet : Char} (h : bullet? t = some bullet) :
    Text.Unmarked [bullet] := by
  rcases bullet?_eq h with rfl | rfl | rfl <;> decide

theorem unmarked_directive? {t name argument : Text} (h : Text.Unmarked t)
    (hdirective : directive? t = some (name, argument)) : Text.Unmarked argument := by
  obtain ⟨after, rfl, rfl⟩ := directive?_eq hdirective
  exact (unmarked_append.1 (unmarked_append.1 h).2).2.trim

theorem unmarked_announcesLiteral {t : Text} (h : Text.Unmarked t) :
    Text.Unmarked (announcesLiteral t).1 := by
  unfold announcesLiteral
  split
  · exact h
  · rename_i lead hlead
    have hlead := h.of_before? hlead
    split
    · exact unmarked_nil
    · split
      · exact hlead.trimEnd
      · simp [hlead]

theorem unmarkedLines_singleton {t : Text} (h : Text.Unmarked t) : UnmarkedLines [t] :=
  unmarkedLines_cons.2 ⟨h, unmarkedLines_nil⟩

theorem Opens.unmarked {line : Line} {below rest : List Line} {frame : Frame}
    (h : Opens line below rest frame) (hlines : Line.Unmarked (line :: below)) :
    UnmarkedLines frame.texts := by
  obtain ⟨hline, hbelow⟩ := Line.unmarked_cons.1 hlines
  have hcontent : Line.Unmarked (Line.hanging below).1 :=
    hbelow.of_subset (Line.prefix_hanging below).subset
  have hrun : Line.Unmarked (run line below) :=
    Line.unmarked_cons.2 ⟨hline, hbelow.of_subset (List.takeWhile_sublist _).subset⟩
  have hargument {name argument : Text}
      (h : directive? (trimStart (line.text.drop 2)) = some (name, argument)) :
      UnmarkedLines [argument] :=
    unmarkedLines_singleton (unmarked_directive? (hline.drop 2).trimStart h)
  cases h with
  | rubric h => exact hargument h
  | titled h => exact hargument h
  | code h =>
    refine unmarkedLines_singleton ((hcontent.dedent.of_subset ?_).map_text.unlines)
    exact ((List.dropWhile_sublist _).trans (List.dropWhile_sublist _)).subset
  | admonition h hlabel =>
    have hlabels : UnmarkedLines admonitions := by decide
    refine unmarkedLines_singleton ?_
    rcases hlabel with rfl | hlabel
    · decide
    · exact hlabels _ hlabel
  | unknown => exact unmarkedLines_singleton hline
  | comment =>
    exact unmarkedLines_singleton (Line.unmarked_cons.2 ⟨hline, hcontent⟩).map_text.unlines
  | field h hread => exact unmarked_readHeader? (unmarked_fieldHeader? hline h) hread
  | bullets h => exact unmarkedLines_singleton (unmarked_bullet? h)
  | doctest => exact unmarkedLines_singleton hrun.map_text.unlines
  | paragraph =>
    have hprose : Text.Unmarked (prose line below) :=
      UnmarkedLines.unlines (List.forall_mem_map.2 fun l hl => (hrun l hl).trim)
    exact unmarkedLines_singleton (unmarked_announcesLiteral hprose)
  | @literal next more h hnext =>
    have hmore : next :: more ⊆ below :=
      ((hnext ▸ List.dropWhile_sublist _).trans (List.dropWhile_sublist _)).subset
    have hverbatim : Line.Unmarked (next :: (Line.hanging more).1) :=
      (hbelow.of_subset hmore).of_subset
        (List.cons_subset_cons next (Line.prefix_hanging more).subset)
    exact unmarkedLines_singleton hverbatim.dedent.map_text.unlines
  | quote | enumerated => exact unmarkedLines_nil

/-- The texts of the frames are cut from their lines. -/
theorem unmarked_cut {lines : List Line} (h : Line.Unmarked lines) :
    ∀ frame ∈ cut lines, UnmarkedLines frame.texts := by
  intro frame hframe
  obtain ⟨line, below, rest, hsuffix, hopens⟩ := exists_opens_of_mem_cut hframe
  exact hopens.unmarked (h.of_subset hsuffix.subset)

end Frame

/-! ## Spans -/

/-- Nothing in a span has an escape. -/
def Span.Unmarked (span : Span) : Prop := Text.Unmarked span.content

theorem Inline.unmarked_scan {roles : List Text} {previous? : Option Char} {t : Text}
    {spans : List Span} (h : Text.Unmarked t) (hspans : scan roles previous? t = .ok spans) :
    ∀ span ∈ spans, span.Unmarked := fun _ hspan =>
  h.of_subset fun _ hc => (sublist_scan hspans).subset (List.mem_flatMap.2 ⟨_, hspan, hc⟩)

/-! ## The block tree -/

/-- Nothing in a block has an escape. -/
inductive Block.Unmarked : Block → Prop
  | paragraph {line spans} (h : ∀ span ∈ spans, Span.Unmarked span) :
      Unmarked (.paragraph line spans)
  | bullets {line bullet items} (hbullet : Text.Unmarked [bullet])
      (h : ∀ item ∈ items, ∀ block ∈ item, Unmarked block) : Unmarked (.bullets line bullet items)
  | enumerated {line sequence bracket start items}
      (h : ∀ item ∈ items, ∀ block ∈ item, Unmarked block) :
      Unmarked (.enumerated line sequence bracket start items)
  | literal {line text} (h : Text.Unmarked text) : Unmarked (.literal line text)
  | doctest {line text} (h : Text.Unmarked text) : Unmarked (.doctest line text)
  | quote {line children} (h : ∀ block ∈ children, Unmarked block) :
      Unmarked (.quote line children)
  | field {line role name type body} (hname : Text.Unmarked name)
      (htype : ∀ t, type = some t → Text.Unmarked t) (h : ∀ block ∈ body, Unmarked block) :
      Unmarked (.field line role name type body)
  | rubric {line spans} (h : ∀ span ∈ spans, Span.Unmarked span) : Unmarked (.rubric line spans)
  | admonition {line label children} (hlabel : Text.Unmarked label)
      (h : ∀ block ∈ children, Unmarked block) : Unmarked (.admonition line label children)
  | comment {line text} (h : Text.Unmarked text) : Unmarked (.comment line text)

namespace Block

theorem unmarked_ofLines {roles : List Text} {lines : List Line} {blocks : List Block}
    (h : Line.Unmarked lines) (hblocks : ofLines roles lines = .ok blocks) :
    ∀ block ∈ blocks, block.Unmarked := by
  refine ofLines_induction
    (P := fun lines blocks => Line.Unmarked lines → ∀ block ∈ blocks, block.Unmarked) ?_ hblocks h
  intro lines blocks hread ih h block hblock
  obtain ⟨frame, hframe, htoBlock⟩ := exists_of_mem_forall₂ hread hblock
  have htexts := Frame.unmarked_cut h frame hframe
  have hinner : ∀ body ∈ frame.bodies, ∀ inner, ofLines roles body = .ok inner →
      ∀ block ∈ inner, block.Unmarked :=
    fun body hbody inner hread => ih frame hframe body hbody inner hread
      (h.within (Frame.within_cut frame hframe body hbody))
  have hitems {items : List (List Block)}
      (hread : List.Forall₂ (fun body inner => ofLines roles body = .ok inner) frame.bodies items) :
      ∀ item ∈ items, ∀ block ∈ item, block.Unmarked := by
    intro item hitem
    obtain ⟨body, hbody, hread⟩ := exists_of_mem_forall₂ hread hitem
    exact hinner body hbody item hread
  cases frame with
  | paragraph line text =>
    obtain ⟨spans, hspans, rfl⟩ := map_eq_ok_iff.1 htoBlock
    exact .paragraph (Inline.unmarked_scan (unmarkedLines_cons.1 htexts).1 hspans)
  | rubric line title =>
    obtain ⟨spans, hspans, rfl⟩ := map_eq_ok_iff.1 htoBlock
    exact .rubric (Inline.unmarked_scan (unmarkedLines_cons.1 htexts).1 hspans)
  | bullets line bullet items =>
    obtain ⟨inner, hread, rfl⟩ := map_eq_ok_iff.1 htoBlock
    exact .bullets (unmarkedLines_cons.1 htexts).1 (hitems (mapM_eq_ok_iff.1 hread))
  | enumerated line sequence bracket start items =>
    obtain ⟨inner, hread, rfl⟩ := map_eq_ok_iff.1 htoBlock
    exact .enumerated (hitems (mapM_eq_ok_iff.1 hread))
  | literal line text => cases htoBlock; exact .literal (unmarkedLines_cons.1 htexts).1
  | doctest line text => cases htoBlock; exact .doctest (unmarkedLines_cons.1 htexts).1
  | comment line text => cases htoBlock; exact .comment (unmarkedLines_cons.1 htexts).1
  | quote line body =>
    obtain ⟨inner, hread, rfl⟩ := map_eq_ok_iff.1 htoBlock
    exact .quote (hinner body (List.mem_singleton_self body) inner hread)
  | admonition line label body =>
    obtain ⟨inner, hread, rfl⟩ := map_eq_ok_iff.1 htoBlock
    exact .admonition (unmarkedLines_cons.1 htexts).1
      (hinner body (List.mem_singleton_self body) inner hread)
  | field line role name type body =>
    obtain ⟨inner, hread, rfl⟩ := map_eq_ok_iff.1 htoBlock
    obtain ⟨hname, htype⟩ := unmarkedLines_cons.1 htexts
    exact .field hname (fun t ht => htype t (Option.mem_toList.2 ht))
      (hinner body (List.mem_singleton_self body) inner hread)

/-- A text without escapes has a block tree without escapes. -/
theorem unmarked_parse {roles : List Text} {t : Text} {blocks : List Block} (h : Text.Unmarked t)
    (hblocks : parse roles t = .ok blocks) : ∀ block ∈ blocks, block.Unmarked :=
  unmarked_ofLines (Line.unmarked_ofText h) hblocks

end Block

end CallDoc
