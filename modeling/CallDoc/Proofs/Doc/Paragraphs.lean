import CallDoc.Proofs.Markup.Extent
import CallDoc.Proofs.Markup.Locality
import CallDoc.Proofs.Outline.FieldList

/-!
Paragraphs of plain prose. They come through every stage of reading as they are: a margin is
not found in them, nor a section, nor markup, and the numbers of their lines show that a
blank line stands between one and the next, however many there are.
-/
namespace CallDoc

open Text

namespace Chunk

/-- A blank line stands behind a piece that ends above the line before the next chunk. -/
theorem join_cons_of_lt {line : Nat} {text : Text} {next : Chunk} (more : List Chunk)
    (h : line + text.count '\n' + 1 < next.line) :
    join (.prose line text :: next :: more) = text ++ "\n\n".toList ++ join (next :: more) := by
  rw [join, List.head?_cons, Option.elim_some, gap, if_pos h]
  rfl

theorem description_of_isSolid {chunks : List Chunk} (h : IsSolid (join chunks)) :
    description chunks = join chunks := by
  have hstrip := h.stripWhere_newline (List.forall_mem_nil _)
  rwa [List.append_nil] at hstrip

end Chunk

/-- A paragraph of plain prose, with the blank lines in front of it. -/
structure Paragraph where
  gap : List Text
  lines : List Text
  gap_ne_nil : gap ≠ []
  gap_blank : ∀ line ∈ gap, blank line = true ∧ '\n' ∉ line
  prose : IsProseLines lines

namespace Paragraph

/-- The lines of paragraphs one below the other. -/
def written (paragraphs : List Paragraph) : List Text :=
  paragraphs.flatMap fun p => p.gap ++ p.lines

/-- The lines of which nothing is left where they are blank. -/
def cleared (paragraphs : List Paragraph) : List Text :=
  paragraphs.flatMap fun p => p.gap.map (fun _ => []) ++ p.lines

/-- The text of each paragraph. -/
def texts (paragraphs : List Paragraph) : List Text := paragraphs.map fun p => unlines p.lines

variable {first : List Text} {p : Paragraph} {more : List Paragraph}

/-! ## Margins and sections -/

theorem cleared_expandTabs_of_isProse {line : Text} (h : isProse line = true) :
    Text.cleared (expandTabs line) = line := by
  rw [expandTabs_of_not_mem (isTrimmed_of_isProse h).tab, Text.cleared,
    (isSolid_of_isProse h).blank, if_neg Bool.false_ne_true]

theorem cleared_expandTabs_of_blank {line : Text} (h : blank line = true) :
    Text.cleared (expandTabs line) = [] := by
  refine if_pos (List.all_eq_true.2 fun c hc => ?_)
  rcases mem_expandFrom hc with rfl | hc
  · rfl
  · exact List.all_eq_true.1 h c hc

theorem endsInProse_of_cleared (hfirst : IsProseLines first) :
    ∀ line ∈ first ++ cleared more, line = [] ∨ EndsInProse line := by
  intro line hline
  rcases List.mem_append.1 hline with hline | hline
  · exact Or.inr (endsInProse_of_isProse (hfirst.prose line hline))
  · obtain ⟨p, -, hline⟩ := List.mem_flatMap.1 hline
    rcases List.mem_append.1 hline with hline | hline
    · obtain ⟨-, -, rfl⟩ := List.mem_map.1 hline
      exact Or.inl rfl
    · exact Or.inr (endsInProse_of_isProse (p.prose.prose line hline))

theorem getLast?_cleared (hfirst : IsProseLines first) :
    (first ++ cleared more).getLast? ≠ some [] := by
  have hprose {lines : List Text} (h : IsProseLines lines) (before : List Text) :
      (before ++ lines).getLast? ≠ some [] := by
    rw [List.getLast?_append_of_ne_nil _ h.ne_nil]
    exact fun he => (isSolid_of_isProse (h.prose [] (List.mem_of_getLast? he))).ne_nil rfl
  rcases List.eq_nil_or_concat' more with rfl | ⟨init, p, rfl⟩
  · exact fun he => hprose hfirst [] (by simpa [cleared] using he)
  · have hsplit : first ++ cleared (init ++ [p]) =
        (first ++ cleared init ++ p.gap.map fun _ => []) ++ p.lines := by simp [cleared]
    rw [hsplit]
    exact hprose p.prose _

theorem newline_of_written (hfirst : IsProseLines first) :
    ∀ line ∈ first ++ written more, '\n' ∉ line := by
  intro line hline
  rcases List.mem_append.1 hline with hline | hline
  · exact (isTrimmed_of_isProse (hfirst.prose line hline)).newline
  · obtain ⟨p, -, hline⟩ := List.mem_flatMap.1 hline
    rcases List.mem_append.1 hline with hline | hline
    · exact (p.gap_blank line hline).2
    · exact (isTrimmed_of_isProse (p.prose.prose line hline)).newline

theorem sourceLines_written (hfirst : IsProseLines first) :
    sourceLines (unlines (first ++ written more)) = first ++ cleared more := by
  have hprose {lines : List Text} (h : IsProseLines lines) :
      lines.map (fun line => Text.cleared (expandTabs line)) = lines :=
    (List.map_congr_left fun line hline =>
      cleared_expandTabs_of_isProse (h.prose line hline)).trans (List.map_id _)
  have hmore : (written more).map (fun line => Text.cleared (expandTabs line)) = cleared more := by
    rw [written, List.map_flatMap]
    refine List.flatMap_congr fun p _ => ?_
    rw [List.map_append, hprose p.prose]
    exact congrArg (· ++ p.lines) <| List.map_congr_left fun line hline =>
      cleared_expandTabs_of_blank (p.gap_blank line hline).1
  change (splitOn '\n' (unlines (first ++ written more))).map
    (fun line => Text.cleared (expandTabs line)) = first ++ cleared more
  rw [splitOn_unlines (List.append_ne_nil_of_left_ne_nil hfirst.ne_nil _)
    (newline_of_written hfirst), List.map_append, hprose hfirst, hmore]

/-- There is no margin, and nothing but the blanks of blank lines goes. -/
theorem cleanMargin_written (hfirst : IsProseLines first) :
    cleanMargin (unlines (first ++ written more)) = unlines (first ++ cleared more) := by
  have htrim : ∀ line ∈ first ++ cleared more, IsTrimmed line := fun line hline =>
    isTrimmed_of_prose (endsInProse_of_cleared hfirst line hline)
  have hsource : sourceLines (unlines (first ++ cleared more)) = first ++ cleared more :=
    sourceLines_unlines (List.append_ne_nil_of_left_ne_nil hfirst.ne_nil _) htrim
  have hindent : cleared more = [] ∨ ∃ line ∈ cleared more, line ≠ [] ∧ indent line = 0 := by
    cases more with
    | nil => exact Or.inl rfl
    | cons p more =>
      obtain ⟨line, below, hlines⟩ := List.exists_cons_of_ne_nil p.prose.ne_nil
      have hmem : line ∈ p.lines := hlines ▸ List.mem_cons_self
      have hsolid := isSolid_of_isProse (p.prose.prose line hmem)
      refine Or.inr ⟨line, ?_, hsolid.ne_nil, hsolid.indent 0⟩
      exact List.mem_flatMap.2 ⟨p, List.mem_cons_self, List.mem_append_right _ hmem⟩
  have hkept := cleanMargin_unlines hfirst
    (fun line hline => htrim line (List.mem_append_right _ hline)) hindent (getLast?_cleared hfirst)
  rw [← hkept, cleanMargin, cleanMargin, sourceLines_written hfirst, hsource]

theorem trimmedLines_canonical (reader : DocReader) (hfirst : IsProseLines first) :
    trimmedLines (reader.canonical (unlines (first ++ written more))) = first ++ cleared more := by
  have hprose : ∀ line ∈ first ++ cleared more, line = [] ∨ EndsInProse line :=
    endsInProse_of_cleared hfirst
  have hlast : (first ++ cleared more).getLast? ≠ some [] := getLast?_cleared hfirst
  have hkept {convention : Convention} {t : Text} (ht : trimmedLines t = first ++ cleared more) :
      trimmedLines (Section.canonicalText convention t) = first ++ cleared more :=
    trimmedLines_canonicalText hprose hlast ht
  have hlines : trimmedLines (unlines (first ++ cleared more)) = first ++ cleared more :=
    trimmedLines_unlines (fun line hline => isTrimmed_of_prose (hprose line hline)) hlast
  rw [DocReader.canonical, cleanMargin_written hfirst, Conventions.normalize]
  split <;> split
  · exact hkept (hkept hlines)
  · exact hkept hlines
  · exact hkept hlines
  · exact hlines

/-! ## Blocks -/

/-- The blocks of paragraphs, of which the first starts at the given line. -/
def blocks (number : Nat) (first : List Text) : List Paragraph → List Block
  | [] => [.paragraph number [.text (unlines first)]]
  | p :: more =>
    .paragraph number [.text (unlines first)] ::
      blocks (number + first.length + p.gap.length) p.lines more

theorem number_of_isSource {line next : Line} {above below : List Line}
    (h : Line.IsSource (line :: (above ++ next :: below))) :
    next.number = line.number + above.length + 1 := by
  have hpart : (line :: (above ++ [next])) <:+: line :: (above ++ next :: below) :=
    ⟨[], below, by simp⟩
  have hlast := (h.mono hpart).lastNumber_eq
  rw [Line.lastNumber_append, List.length_append] at hlast
  exact hlast

/-- Lines of prose are cut off as a paragraph in front of a blank line or the end. -/
theorem cut_prose_append {line : Line} {below after : List Line} (hfirst : IsProseLines first)
    (hlines : (line :: below).map Line.text = first)
    (hafter : ∀ l, after.head? = some l → l.isBlank = true) :
    Frame.cut (line :: (below ++ after)) =
      .paragraph line.number (unlines first) :: Frame.cut after := by
  have hline : line.isBlank = false :=
    Line.isBlank_of_isProse (hfirst.prose line.text (hlines ▸ List.mem_cons_self))
  rw [Frame.cut, if_neg (by simp [hline]), Frame.first_prose hfirst hlines hafter]
  rfl

theorem toBlock_prose (roles : List Text) (read : List Line → Except Error (List Block))
    (hfirst : IsProseLines first) (number : Nat) :
    Frame.toBlock roles read (.paragraph number (unlines first)) =
      .ok (.paragraph number [.text (unlines first)]) := by
  rw [Frame.toBlock, Inline.parse_prose hfirst]
  rfl

/-- The lines of paragraphs are those of the first, blank ones, and those from the next on. -/
theorem exists_split_of_cleared {line : Line} {below : List Line} (hfirst : IsProseLines first)
    (hlines : (line :: below).map Line.text = first ++ cleared (p :: more)) :
    ∃ above gap next rest, below = above ++ (gap ++ next :: rest) ∧
      (line :: above).map Line.text = first ∧
      (gap.length = p.gap.length ∧ ∀ l ∈ gap, l.isBlank = true) ∧
      (next :: rest).map Line.text = p.lines ++ cleared more := by
  have hcleared : cleared (p :: more) =
      p.gap.map (fun _ => []) ++ (p.lines ++ cleared more) := by simp [cleared]
  obtain ⟨start, text, hstart⟩ := List.exists_cons_of_ne_nil hfirst.ne_nil
  obtain ⟨start', text', hstart'⟩ := List.exists_cons_of_ne_nil p.prose.ne_nil
  rw [hcleared, hstart, List.map_cons, List.cons_append] at hlines
  obtain ⟨hline, hbelow⟩ := List.cons.inj hlines
  obtain ⟨above, after, rfl, habove, hafter⟩ := List.map_eq_append_iff.1 hbelow
  obtain ⟨gap, rest, rfl, hgap, hrest⟩ := List.map_eq_append_iff.1 hafter
  obtain ⟨next, rest, rfl, -, -⟩ := List.map_eq_cons_iff.1
    (hrest.trans (congrArg (· ++ cleared more) hstart'))
  refine ⟨above, gap, next, rest, rfl, ?_, ⟨?_, fun l hl => ?_⟩, hrest⟩
  · rw [List.map_cons, hline, habove, hstart]
  · simpa using congrArg List.length hgap
  · obtain ⟨_, -, hempty⟩ := List.mem_map.1 (hgap ▸ List.mem_map_of_mem hl)
    rw [Line.isBlank, ← hempty]
    rfl

/-- By induction on the paragraphs: each is cut off in front of the blank lines behind it. -/
theorem ofLines_cleared (roles : List Text) {line : Line} {below : List Line}
    (hsource : Line.IsSource (line :: below)) (hfirst : IsProseLines first)
    (hlines : (line :: below).map Line.text = first ++ cleared more) :
    Block.ofLines roles (line :: below) = .ok (blocks line.number first more) := by
  induction more generalizing line below first with
  | nil =>
    rw [cleared, List.flatMap_nil, List.append_nil] at hlines
    have hcut : Frame.cut (line :: (below ++ [])) = .paragraph line.number (unlines first) ::
        Frame.cut [] := cut_prose_append hfirst hlines nofun
    rw [List.append_nil, Frame.cut] at hcut
    rw [Block.ofLines_eq, hcut, List.mapM_cons, toBlock_prose roles _ hfirst]
    rfl
  | cons p more ih =>
    obtain ⟨above, gap, next, rest, rfl, habove, ⟨hgap, hblank⟩, hrest⟩ :=
      exists_split_of_cleared hfirst hlines
    have hnumber : next.number = line.number + first.length + p.gap.length := by
      rw [← List.append_assoc] at hsource
      rw [number_of_isSource hsource, ← habove, List.length_map, List.length_cons,
        List.length_append, hgap]
      omega
    have hhead : ∀ l, (gap ++ next :: rest).head? = some l → l.isBlank = true := by
      obtain ⟨l, more, rfl⟩ := List.exists_cons_of_length_pos
        (hgap ▸ List.length_pos_iff.2 p.gap_ne_nil)
      rintro l ⟨⟩
      exact hblank l List.mem_cons_self
    have hpart : (next :: rest) <:+: line :: (above ++ (gap ++ next :: rest)) :=
      ⟨line :: (above ++ gap), [], by simp⟩
    have hnext := ih (hsource.mono hpart) p.prose hrest
    rw [hnumber, Block.ofLines_eq] at hnext
    rw [Block.ofLines_eq, cut_prose_append hfirst habove hhead, Frame.cut_append_of_isBlank hblank,
      List.mapM_cons, toBlock_prose roles _ hfirst, hnext]
    rfl

/-! ## What is shown -/

theorem declareAll_blocks (d : Declarations) (number : Nat) (first : List Text)
    (more : List Paragraph) : Block.declareAll d (blocks number first more) = .ok d := by
  induction more generalizing number first with
  | nil => rfl
  | cons p more ih => exact ih _ p.lines

theorem exists_chunksOfAll_blocks (number : Nat) (first : List Text) (more : List Paragraph) :
    ∃ chunks, (Block.chunksOfAll [] (blocks number first more)).1 =
      .prose number (unlines first) :: chunks := by
  cases more <;> exact ⟨_, Block.chunksOfAll_paragraph number (unlines first) _⟩

/-- By induction on the paragraphs: two line breaks stand behind each but the last, since more
lines than its own lie between its number and that of the next. -/
theorem join_chunksOfAll_blocks (hfirst : IsProseLines first) (number : Nat) :
    Chunk.join (Block.chunksOfAll [] (blocks number first more)).1 =
      joinWith "\n\n".toList (unlines first :: texts more) := by
  induction more generalizing number first with
  | nil =>
    rw [blocks, Block.chunksOfAll_paragraph]
    simp [Block.chunksOfAll, Chunk.join, texts, joinWith]
  | cons p more ih =>
    have hnext := ih p.prose (number + first.length + p.gap.length)
    obtain ⟨chunks, hchunks⟩ :=
      exists_chunksOfAll_blocks (number + first.length + p.gap.length) p.lines more
    have hcount := count_newline_unlines hfirst.ne_nil fun line hline =>
      (isTrimmed_of_isProse (hfirst.prose line hline)).newline
    have hbelow : number + (unlines first).count '\n' + 1 <
        number + first.length + p.gap.length := by
      have := List.length_pos_iff.2 p.gap_ne_nil
      omega
    rw [blocks, Block.chunksOfAll_paragraph, texts, List.map_cons, joinWith_cons_cons, ← texts,
      ← hnext, hchunks, Chunk.join_cons_of_lt _ hbelow, List.append_assoc]

theorem isSolid_texts (hfirst : IsProseLines first) :
    IsSolid (joinWith "\n\n".toList (unlines first :: texts more)) := by
  induction more generalizing first with
  | nil =>
    rw [texts, List.map_nil, joinWith, List.intercalate_singleton]
    exact hfirst.isSolid
  | cons p more ih =>
    rw [texts, List.map_cons, joinWith_cons_cons, ← List.append_assoc]
    exact hfirst.isSolid.of_append (ih p.prose)

theorem ofBlocks_blocks (hfirst : IsProseLines first) (number : Nat) :
    Doc.ofBlocks (blocks number first more) =
      .ok ⟨unlines first, joinWith "\n\n".toList (unlines first :: texts more), [], []⟩ := by
  obtain ⟨chunks, hchunks⟩ := exists_chunksOfAll_blocks number first more
  have hsummary : Block.summarize (blocks number first more) = unlines first := by
    rw [Block.summarize, hchunks]
    rfl
  have hdescription : Block.describe (blocks number first more) =
      joinWith "\n\n".toList (unlines first :: texts more) := by
    have hjoin : Chunk.join (Block.chunksOfAll [] (blocks number first more)).1 =
        joinWith "\n\n".toList (unlines first :: texts more) := join_chunksOfAll_blocks hfirst number
    have hsolid : IsSolid (joinWith "\n\n".toList (unlines first :: texts more)) :=
      isSolid_texts hfirst
    rw [← hjoin] at hsolid
    rw [Block.describe, Chunk.description_of_isSolid hsolid, hjoin]
  rw [Doc.ofBlocks, declareAll_blocks, hsummary, hdescription]
  rfl

end Paragraph

/-- Plain prose comes through as it is: its first paragraph is the summary, and all of them are the
description, with one blank line between any two. -/
theorem DocReader.read_paragraphs (reader : DocReader) {first : List Text}
    (hfirst : IsProseLines first) (more : List Paragraph) :
    reader.read (some (unlines (first ++ Paragraph.written more))) =
      .ok ⟨unlines first, joinWith "\n\n".toList (unlines first :: Paragraph.texts more),
        [], []⟩ := by
  have hlines : trimmedLines (reader.canonical (unlines (first ++ Paragraph.written more))) =
      first ++ Paragraph.cleared more := Paragraph.trimmedLines_canonical reader hfirst
  rw [← Line.map_text_ofText] at hlines
  have hsource := Line.isSource_ofText
    (reader.canonical (unlines (first ++ Paragraph.written more)))
  have hparse : ∃ number, Block.parse reader.roles
      (reader.canonical (unlines (first ++ Paragraph.written more))) =
        .ok (Paragraph.blocks number first more) := by
    rw [Block.parse]
    obtain ⟨start, text, hstart⟩ := List.exists_cons_of_ne_nil
      (List.append_ne_nil_of_left_ne_nil hfirst.ne_nil (Paragraph.cleared more))
    obtain ⟨line, below, hcons, -, -⟩ := List.map_eq_cons_iff.1 (hlines.trans hstart)
    rw [hcons] at hlines hsource ⊢
    exact ⟨line.number, Paragraph.ofLines_cleared reader.roles hsource hfirst hlines⟩
  obtain ⟨number, hparse⟩ := hparse
  rw [read, readText, hparse]
  exact Paragraph.ofBlocks_blocks hfirst number

/-- A section name and what could be numbers of list items, with blank lines of several kinds. -/
theorem DocReader.read_paragraphs_returns :
    IsProseLines ["Returns".toList, "a, b".toList] ∧
    standard.read (some "Returns\na, b\n\n \t\n\niv, 1\n\nNotes".toList) =
      .ok ⟨"Returns\na, b".toList, "Returns\na, b\n\niv, 1\n\nNotes".toList, [], []⟩ := by
  have hfirst : IsProseLines ["Returns".toList, "a, b".toList] :=
    ⟨by decide, by decide +kernel⟩
  let numbered : Paragraph :=
    ⟨[[], " \t".toList, []], ["iv, 1".toList], by decide, by decide, by decide, by decide +kernel⟩
  let notes : Paragraph :=
    ⟨[[]], ["Notes".toList], by decide, by decide, by decide, by decide +kernel⟩
  exact ⟨hfirst, read_paragraphs standard hfirst [numbered, notes]⟩

end CallDoc
