import CallDoc.Proofs.Markup.Document
import CallDoc.Proofs.Markup.Numbered
import CallDoc.Proofs.Numeral.Label

/-!
Enumerated lists of prose, written and read. The items of a list stand behind labels of one
width, and what else they have stands below their first line, so that each of them takes its
own lines and the label after them continues the list. Reading gives back the items, and the
description of the list is the text that was read.
-/
namespace CallDoc

open Text

/-! ## Lists as text -/

namespace Text

/-- The lines of an item behind its label, the others below the first. -/
def labelled (label : Text) : List Text → List Text
  | [] => []
  | first :: more => (label ++ first) :: pad label.length more

/-- The lines of a list, each item behind its own label. -/
def listed (labels : List Text) (items : List (List Text)) : List Text :=
  (List.zipWith labelled labels items).flatten

theorem listed_cons (label : Text) (labels : List Text) (item : List Text)
    (items : List (List Text)) :
    listed (label :: labels) (item :: items) = labelled label item ++ listed labels items := by
  rw [listed, List.zipWith_cons_cons, List.flatten_cons, listed]

theorem unlines_labelled (label : Text) {item : List Text} (h : IsProseLines item) :
    unlines (labelled label item) = label ++ hang (spaces label.length) (unlines item) := by
  obtain ⟨first, more, rfl⟩ := List.exists_cons_of_ne_nil h.ne_nil
  rw [hang_unlines (not_mem_spaces (by decide) _) fun line hline =>
    (isTrimmed_of_isProse (h.prose line hline)).newline, labelled, unlines_append_head]
  rfl

end Text

section Labelled

variable {s : Sequence} {bracket : Bracket} {width n : Nat} {label : Text}

theorem IsLabel.head (h : IsLabel s bracket width n label) :
    ∃ c t, label = c :: t ∧ isBlank c = false ∧ c ∉ ".:*+-".toList := by
  obtain ⟨c, t, hcons, hc⟩ := h.exists_cons
  refine ⟨c, t, hcons, ?_⟩
  rcases hc with rfl | hc
  · decide
  · refine ⟨isBlank_of_isProseCharacter (isProseCharacter_of_isLetterOrDigit hc), fun hmem => ?_⟩
    have hnone : ∀ d ∈ ".:*+-".toList, isLetterOrDigit d = false :=
      forall_mem_of_all (by decide)
    rw [hnone c hmem] at hc
    cases hc

theorem IsLabel.width_pos (h : IsLabel s bracket width n label) : 0 < width := by
  obtain ⟨c, t, hcons, -⟩ := h.exists_cons
  rw [← h.length, hcons]
  exact Nat.succ_pos _

/-- A line behind a label stands at the margin. -/
theorem IsLabel.atMargin (h : IsLabel s bracket width n label) (number : Nat) (t : Text) :
    Line.isBlank ⟨number, label ++ t⟩ = false ∧ Line.isIndented ⟨number, label ++ t⟩ = false := by
  obtain ⟨c, u, rfl, hc, -⟩ := h.head
  simp [Line.isBlank, Line.isIndented, blank, indent, hc]

theorem IsLabel.endsInProse (h : IsLabel s bracket width n label) {t : Text}
    (ht : isProse t = true) : EndsInProse (label ++ t) where
  split := by
    refine ⟨label, t, rfl, ht, ?_⟩
    obtain ⟨numeral, gap, hnumeral, -, rfl⟩ := h.written
    obtain ⟨-, hletters⟩ := Sequence.isLetterOrDigit_of_numeral? hnumeral
    have hwrap : ∀ c ∈ bracket.wrap numeral, isBlank c = false := by
      intro c hc
      have hmem : c ∈ numeral ∨ c ∈ "().".toList := by
        cases bracket <;> simp [Bracket.wrap] at hc <;> simp <;> tauto
      rcases hmem with hmem | hmem
      · exact isBlank_of_isProseCharacter (isProseCharacter_of_isLetterOrDigit (hletters c hmem))
      · have hnone : ∀ d ∈ "().".toList, isBlank d = false := forall_mem_of_all (by decide)
        exact hnone c hmem
    intro c hc hblank
    rcases List.mem_append.1 hc with hc | hc
    · rw [hwrap c hc] at hblank
      cases hblank
    · exact space_spaces gap c hc hblank
  head := by
    obtain ⟨c, u, rfl, -, hmarks⟩ := h.head
    rintro ⟨⟩
    exact hmarks (by decide)

theorem IsLabel.endsInProse_labelled (h : IsLabel s bracket width n label) {item : List Text}
    (hitem : IsProseLines item) : ∀ line ∈ labelled label item, EndsInProse line := by
  obtain ⟨first, more, rfl⟩ := List.exists_cons_of_ne_nil hitem.ne_nil
  obtain ⟨hfirst, hmore⟩ := List.forall_mem_cons.1 hitem.prose
  refine List.forall_mem_cons.2 ⟨h.endsInProse hfirst, fun line hline => ?_⟩
  obtain ⟨t, ht, rfl⟩ := List.mem_map.1 hline
  exact endsInProse_spaces (hmore t ht) _

theorem IsLabel.isSolid_labelled (h : IsLabel s bracket width n label) {item : List Text}
    (hitem : IsProseLines item) : IsSolid (unlines (labelled label item)) := by
  rw [unlines_labelled label hitem]
  obtain ⟨u, d, hlast, hd⟩ := (hitem.isSolid.hang (spaces label.length)).last
  obtain ⟨c, t, hcons, hc, -⟩ := h.head
  rw [hlast, ← List.append_assoc]
  refine ⟨⟨c, t ++ u ++ [d], ?_, hc⟩, ⟨label ++ u, d, rfl, hd⟩⟩
  rw [hcons, List.cons_append, List.cons_append]

end Labelled

/-! ## The lines of a list -/

/-- The items of a list from item number `n` on, each behind the label of its number. -/
structure IsList (s : Sequence) (bracket : Bracket) (width n : Nat) (labels : List Text)
    (items : List (List Text)) : Prop where
  labels : List.Forall₂ (IsLabel s bracket width) (List.range' n items.length) labels
  prose : ∀ item ∈ items, IsProseLines item
  bound : n + items.length < UInt64.size

namespace IsList

variable {s : Sequence} {bracket : Bracket} {width n : Nat} {labels : List Text}

theorem exists_cons {item : List Text} {items : List (List Text)}
    (h : IsList s bracket width n labels (item :: items)) :
    ∃ label more, labels = label :: more ∧ IsLabel s bracket width n label ∧
      IsProseLines item ∧ IsList s bracket width (n + 1) more items := by
  obtain ⟨hlabels, hprose, hbound⟩ := h
  rw [List.length_cons] at hlabels hbound
  rw [List.range'_succ] at hlabels
  obtain ⟨label, more, hlabel, hmore, rfl⟩ := List.forall₂_cons_left_iff.1 hlabels
  obtain ⟨hitem, hitems⟩ := List.forall_mem_cons.1 hprose
  exact ⟨label, more, rfl, hlabel, hitem, hmore, hitems, by omega⟩

variable {items : List (List Text)}

theorem endsInProse (h : IsList s bracket width n labels items) :
    ∀ line ∈ listed labels items, EndsInProse line := by
  induction items generalizing n labels with
  | nil => simp [listed]
  | cons item items ih =>
    obtain ⟨label, more, rfl, hlabel, hitem, hmore⟩ := h.exists_cons
    rw [listed_cons]
    intro line hline
    rcases List.mem_append.1 hline with hline | hline
    · exact hlabel.endsInProse_labelled hitem line hline
    · exact ih hmore line hline

theorem trimmedLines (h : IsList s bracket width n labels items) :
    trimmedLines (unlines (listed labels items)) = listed labels items := by
  refine trimmedLines_unlines (fun line hline => (h.endsInProse line hline).isTrimmed) fun he => ?_
  exact (h.endsInProse [] (List.mem_of_getLast? he)).ne_nil rfl

/-- The first line of a list stands at the margin. -/
theorem atMargin (h : IsList s bracket width n labels items) (number : Nat) {line : Line}
    (hline : (Line.numbered number (listed labels items)).head? = some line) :
    line.isBlank = false ∧ line.isIndented = false := by
  cases items with
  | nil => simp [listed, Line.numbered] at hline
  | cons item items =>
    obtain ⟨label, more, rfl, hlabel, hitem, -⟩ := h.exists_cons
    obtain ⟨first, below, rfl⟩ := List.exists_cons_of_ne_nil hitem.ne_nil
    rw [listed_cons, labelled, List.cons_append, Line.numbered] at hline
    obtain rfl := Option.some.inj hline
    exact hlabel.atMargin number first

end IsList

/-! ## Reading -/

/-- The bodies of items that stand below each other from line `n` on. -/
def Line.bodies (n : Nat) : List (List Text) → List (List Line)
  | [] => []
  | item :: more => numbered n item :: bodies (n + item.length) more

/-- Items of one paragraph each, below each other from line `n` on. -/
def Block.paragraphs (n : Nat) : List (List Text) → List (List Block)
  | [] => []
  | item :: more => [.paragraph n [.text (unlines item)]] :: paragraphs (n + item.length) more

namespace Frame

variable {s : Sequence} {bracket : Bracket} {width start count : Nat} {marker : Marker}

theorem isAuto_of_numeral? {n : Nat} {numeral : Text} (h : s.numeral? n = some numeral)
    {offset : Nat} : Marker.isAuto ⟨bracket, numeral, offset⟩ = false := by
  obtain ⟨-, hletters⟩ := Sequence.isLetterOrDigit_of_numeral? h
  refine Bool.eq_false_iff.2 fun he => ?_
  obtain rfl : numeral = "#".toList := by simpa [Marker.isAuto, Marker.isAutoToken] using he
  exact absurd (hletters '#' (by decide)) (by decide)

/-- The label of the next number continues a list. -/
theorem continues_label {label t : Text} (hbracket : marker.bracket = bracket)
    (hauto : marker.isAuto = false) (hbound : start + count < UInt64.size)
    (hlabel : IsLabel s bracket width (start + count) label) (ht : IsSolid t) :
    ∃ m, Marker.ofLine? (label ++ t) = some m ∧ m.textOffset = width ∧
      m.continues marker s (numberAfter start count) = true := by
  obtain ⟨numeral, hnumeral, hmarker⟩ := hlabel.ofLine?_append ht
  refine ⟨_, hmarker, rfl, ?_⟩
  have hordinal := Sequence.ordinal?_numeral hbound hnumeral
  have hnamed : Marker.isAuto ⟨bracket, numeral, width⟩ = false := isAuto_of_numeral? hnumeral
  have hcontinuing : Marker.continuing? ⟨bracket, numeral, width⟩ s = some (start + count) := by
    rw [Marker.continuing?, hnamed]
    exact hordinal
  rw [numberAfter_eq hbound, Marker.continues, hauto, hcontinuing, hbracket]
  simp

theorem nextNumber?_label {label t : Text} (hbracket : marker.bracket = bracket)
    (hauto : marker.isAuto = false) (hbound : start + count < UInt64.size)
    (hlabel : IsLabel s bracket width (start + count) label) (ht : IsSolid t) :
    nextNumber? marker s start count (label ++ t) = some width := by
  obtain ⟨m, hmarker, hoffset, hcontinues⟩ := continues_label hbracket hauto hbound hlabel ht
  rw [nextNumber?, hmarker]
  simp [Option.filter, hcontinues, hoffset]

/-- The lines of a list begin with the first line of its first item. -/
theorem numbered_listed {label first : Text} (hlength : label.length = width) (n : Nat)
    (labels more : List Text) (items : List (List Text)) :
    Line.numbered n (listed (label :: labels) ((first :: more) :: items)) =
      ⟨n, label ++ first⟩ :: Line.numbered (n + 1) (pad width more ++ listed labels items) := by
  rw [listed_cons, labelled, hlength, List.cons_append, Line.numbered]

/-- The lines below the first one of an item end where the list goes on. -/
theorem hanging_item (hwidth : 0 < width) {more : List Text}
    (hmore : ∀ line ∈ more, isProse line = true) (n : Nat) {rest : List Line}
    (hrest : ∀ line, rest.head? = some line → line.isBlank = false ∧ line.isIndented = false) :
    Line.hanging (Line.numbered n (pad width more) ++ rest) =
      (Line.numbered n (pad width more), rest) := by
  have hstart : ∀ line, (rest.dropWhile Line.isBlank).head? = some line →
      line.isIndented = false := by
    intro line hline
    cases rest with
    | nil => cases hline
    | cons next rest =>
      obtain ⟨hblank, hindent⟩ := hrest next rfl
      rw [List.dropWhile_cons_of_neg (by simp [hblank])] at hline
      exact Option.some.inj hline ▸ hindent
  have hindented : ∀ line ∈ Line.numbered n (pad width more),
      line.isBlank = false ∧ line.isIndented = true := by
    intro line hline
    obtain ⟨t, ht, he⟩ := List.mem_map.1 (Line.text_mem_of_mem_numbered hline)
    have hsolid := isSolid_of_isProse (hmore t ht)
    rw [Line.isBlank, Line.isIndented, ← he, hsolid.indent]
    exact ⟨hsolid.blank_append _, decide_eq_true hwidth⟩
  rw [Line.hanging_append _ hstart, Line.hanging_of_indented hindented, List.nil_append]

theorem bodyBelow_item {label first : Text} {more : List Text} (hlength : label.length = width)
    (hitem : IsProseLines (first :: more)) (n : Nat) :
    Line.bodyBelow ⟨n, (label ++ first).drop width⟩ (Line.numbered (n + 1) (pad width more)) =
      Line.numbered n (first :: more) := by
  obtain ⟨hfirst, hmore⟩ := List.forall_mem_cons.1 hitem.prose
  have hblank : Line.isBlank ⟨n, first⟩ = false := Line.isBlank_of_isProse hfirst
  rw [← hlength, List.drop_left, Line.bodyBelow, hblank, if_neg Bool.false_ne_true,
    Line.dedent_numbered_pad hmore]
  rfl

/-- Each item of a list takes its own lines, and no line is left. -/
theorem items_listed (hbracket : marker.bracket = bracket) (hauto : marker.isAuto = false)
    {labels : List Text} {items : List (List Text)}
    (hlist : IsList s bracket width (start + count) labels items) {label first : Text}
    {more : List Text} (hlength : label.length = width) (hwidth : 0 < width)
    (hitem : IsProseLines (first :: more)) (n : Nat) :
    Frame.items (nextNumber? marker s start) count width ⟨n, label ++ first⟩
        (Line.numbered (n + 1) (pad width more ++ listed labels items)) =
      (Line.bodies n ((first :: more) :: items), []) := by
  -- on the items that are still below the one being read; its label has been recognised already
  induction items generalizing count labels label first more n with
  | nil =>
    have hhanging : Line.hanging (Line.numbered (n + 1) (pad width more) ++ []) =
        (Line.numbered (n + 1) (pad width more), []) :=
      hanging_item hwidth (List.forall_mem_cons.1 hitem.prose).2 (n + 1) (by nofun)
    have hnone : listed labels [] = [] := by simp [listed]
    rw [items_eq, hnone, List.append_nil, ← List.append_nil (Line.numbered _ _), hhanging]
    dsimp only
    rw [bodyBelow_item hlength hitem]
    rfl
  | cons item items ih =>
    have hnumbers : n + 1 + (pad width more).length = n + (first :: more).length := by
      rw [pad, List.length_map, List.length_cons, Nat.add_assoc, Nat.add_comm 1]
    have hbound : start + count < UInt64.size :=
      Nat.lt_of_le_of_lt (Nat.le_add_right _ _) hlist.bound
    obtain ⟨next, labels, rfl, hnext, hprose, hrest⟩ := hlist.exists_cons
    obtain ⟨line, below, rfl⟩ := List.exists_cons_of_ne_nil hprose.ne_nil
    have hhanging := hanging_item hwidth (List.forall_mem_cons.1 hitem.prose).2 (n + 1)
      fun _ => hlist.atMargin (n + 1 + (pad width more).length)
    have hblank := (hnext.atMargin (n + (first :: more).length) line).1
    have hnumber := nextNumber?_label hbracket hauto hbound hnext
      (isSolid_of_isProse (hprose.prose line List.mem_cons_self))
    rw [items_eq, Line.numbered_append, hhanging, hnumbers, numbered_listed hnext.length]
    dsimp only
    rw [List.dropWhile_cons_of_neg (Bool.eq_false_iff.1 hblank)]
    simp only [hnumber]
    rw [bodyBelow_item hlength hitem, ih hrest hnext.length hprose]
    rfl

/-- The label of a list goes on to the next label, to an indented line, or to the end. -/
theorem startsList_listed (hbracket : marker.bracket = bracket) (hauto : marker.isAuto = false)
    {labels : List Text} {items : List (List Text)}
    (hlist : IsList s bracket width (start + 1) labels items) (hwidth : 0 < width)
    (more : List Text) (n : Nat) :
    startsList marker s start (Line.numbered n (pad width more ++ listed labels items)) = true := by
  cases more with
  | cons line more =>
    have hindented : Line.isIndented ⟨n, spaces width ++ line⟩ = true := by
      rw [Line.isIndented, decide_eq_true_eq, indent_append (blank_spaces width), length_spaces]
      exact Nat.add_pos_left hwidth _
    rw [pad, List.map_cons, List.cons_append, Line.numbered, startsList]
    simp only [hindented, Bool.or_true, Bool.true_or]
  | nil =>
    cases items with
    | nil => simp [listed, pad, Line.numbered, startsList]
    | cons item items =>
      obtain ⟨next, labels, rfl, hnext, hprose, -⟩ := hlist.exists_cons
      obtain ⟨line, below, rfl⟩ := List.exists_cons_of_ne_nil hprose.ne_nil
      have hbound : start + 1 < UInt64.size :=
        Nat.lt_of_le_of_lt (Nat.le_add_right _ _) hlist.bound
      have hsolid : IsSolid line := isSolid_of_isProse (hprose.prose line List.mem_cons_self)
      obtain ⟨m, hmarker, -, hcontinues⟩ := continues_label hbracket hauto hbound hnext hsolid
      rw [listed_cons, labelled, pad, List.map_nil, List.nil_append, List.cons_append,
        Line.numbered, startsList]
      simp only [hmarker, Option.any_some, hcontinues, Bool.or_true]

/-- The frame of a list, if the marker of its first item is one of the sequence. -/
theorem first_listed {label first numeral : Text} {labels more : List Text}
    {items : List (List Text)}
    (hlist : IsList s bracket width start (label :: labels) ((first :: more) :: items))
    (hnumeral : s.numeral? start = some numeral) {offset : Nat}
    (hclass : Marker.firstItem? ⟨bracket, numeral, offset⟩ = some (s, start)) (n : Nat) :
    Frame.first ⟨n, label ++ first⟩
        (Line.numbered (n + 1) (pad width more ++ listed labels items)) =
      ([.enumerated n s bracket start (Line.bodies n ((first :: more) :: items))], []) := by
  obtain ⟨_, _, hcons, hlabel, hitem, hrest⟩ := hlist.exists_cons
  obtain ⟨rfl, rfl⟩ := List.cons.inj hcons
  have hsolid : IsSolid first := isSolid_of_isProse (hitem.prose first List.mem_cons_self)
  obtain ⟨_, hsame, hmarker⟩ := hlabel.ofLine?_append hsolid
  obtain rfl := Option.some.inj (hnumeral.symm.trans hsame)
  have hauto : Marker.isAuto ⟨bracket, numeral, width⟩ = false := isAuto_of_numeral? hnumeral
  have hstarts : startsList ⟨bracket, numeral, width⟩ s start
      (Line.numbered (n + 1) (pad width more ++ listed labels items)) = true :=
    startsList_listed rfl hauto hrest hlabel.width_pos more (n + 1)
  have henumerator : enumerator? (label ++ first)
      (Line.numbered (n + 1) (pad width more ++ listed labels items)) =
      some (⟨bracket, numeral, width⟩, s, start) := by
    have hfirst : Marker.firstItem? ⟨bracket, numeral, width⟩ = some (s, start) := hclass
    rw [enumerator?, hmarker]
    simp only [hfirst, hstarts, if_true]
  have hitems : Frame.items (nextNumber? ⟨bracket, numeral, width⟩ s start) 1 width
      ⟨n, label ++ first⟩ (Line.numbered (n + 1) (pad width more ++ listed labels items)) =
      (Line.bodies n ((first :: more) :: items), []) :=
    items_listed rfl hauto hrest hlabel.length hlabel.width_pos hitem n
  obtain ⟨hblank, hindent⟩ := hlabel.atMargin n first
  obtain ⟨c, t, hhead, -, hmarks⟩ := hlabel.head
  have hne (d : Char) (hd : d ∈ ".:*+-".toList) : c ≠ d := fun he => hmarks (he ▸ hd)
  have hexplicit : isExplicit (label ++ first) = false := by
    rw [hhead, List.cons_append, isExplicit_of_head (hne '.' (by decide))]
  have hfield : fieldHeader? (label ++ first) = none := by
    rw [hhead, List.cons_append, fieldHeader?_of_head (hne ':' (by decide))]
  have hbullet : bullet? (label ++ first) = none := by
    rw [hhead, List.cons_append, bullet?_of_head (hne '*' (by decide)) (hne '+' (by decide))
      (hne '-' (by decide))]
  unfold Frame.first
  dsimp only
  rw [hindent, hexplicit, hfield, hbullet, henumerator]
  simp only [Bool.false_eq_true, if_false, hitems]

end Frame

namespace Block

variable {s : Sequence} {bracket : Bracket} {width start : Nat}

theorem mapM_bodies (roles : List Text) {items : List (List Text)}
    (h : ∀ item ∈ items, IsProseLines item) (n : Nat) :
    (Line.bodies n items).mapM (ofLines roles) = .ok (paragraphs n items) := by
  induction items generalizing n with
  | nil => rfl
  | cons item items ih =>
    obtain ⟨hitem, hmore⟩ := List.forall_mem_cons.1 h
    rw [Line.bodies, List.mapM_cons, ofLines_numbered roles hitem, ih hmore]
    rfl

/-! ## The description -/

/-- The pieces of prose that the items of a list are shown as. -/
def listChunks (n : Nat) : List Text → List (List Text) → List Chunk
  | label :: labels, item :: items =>
    .prose n (unlines (labelled label item)) :: listChunks (n + item.length) labels items
  | _, _ => []

theorem chunksOfItems_paragraphs {n : Nat} {labels : List Text} {items : List (List Text)}
    (h : IsList s bracket width start labels items) :
    chunksOfItems [] labels (paragraphs n items) = (listChunks n labels items, []) := by
  induction items generalizing n start labels with
  | nil =>
    obtain rfl : labels = [] := by simpa using h.labels
    rfl
  | cons item items ih =>
    obtain ⟨label, more, rfl, hlabel, hitem, hmore⟩ := h.exists_cons
    have hchunks : chunksOfAll [label] [.paragraph n [.text (unlines item)]] =
        ([.prose n (unlines (labelled label item))], [spaces label.length]) := by
      rw [unlines_labelled label hitem]
      simp [chunksOfAll, chunks, showProse, Lead.text, Lead.indent, Lead.spent, Span.shownAll,
        Span.shown]
    rw [paragraphs, chunksOfItems]
    simp only [hchunks, List.tail_cons, ih hmore]
    rfl

/-- No blank line stands between two items, so none is shown. -/
theorem join_listChunks {n : Nat} {labels : List Text} {items : List (List Text)}
    (h : IsList s bracket width start labels items) :
    Chunk.join (listChunks n labels items) = unlines (listed labels items) := by
  induction items generalizing n start labels with
  | nil =>
    obtain rfl : labels = [] := by simpa using h.labels
    rfl
  | cons item items ih =>
    obtain ⟨label, more, rfl, hlabel, hitem, hmore⟩ := h.exists_cons
    obtain ⟨line, below, rfl⟩ := List.exists_cons_of_ne_nil hitem.ne_nil
    have hne : labelled label (line :: below) ≠ [] := List.cons_ne_nil _ _
    rw [listChunks, listed_cons, Chunk.join, ih hmore]
    cases items with
    | nil =>
      obtain rfl : more = [] := by simpa using hmore.labels
      simp only [listChunks, listed, List.zipWith_nil_left, List.flatten_nil, List.append_nil,
        List.head?_nil, Option.elim_none]
      exact List.append_nil _
    | cons next items =>
      obtain ⟨label', more, rfl, -, hnext, -⟩ := hmore.exists_cons
      have hcount : (unlines (labelled label (line :: below))).count '\n' + 1 =
          (line :: below).length := by
        have hnewline := count_newline_unlines hne fun l hl =>
          (hlabel.endsInProse_labelled hitem l hl).isTrimmed.newline
        rw [hnewline, labelled, List.length_cons, pad, List.length_map, List.length_cons]
      have hgap : Chunk.gap n (unlines (labelled label (line :: below)))
          (.prose (n + (line :: below).length) (unlines (labelled label' next))) = ['\n'] := by
        rw [Chunk.gap, if_neg]
        change ¬n + _ + 1 < n + _
        omega
      have hrest : listed (label' :: more) (next :: items) ≠ [] := by
        obtain ⟨line', below', rfl⟩ := List.exists_cons_of_ne_nil hnext.ne_nil
        rw [listed_cons]
        exact List.cons_ne_nil _ _
      rw [unlines_append hne hrest, listChunks, List.head?_cons, Option.elim_some, hgap,
        List.append_assoc, List.singleton_append]

theorem isSolid_listed {labels : List Text} {items : List (List Text)} (hne : items ≠ [])
    (h : IsList s bracket width start labels items) : IsSolid (unlines (listed labels items)) := by
  have hgroups : ∀ group ∈ List.zipWith labelled labels items,
      group ≠ [] ∧ IsSolid (unlines group) := by
    clear hne
    induction items generalizing start labels with
    | nil => simp
    | cons item items ih =>
      obtain ⟨label, more, rfl, hlabel, hitem, hmore⟩ := h.exists_cons
      have hsolid := hlabel.isSolid_labelled hitem
      refine List.forall_mem_cons.2 ⟨⟨?_, hsolid⟩, ih hmore⟩
      exact fun he => hsolid.ne_nil (by rw [he]; rfl)
  obtain ⟨item, items, rfl⟩ := List.exists_cons_of_ne_nil hne
  obtain ⟨label, more, rfl, -, -, -⟩ := h.exists_cons
  rw [listed, ← unlines_flatten fun group hgroup => (hgroups group hgroup).1]
  refine isSolid_unlines (List.cons_ne_nil _ _) fun line hline => ?_
  obtain ⟨group, hgroup, rfl⟩ := List.mem_map.1 hline
  exact (hgroups group hgroup).2

theorem describe_enumerated {items : List (List Text)} (hne : items ≠ [])
    (h : IsList s bracket width start (s.labels bracket start items.length) items) (n : Nat) :
    describe [.enumerated n s bracket start (paragraphs n items)] =
      unlines (listed (s.labels bracket start items.length) items) := by
  have hcount : (paragraphs n items).length = items.length := by
    clear h hne
    induction items generalizing n with
    | nil => rfl
    | cons item items ih => rw [paragraphs, List.length_cons, ih, List.length_cons]
  have hchunks : (chunksOfAll [] [.enumerated n s bracket start (paragraphs n items)]).1 =
      listChunks n (s.labels bracket start items.length) items := by
    rw [chunksOfAll, chunks, hcount, chunksOfItems_paragraphs h, chunksOfAll, List.append_nil]
  have hstrip := (isSolid_listed hne h).stripWhere_newline (List.forall_mem_nil _)
  rw [List.append_nil] at hstrip
  rw [describe, hchunks, Chunk.description, join_listChunks h, hstrip]

/-- An enumerated list of paragraphs declares nothing. -/
theorem declareItems_paragraphs (d : Declarations) (labels : List Text) (n : Nat)
    (items : List (List Text)) : declareItems d labels (paragraphs n items) = .ok d := by
  induction items generalizing n labels with
  | nil => rfl
  | cons item items ih =>
    cases labels with
    | nil => rfl
    | cons label labels => exact ih labels (n + item.length)

theorem description_enumerated {items : List (List Text)} (hne : items ≠ [])
    (h : IsList s bracket width start (s.labels bracket start items.length) items) (n : Nat) :
    (Doc.ofBlocks [.enumerated n s bracket start (paragraphs n items)]).map Doc.description =
      .ok (unlines (listed (s.labels bracket start items.length) items)) := by
  have hdeclared : declareAll .empty [.enumerated n s bracket start (paragraphs n items)] =
      .ok .empty := by
    rw [declareAll, declare, declareItems_paragraphs]
    rfl
  rw [Doc.ofBlocks, hdeclared, describe_enumerated hne h]
  rfl

/-! ## Written and read -/

theorem parse_of_isList (roles : List Text) {labels : List Text} {items : List (List Text)}
    (hne : items ≠ []) (h : IsList s bracket width start labels items) {numeral : Text}
    (hnumeral : s.numeral? start = some numeral) {offset : Nat}
    (hclass : Marker.firstItem? ⟨bracket, numeral, offset⟩ = some (s, start)) :
    parse roles (unlines (listed labels items)) =
      .ok [.enumerated 0 s bracket start (paragraphs 0 items)] := by
  obtain ⟨item, items, rfl⟩ := List.exists_cons_of_ne_nil hne
  obtain ⟨label, labels, rfl, hlabel, hitem, -⟩ := h.exists_cons
  obtain ⟨first, more, rfl⟩ := List.exists_cons_of_ne_nil hitem.ne_nil
  have hlines : Line.ofText (unlines (listed (label :: labels) ((first :: more) :: items))) =
      ⟨0, label ++ first⟩ :: Line.numbered 1 (pad width more ++ listed labels items) := by
    rw [Line.ofText_eq_numbered, h.trimmedLines, listed_cons, labelled, hlabel.length]
    rfl
  have hblank := (hlabel.atMargin 0 first).1
  rw [parse, hlines, ofLines_eq, Frame.cut, if_neg (Bool.eq_false_iff.1 hblank),
    Frame.first_listed h hnumeral hclass 0, Frame.cut, List.append_nil, List.mapM_cons,
    Frame.toBlock, mapM_bodies roles h.prose]
  rfl

/-- A written list is read as that list, and shown as it was written. -/
theorem parse_listed (roles : List Text) {s : Sequence} {bracket : Bracket} {start : Nat}
    {items : List (List Text)} (hne : items ≠ []) (hprose : ∀ item ∈ items, IsProseLines item)
    (hnumerals : ∀ n ∈ List.range' start items.length,
      (s.numeral? n).isSome ∧ n < UInt64.size - 1)
    {numeral : Text} (hnumeral : s.numeral? start = some numeral) {offset : Nat}
    (hclass : Marker.firstItem? ⟨bracket, numeral, offset⟩ = some (s, start)) :
    let text := unlines (listed (s.labels bracket start items.length) items)
    parse roles text = .ok [.enumerated 0 s bracket start (paragraphs 0 items)] ∧
      ((parse roles text).bind Doc.ofBlocks).map Doc.description = .ok text := by
  have hbound : start + items.length < UInt64.size := by
    have hlength := List.length_pos_iff.2 hne
    have hlast := (hnumerals (start + items.length - 1) (List.mem_range'_1.2 (by omega))).2
    omega
  obtain ⟨width, hlabels⟩ :=
    Sequence.isLabel_labels bracket hbound fun n hn => (hnumerals n hn).1
  have hlist : IsList s bracket width start (s.labels bracket start items.length) items :=
    ⟨hlabels, hprose, hbound⟩
  have hparse := parse_of_isList roles hne hlist hnumeral hclass
  refine ⟨hparse, ?_⟩
  rw [hparse]
  exact description_enumerated hne hlist 0

/-- The label `(iv)` is narrower than the one before it, and the line below the first item
stands where the text of both starts. -/
theorem parse_listed_roman :
    let text := "(iii) Reads,\n      then checks\n(iv)  Writes".toList
    (∀ item ∈ [["Reads,".toList, "then checks".toList], ["Writes".toList]], IsProseLines item) ∧
      (∀ n ∈ List.range' 3 2, (Sequence.lowerRoman.numeral? n).isSome ∧ n < UInt64.size - 1) ∧
      Marker.firstItem? ⟨.parens, "iii".toList, 6⟩ = some (.lowerRoman, 3) ∧
      parse Role.usual text = .ok [.enumerated 0 .lowerRoman .parens 3
        [[.paragraph 0 [.text "Reads,\nthen checks".toList]],
          [.paragraph 2 [.text "Writes".toList]]]] ∧
      ((parse Role.usual text).bind Doc.ofBlocks).map Doc.description = .ok text := by
  have hprose : ∀ item ∈ [["Reads,".toList, "then checks".toList], ["Writes".toList]],
      IsProseLines item := by
    simp only [List.forall_mem_cons, List.not_mem_nil, false_imp_iff, implies_true, and_true]
    refine ⟨⟨by decide, ?_⟩, ⟨by decide, ?_⟩⟩ <;> decide +kernel
  have hnumerals : ∀ n ∈ List.range' 3 2,
      (Sequence.lowerRoman.numeral? n).isSome ∧ n < UInt64.size - 1 := by decide
  have hclass : Marker.firstItem? ⟨.parens, "iii".toList, 6⟩ = some (.lowerRoman, 3) := by decide
  have htext : unlines (listed (Sequence.lowerRoman.labels .parens 3 2)
      [["Reads,".toList, "then checks".toList], ["Writes".toList]]) =
      "(iii) Reads,\n      then checks\n(iv)  Writes".toList := by decide
  have hnumeral : Sequence.lowerRoman.numeral? 3 = some "iii".toList := by decide
  have hparse := parse_listed Role.usual (List.cons_ne_nil _ _) hprose hnumerals hnumeral hclass
  dsimp only [List.length_cons, List.length_nil] at hparse
  rw [htext] at hparse
  exact ⟨hprose, hnumerals, hclass, hparse⟩

end Block

end CallDoc
