import CallDoc.Proofs.Markup.Source
import CallDoc.Proofs.Markup.Tree

/-!
The lines of the document that each piece of prose stands on, from the line of its block to the
last line that the block was cut from. The block tree keeps only the first of them.
-/
namespace CallDoc

open Text

namespace Line

/-- The number of the last of some lines. -/
def lastNumber (line : Line) (below : List Line) : Nat := (below.getLast?.getD line).number

theorem lastNumber_append (line : Line) (above : List Line) (next : Line) (below : List Line) :
    lastNumber line (above ++ next :: below) = lastNumber next below := by
  rw [lastNumber, lastNumber, List.getLast?_append, List.getLast?_cons]
  rfl

theorem IsSource.lastNumber_eq {line : Line} {below : List Line} (h : IsSource (line :: below)) :
    lastNumber line below = line.number + below.length := by
  induction below generalizing line with
  | nil => rfl
  | cons next below ih =>
    have hnext : next.number = line.number + 1 := (List.isChain_cons_cons.1 h.numbered).1
    have hbelow := ih (h.mono (List.suffix_cons line _).isInfix)
    rw [← List.nil_append (next :: below), lastNumber_append, hbelow, hnext, List.nil_append,
      List.length_cons]
    omega

/-- A text made of some lines has a line break less than lines. -/
theorem IsSource.count_newline {line : Line} {below : List Line} (h : IsSource (line :: below))
    {f : Line → Text} (hf : ∀ l, f l <:+: l.text) :
    line.number + (unlines ((line :: below).map f)).count '\n' = lastNumber line below := by
  have hnewline : ∀ t ∈ (line :: below).map f, '\n' ∉ t :=
    List.forall_mem_map.2 fun l hl hc => h.newline l hl ((hf l).subset hc)
  have hcount := count_newline_unlines (by simp) hnewline
  rw [List.length_map, List.length_cons] at hcount
  rw [h.lastNumber_eq]
  omega

theorem IsSource.count_newline_le {lines : List Line} (h : IsSource lines) :
    (unlines (lines.map text)).count '\n' ≤ lines.length := by
  cases lines with
  | nil => exact Nat.zero_le _
  | cons line below =>
    have hcount := h.count_newline fun line => List.infix_refl line.text
    rw [h.lastNumber_eq] at hcount
    rw [List.length_cons]
    omega

end Line

/-- The lines that a piece of prose stands on. -/
structure Extent where
  first : Nat
  last : Nat
  deriving DecidableEq, Repr

namespace Frame

/-- The last line of a frame that starts at `line` or below it, where `rest` follows the lines it
was cut from. A paragraph ends with its own lines, also before literal text. -/
def lastLine (line : Line) (below rest : List Line) : Frame → Nat
  | paragraph .. | doctest .. => Line.lastNumber line (below.takeWhile fun line => !line.isBlank)
  | _ => Line.lastNumber line (below.take (below.length - rest.length))

/-- The frames that start at `line`, each with the number of its last line. -/
def firstEnds (line : Line) (below : List Line) : List (Frame × Nat) :=
  (first line below).1.map fun frame => (frame, lastLine line below (first line below).2 frame)

/-- The frames of a list of lines, each with the number of its last line. -/
def cutEnds : List Line → List (Frame × Nat)
  | [] => []
  | line :: below =>
    if line.isBlank then cutEnds below
    else firstEnds line below ++ cutEnds (first line below).2
termination_by lines => lines.length
decreasing_by
  · simp
  · exact Nat.lt_succ_of_le (first_sublist line below).length_le

/-- The extents of the prose in a frame, where `read` gives those in a body. The label of an
admonition stands on its line alone. -/
def extentsOf (read : List Line → List Extent) (last : Nat) : Frame → List Extent
  | paragraph line _ | literal line _ | doctest line _ | rubric line _ => [⟨line, last⟩]
  | admonition line _ body => ⟨line, line⟩ :: read body
  | quote _ body => read body
  | bullets _ _ items | enumerated _ _ _ _ items => items.flatMap read
  | field .. | comment .. => []

/-- The extents of the prose in a list of lines. -/
def extents (lines : List Line) : List Extent :=
  let weight := Line.weight lines
  (cutEnds lines).flatMap fun (frame, last) =>
    frame.extentsOf (fun body => if Line.weight body < weight then extents body else []) last
termination_by Line.weight lines

theorem map_fst_cutEnds (lines : List Line) : (cutEnds lines).map Prod.fst = cut lines := by
  fun_induction cutEnds lines with
  | case1 => rw [cut]; rfl
  | case2 line below hblank ih => rw [cut, if_pos hblank, ih]
  | case3 line below hblank ih =>
    rw [cut, if_neg hblank, List.map_append, ih, firstEnds, List.map_map]
    exact congrArg (· ++ _) (List.map_id _)

theorem mem_cut_of_mem_cutEnds {lines : List Line} {frame : Frame} {last : Nat}
    (h : (frame, last) ∈ cutEnds lines) : frame ∈ cut lines :=
  map_fst_cutEnds lines ▸ List.mem_map_of_mem (f := Prod.fst) h

theorem exists_opens_of_mem_cutEnds {lines : List Line} {pair : Frame × Nat}
    (h : pair ∈ cutEnds lines) : ∃ line below rest, line :: below <:+ lines ∧
      Opens line below rest pair.1 ∧ pair.2 = lastLine line below rest pair.1 := by
  fun_induction cutEnds lines with
  | case1 => cases h
  | case2 line below hblank ih =>
    obtain ⟨start, more, rest, hsuffix, hpair⟩ := ih h
    exact ⟨start, more, rest, hsuffix.trans (List.suffix_cons line below), hpair⟩
  | case3 line below hblank ih =>
    rcases List.mem_append.1 h with hfirst | hlater
    · obtain ⟨frame, hframe, rfl⟩ := List.mem_map.1 hfirst
      exact ⟨line, below, _, List.suffix_rfl, opens_first line below frame hframe, rfl⟩
    · obtain ⟨start, more, rest, hsuffix, hpair⟩ := ih hlater
      have hrest := (first_suffix line below).trans (List.suffix_cons line below)
      exact ⟨start, more, rest, hsuffix.trans hrest, hpair⟩

theorem extentsOf_congr {read other : List Line → List Extent} {frame : Frame} (last : Nat)
    (h : ∀ body ∈ frame.bodies, read body = other body) :
    frame.extentsOf read last = frame.extentsOf other last := by
  cases frame with
  | bullets line bullet items => exact List.flatMap_congr h
  | enumerated line sequence bracket start items => exact List.flatMap_congr h
  | quote line body => exact h body (List.mem_singleton_self body)
  | admonition line label body => exact congrArg _ (h body (List.mem_singleton_self body))
  | paragraph | literal | doctest | field | rubric | comment => rfl

theorem extents_eq (lines : List Line) : extents lines =
    (cutEnds lines).flatMap fun pair => pair.1.extentsOf extents pair.2 := by
  rw [extents]
  refine List.flatMap_congr fun pair hpair => extentsOf_congr _ fun body hbody => ?_
  exact if_pos (cut_weight lines _ (mem_cut_of_mem_cutEnds hpair) body hbody)

/-! ## Line breaks -/

/-- The text of a frame has no more line breaks than there are between its lines. -/
def Fits : Frame → Nat → Prop
  | paragraph line text, last | literal line text, last | doctest line text, last =>
    line + text.count '\n' ≤ last
  | rubric line title, last => line ≤ last ∧ '\n' ∉ title
  | admonition _ label _, _ => '\n' ∉ label
  | bullets _ bullet _, _ => '\n' ≠ bullet
  | enumerated .., _ | quote .., _ | field .., _ | comment .., _ => True

theorem count_newline_announcesLiteral (t : Text) :
    (announcesLiteral t).1.count '\n' ≤ t.count '\n' := by
  unfold announcesLiteral
  split
  · exact le_rfl
  · rename_i lead hlead
    have hcount : lead.count '\n' ≤ t.count '\n' := by
      rw [before?_eq_some_iff.1 hlead, List.count_append]
      exact Nat.le_add_right ..
    split
    · exact Nat.zero_le _
    · split
      · exact ((prefix_dropEndWhile _ lead).sublist.count_le '\n').trans hcount
      · rw [List.count_append]
        exact hcount

theorem take_of_append {content below rest : List Line} (h : content ++ rest = below) :
    below.take (below.length - rest.length) = content := by
  rw [← h, List.length_append, Nat.add_sub_cancel, List.take_left]

section Opens

variable {line : Line} {below rest : List Line} {frame : Frame}
  (hsource : Line.IsSource (line :: below))
include hsource

theorem isSource_hanging : Line.IsSource (line :: (Line.hanging below).1) :=
  hsource.mono (List.cons_prefix_cons.2 ⟨rfl, Line.prefix_hanging below⟩).isInfix

theorem isSource_run : Line.IsSource (run line below) :=
  hsource.mono (List.cons_prefix_cons.2 ⟨rfl, List.takeWhile_prefix _⟩).isInfix

/-- A frame that ends with the lines hanging below its first one ends that many lines later. -/
theorem add_le_lastNumber_hanging {n : Nat} (hn : n ≤ (Line.hanging below).1.length) :
    line.number + n ≤
      Line.lastNumber line (below.take (below.length - (Line.hanging below).2.length)) := by
  rw [take_of_append (Line.hanging_append_self below), (isSource_hanging hsource).lastNumber_eq]
  exact Nat.add_le_add_left hn _

theorem newline_not_mem_argument {name argument : Text}
    (h : directive? (trimStart (line.text.drop 2)) = some (name, argument)) : '\n' ∉ argument :=
  fun hmem => hsource.newline line List.mem_cons_self
    (List.mem_of_mem_drop ((List.dropWhile_suffix _).subset ((infix_directive? h).subset hmem)))

theorem fits_code : (literal line.number (code (Line.hanging below).1)).Fits
    (Line.lastNumber line (below.take (below.length - (Line.hanging below).2.length))) := by
  have hdedented : Line.IsSource (Line.dedent (Line.hanging below).1) :=
    (isSource_hanging hsource).within (Line.within_dedent (List.suffix_cons line _).isInfix)
  have hkept : _ <:+ Line.dedent (Line.hanging below).1 :=
    (List.dropWhile_suffix Line.isBlank).trans
      (List.dropWhile_suffix fun line => (fieldHeader? line.text).isSome)
  refine add_le_lastNumber_hanging hsource
    ((hdedented.mono hkept.isInfix).count_newline_le.trans ?_)
  exact hkept.length_le.trans_eq (List.length_map _)

theorem fits_paragraph :
    (paragraph line.number (announcesLiteral (prose line below)).1).Fits
      (Line.lastNumber line (below.takeWhile fun line => !line.isBlank)) := by
  refine (Nat.add_le_add_left (count_newline_announcesLiteral (prose line below)) _).trans ?_
  exact ((isSource_run hsource).count_newline fun l => infix_trim l.text).le

/-- Announced literal text starts at an indented line behind the blank ones. -/
theorem fits_announced {next : Line} {more : List Line}
    (hnext : (below.dropWhile fun line => !line.isBlank).dropWhile Line.isBlank = next :: more) :
    (literal next.number
      (unlines ((Line.dedent (next :: (Line.hanging more).1)).map Line.text))).Fits
      (Line.lastNumber line (below.take (below.length - (Line.hanging more).2.length))) := by
  obtain ⟨above, habove⟩ : next :: more <:+ below :=
    (hnext ▸ List.dropWhile_suffix _).trans (List.dropWhile_suffix _)
  have hrest : (above ++ next :: (Line.hanging more).1) ++ (Line.hanging more).2 = below := by
    rw [List.append_assoc, List.cons_append, Line.hanging_append_self, habove]
  have hverbatim : Line.IsSource (next :: (Line.hanging more).1) :=
    hsource.mono ⟨line :: above, (Line.hanging more).2, by rw [← hrest]; simp⟩
  have hcount := hverbatim.count_newline fun l =>
    Line.infix_trimEnd_drop (Line.margin (next :: (Line.hanging more).1)) l.text
  rw [take_of_append hrest, Line.lastNumber_append, ← hcount, Line.dedent, List.map_map]
  exact le_rfl

theorem Opens.fits (h : Opens line below rest frame) :
    frame.Fits (lastLine line below rest frame) := by
  cases h with
  | rubric h =>
    exact ⟨add_le_lastNumber_hanging hsource (Nat.zero_le _), newline_not_mem_argument hsource h⟩
  | code => exact fits_code hsource
  | titled h => exact newline_not_mem_argument hsource h
  | admonition h hlabel =>
    have hlabels : ∀ label ∈ "see also".toList :: admonitions, '\n' ∉ label := by decide
    exact hlabels _ (List.mem_cons.2 hlabel)
  | bullets h =>
    change '\n' ≠ _
    rcases bullet?_eq h with rfl | rfl | rfl <;> decide
  | doctest => exact ((isSource_run hsource).count_newline fun l => List.infix_refl l.text).le
  | paragraph => exact fits_paragraph hsource
  | literal h hnext => exact fits_announced hsource hnext
  | quote | unknown | comment | field | enumerated => trivial

end Opens

theorem fits_cutEnds {lines : List Line} (h : Line.IsSource lines) :
    ∀ pair ∈ cutEnds lines, pair.1.Fits pair.2 := by
  intro pair hpair
  obtain ⟨line, below, rest, hsuffix, hopens, hlast⟩ := exists_opens_of_mem_cutEnds hpair
  rw [hlast]
  exact hopens.fits (h.mono hsuffix.isInfix)

end Frame

end CallDoc
