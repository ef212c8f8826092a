import CallDoc.Proofs.Markup.Source
import CallDoc.Proofs.Markup.Tree
import CallDoc.Proofs.Numeral.Label

/-!
The items of enumerated lists and their numbers. A list keeps its first number and its items
alone. Since every item was accepted for the number that follows on the one before it, the numbers
from the first on all have numerals in the sequence of the list, however deep it stands.
-/
namespace CallDoc

open Text

namespace Marker

open Sequence

theorem isSome_numeral?_of_firstItem? {m : Marker} {s : Sequence} {start : Nat}
    (h : m.firstItem? = some (s, start)) : (s.numeral? start).isSome = true := by
  unfold firstItem? at h
  split at h
  · obtain ⟨rfl, -⟩ := Prod.mk.inj (Option.some.inj h)
    rfl
  · obtain ⟨candidate, -, hordinal⟩ := List.exists_of_findSome?_eq_some h
    obtain ⟨n, hn, he⟩ := Option.map_eq_some_iff.1 hordinal
    obtain ⟨rfl, rfl⟩ := Prod.mk.inj he
    exact isSome_numeral?_of_ordinal? hn

theorem isSome_numeral?_of_continues {m first : Marker} {s : Sequence} {start n : Nat}
    (hfirst : first.firstItem? = some (s, start)) (h : m.continues first s n = true) :
    (s.numeral? n).isSome = true := by
  rw [continues, Bool.and_eq_true] at h
  obtain ⟨-, h⟩ := h
  cases hauto : first.isAuto with
  | true =>
    rw [firstItem?, hauto] at hfirst
    obtain ⟨rfl, -⟩ := Prod.mk.inj (Option.some.inj hfirst)
    rfl
  | false =>
    rw [hauto] at h
    have hnext : m.continuing? s = some n := by simpa using h
    unfold continuing? at hnext
    split at hnext
    · cases hnext
    · exact isSome_numeral?_of_ordinal? hnext

end Marker

namespace Frame

/-- A list has items, and unless their numbers start over all of them have numerals of their own
sequence. -/
def Counted : Frame → Prop
  | enumerated _ s _ start items =>
    items ≠ [] ∧ (start + items.length < UInt64.size →
      ∀ n ∈ List.range' start items.length, (s.numeral? n).isSome = true)
  | _ => True

theorem items_ne_nil (next? : Nat → Text → Option Nat) (count offset : Nat) (line : Line)
    (below : List Line) : (items next? count offset line below).1 ≠ [] := by
  rw [items_eq]
  dsimp only
  split
  · exact List.cons_ne_nil _ _
  · split <;> exact List.cons_ne_nil _ _

/-- Every item but the first begins with a line that is taken for the next of the list. -/
theorem exists_next_of_items (next? : Nat → Text → Option Nat) (count offset : Nat) (line : Line)
    (below : List Line) {n : Nat} (hlow : count ≤ n)
    (hhigh : n + 1 < count + (items next? count offset line below).1.length) :
    ∃ text, (next? n text).isSome = true := by
  fun_induction items next? count offset line below with
  | case1 | case2 =>
    rw [List.length_singleton] at hhigh
    omega
  | case3 count offset line below item next more hnext offset' hplace others ih =>
    rcases Nat.eq_or_lt_of_le hlow with rfl | hlater
    · exact ⟨next.text, by rw [hplace]; rfl⟩
    · have hothers : others.1.length = (items next? (count + 1) offset' next more).1.length := rfl
      rw [List.length_cons] at hhigh
      exact ih hlater (by omega)

theorem firstItem?_of_enumerator? {text : Text} {below : List Line} {m : Marker} {s : Sequence}
    {start : Nat} (h : enumerator? text below = some (m, s, start)) :
    m.firstItem? = some (s, start) := by
  unfold enumerator? at h
  split at h
  · cases h
  · split at h
    · cases h
    · rename_i hfirst
      split at h
      · obtain ⟨rfl, hrest⟩ := Prod.mk.inj (Option.some.inj h)
        rw [hfirst, hrest]
      · cases h

theorem counted_enumerated {text : Text} {line : Line} {below : List Line} {m : Marker}
    {s : Sequence} {start : Nat} (h : enumerator? text below = some (m, s, start)) :
    Counted (.enumerated line.number s m.bracket start
      (items (nextNumber? m s start) 1 m.textOffset line below).1) := by
  have hfirst := firstItem?_of_enumerator? h
  refine ⟨items_ne_nil _ _ _ _ _, fun hbound n hn => ?_⟩
  obtain ⟨hlow, hhigh⟩ := List.mem_range'_1.1 hn
  rcases Nat.eq_or_lt_of_le hlow with rfl | hlater
  · exact Marker.isSome_numeral?_of_firstItem? hfirst
  · obtain ⟨k, rfl⟩ := Nat.exists_eq_add_of_lt hlater
    obtain ⟨text, hnext⟩ := exists_next_of_items (nextNumber? m s start) 1 m.textOffset line below
      (Nat.le_add_left 1 k) (by omega)
    have hafter : numberAfter start (k + 1) = start + k + 1 := numberAfter_eq (by omega)
    rw [nextNumber?, hafter, Option.isSome_map, Option.isSome_iff_exists] at hnext
    obtain ⟨next, hnext⟩ := hnext
    exact Marker.isSome_numeral?_of_continues hfirst (Option.filter_eq_some_iff.1 hnext).2

theorem Opens.counted {line : Line} {below rest : List Line} {frame : Frame}
    (h : Opens line below rest frame) : frame.Counted := by
  cases h with
  | enumerated h => exact counted_enumerated h
  | _ => trivial

theorem counted_cut (lines : List Line) : ∀ frame ∈ cut lines, frame.Counted := by
  intro frame hframe
  obtain ⟨line, below, rest, -, hopens⟩ := exists_opens_of_mem_cut hframe
  exact hopens.counted

end Frame

namespace Block

open Sequence

theorem counted_of_occurs {roles : List Text} {lines : List Line} {blocks : List Block}
    (h : ofLines roles lines = .ok blocks) {line start : Nat} {s : Sequence} {bracket : Bracket}
    {items : List (List Block)} (hlist : Occurs (.enumerated line s bracket start items) blocks) :
    items ≠ [] ∧ (start + items.length < UInt64.size →
      ∀ n ∈ List.range' start items.length, (s.numeral? n).isSome = true) := by
  obtain ⟨lines, frame, hframe, hread⟩ := exists_frame_of_occurs h hlist
  have hcounted := Frame.counted_cut lines frame hframe
  cases frame with
  | enumerated =>
    obtain ⟨inner, hinner, he⟩ := map_eq_ok_iff.1 hread
    cases he
    have hlength := (mapM_eq_ok_iff.1 hinner).length_eq
    obtain ⟨hne, hnumerals⟩ := hcounted
    rw [hlength] at hnumerals
    refine ⟨?_, hnumerals⟩
    rw [← List.length_pos_iff, ← hlength]
    exact List.length_pos_iff.2 hne
  | literal | doctest | comment => cases hread
  | _ =>
    obtain ⟨inner, -, he⟩ := map_eq_ok_iff.1 hread
    cases he

/-- Every list has items. Where their numbers stay below the largest, the labels that are written
for the list anew are those of its own sequence. They are as wide as each other, and the marker of
a line that starts with one has the ordinal of its item, with the text of the item behind the
label. -/
theorem labels_of_parse {roles : List Text} {t : Text} {blocks : List Block}
    (h : parse roles t = .ok blocks) {line start : Nat} {s : Sequence} {bracket : Bracket}
    {items : List (List Block)} (hlist : Occurs (.enumerated line s bracket start items) blocks) :
    items ≠ [] ∧
      ((∀ n ∈ List.range' start items.length, n < UInt64.size - 1) →
        (s.enumerators start items.length).map some =
          (List.range' start items.length).map s.numeral? ∧
        ∃ width, List.Forall₂ (fun n label => label.length = width ∧
            ∀ word, IsSolid word → ∃ m,
              Marker.ofLine? (label ++ word) = some m ∧ m.bracket = bracket ∧
                s.ordinal? m.token = some n ∧ m.textOffset = width)
          (List.range' start items.length) (s.labels bracket start items.length)) := by
  obtain ⟨hne, hnumerals⟩ := counted_of_occurs h hlist
  refine ⟨hne, fun hbelow => ?_⟩
  have hpos := List.length_pos_iff.2 hne
  have hlast : start + (items.length - 1) < UInt64.size - 1 :=
    hbelow _ (List.mem_range'_1.2 (by omega))
  have hbound : start + items.length < UInt64.size := by omega
  obtain ⟨width, hlabels⟩ := Sequence.isLabel_labels bracket hbound (hnumerals hbound)
  refine ⟨?_, width, ?_⟩
  · rw [s.enumerators_eq hbound, List.map_map]
    refine List.map_congr_left fun n hn => ?_
    obtain ⟨numeral, hnumeral⟩ := Option.isSome_iff_exists.1 (hnumerals hbound n hn)
    rw [Function.comp_apply, hnumeral, Option.getD_some]
  · refine (((List.forall₂_and_left _ _).2 ⟨hbelow, hlabels⟩).imp ?_)
    rintro n label ⟨hn, hlabel⟩
    refine ⟨hlabel.length, fun word hword => ?_⟩
    obtain ⟨numeral, hnumeral, hmarker⟩ := hlabel.ofLine?_append hword
    exact ⟨_, hmarker, rfl, Sequence.ordinal?_numeral (by omega) hnumeral, rfl⟩

/-- The sequence, the brackets, the first number and the items of an enumerated list. -/
def enumeration? : Block → Option (Sequence × Bracket × Nat × List (List Block))
  | enumerated _ s bracket start items => some (s, bracket, start, items)
  | _ => none

theorem enumeration?_eq_some_iff {block : Block} {s : Sequence} {bracket : Bracket} {start : Nat}
    {items : List (List Block)} : block.enumeration? = some (s, bracket, start, items) ↔
      ∃ line, block = .enumerated line s bracket start items := by
  cases block <;> simp [enumeration?]

/-- A list in Roman numerals, in an item of a list that leaves the counting to the reader. -/
theorem labels_of_parse_nested :
    ∃ blocks line items,
      (parse [] "#. one\n#. two\n\n   (iii) in\n   (iv)  two".toList = .ok blocks ∧
        Occurs (.enumerated line .lowerRoman .parens 3 items) blocks) ∧
      items.length = 2 ∧
      Sequence.lowerRoman.labels .parens 3 2 = ["(iii) ".toList, "(iv)  ".toList] ∧
      ∃ m, Marker.ofLine? "(iv)  three".toList = some m ∧ m.bracket = .parens ∧
        Sequence.lowerRoman.ordinal? m.token = some 4 ∧ m.textOffset = 6 := by
  have hread : (parse [] "#. one\n#. two\n\n   (iii) in\n   (iv)  two".toList).map (fun blocks =>
      ((blocks.flatMap bodies).flatten.filterMap enumeration?).map fun list =>
        (list.1, list.2.1, list.2.2.1, list.2.2.2.length)) =
      .ok [(.lowerRoman, .parens, 3, 2)] := by decide +kernel
  have hwritten : Sequence.lowerRoman.labels .parens 3 2 =
      ["(iii) ".toList, "(iv)  ".toList] := by decide +kernel
  have hword : IsSolid "three".toList :=
    ⟨⟨_, _, rfl, by decide⟩, "thre".toList, 'e', by decide, by decide⟩
  obtain ⟨blocks, hparse, hlists⟩ := map_eq_ok_iff.1 hread
  obtain ⟨⟨s, bracket, start, items⟩, hlists, hlist⟩ := List.map_eq_singleton_iff.1 hlists
  simp only [Prod.mk.injEq] at hlist
  obtain ⟨rfl, rfl, rfl, hlength⟩ := hlist
  have hmem := hlists ▸ List.mem_singleton_self _
  obtain ⟨block, hblock, hlist⟩ := List.mem_filterMap.1 hmem
  obtain ⟨line, rfl⟩ := enumeration?_eq_some_iff.1 hlist
  obtain ⟨body, hbody, hblock⟩ := List.mem_flatten.1 hblock
  obtain ⟨outer, houter, hbody⟩ := List.mem_flatMap.1 hbody
  have hoccurs := Occurs.inside houter hbody (.here hblock)
  obtain ⟨-, hcounted⟩ := labels_of_parse hparse hoccurs
  rw [hlength] at hcounted
  obtain ⟨-, width, hlabels⟩ := hcounted (by decide)
  rw [hwritten] at hlabels
  rcases hlabels with _ | ⟨-, _ | ⟨⟨hwidth, hmarker⟩, -⟩⟩
  obtain ⟨m, hline, hrest⟩ := hmarker _ hword
  rw [← hwidth] at hrest
  exact ⟨blocks, line, items, ⟨hparse, hoccurs⟩, hlength, hwritten, m, hline, hrest⟩

end Block
end CallDoc
