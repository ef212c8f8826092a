import CallDoc.Proofs.Markup.Content
import CallDoc.Proofs.Markup.Extent

/-!
Documents that keep their line breaks. A line break is lost where it is escaped, inside
interpreted text, in a directive, or with the colons that announce literal text; so none is lost
in a document without backslashes, backquotes and double colons.
-/
namespace CallDoc

open Text

/-- Nothing in the text takes a line break away. -/
structure Text.KeepsBreaks (t : Text) : Prop where
  backslash : '\\' ∉ t
  backquote : '\x60' ∉ t
  colons : ¬ "::".toList <:+: t

theorem Text.KeepsBreaks.mono {s t : Text} (h : KeepsBreaks t) (hs : s <:+: t) :
    KeepsBreaks s :=
  ⟨fun hc => h.backslash (hs.subset hc), fun hc => h.backquote (hs.subset hc),
    fun hc => h.colons (hc.trans hs)⟩

namespace Line

/-- Source lines in which nothing takes a line break away. -/
structure KeepsBreaks (lines : List Line) : Prop where
  source : IsSource lines
  texts : ∀ line ∈ lines, line.text.KeepsBreaks

variable {lines parts : List Line}

theorem KeepsBreaks.mono (h : KeepsBreaks lines) (hparts : parts <:+: lines) :
    KeepsBreaks parts :=
  ⟨h.source.mono hparts, fun line hline => h.texts line (hparts.subset hline)⟩

theorem KeepsBreaks.within (h : KeepsBreaks lines) (hparts : Within parts lines) :
    KeepsBreaks parts := by
  refine ⟨h.source.within hparts, fun part hpart => ?_⟩
  obtain ⟨line, hline, hpart⟩ := hparts.exists_partOf hpart
  exact (h.texts line hline).mono hpart.text

theorem keepsBreaks_ofText {t : Text} (h : t.KeepsBreaks) : KeepsBreaks (ofText t) := by
  refine ⟨isSource_ofText t, fun line hline => ?_⟩
  obtain ⟨i, hi, rfl⟩ := List.mem_mapIdx.1 hline
  exact h.mono (infix_of_mem_trimmedLines (List.getElem_mem hi))

end Line

/-! ## Inline markup -/

namespace Inline

variable {roles : List Text} {previous? : Option Char} {t : Text}

/-- Between stars every line break is kept. -/
theorem count_newline_findAfter (hbackslash : '\\' ∉ t) (hbackquote : '\x60' ∉ t) {found : Found}
    (h : findAfter roles previous? t = .ok (some found)) :
    (found.span.content ++ found.rest).count '\n' = t.count '\n' := by
  have henclosed {mark inner content rest : Text} (hinner : '\\' ∉ inner)
      (hmark : mark.count '\n' = 0) (hclose : enclosed? mark inner = some (content, rest)) :
      (unescape content ++ rest).count '\n' = inner.count '\n' := by
    rw [enclosed?_eq hclose, List.mem_append, List.mem_append, not_or, not_or] at hinner
    rw [enclosed?_eq hclose, unescape_eq_self hinner.1.1]
    simp only [List.count_append, hmark, Nat.add_zero]
  unfold findAfter at h
  split at h
  · unfold find at h
    split at h
    · rename_i inner hinner
      rw [after?_eq_some_iff.1 hinner] at hbackquote
      exact absurd List.mem_cons_self hbackquote
    · split at h
      · rename_i inner hinner
        obtain ⟨⟨content, rest⟩, hclose, rfl⟩ := Option.map_eq_some_iff.1 (Except.ok.inj h)
        rw [after?_eq_some_iff.1 hinner] at hbackslash ⊢
        have hcount : ("**".toList ++ inner).count '\n' = inner.count '\n' := by
          rw [List.count_append, show "**".toList.count '\n' = 0 from rfl, Nat.zero_add]
        rw [hcount]
        exact henclosed (fun hc => hbackslash (List.mem_append_right _ hc)) rfl hclose
      · split at h
        · rename_i inner _
          obtain ⟨⟨content, rest⟩, hclose, rfl⟩ := Option.map_eq_some_iff.1 (Except.ok.inj h)
          rw [List.count_cons_of_ne (by decide)]
          exact henclosed (fun hc => hbackslash (.tail _ hc)) rfl hclose
        · exact absurd List.mem_cons_self hbackquote
        · rw [role_of_not_mem fun hc => hbackquote (.tail _ hc)] at h
          cases h
        · cases h
  · cases h

/-- Text without escapes and interpreted text is shown with all its line breaks. -/
theorem count_newline_scan (hbackslash : '\\' ∉ t) (hbackquote : '\x60' ∉ t)
    {spans : List Span} (h : scan roles previous? t = .ok spans) :
    (Span.shownAll spans).count '\n' = t.count '\n' := by
  rw [Span.count_newline_shownAll]
  fun_induction scan roles previous? t generalizing spans with
  | case1 =>
    obtain rfl := Except.ok.inj h
    rfl
  | case2 | case3 | case4 => exact absurd List.mem_cons_self hbackslash
  | case5 previous? c t hescape e he => cases h
  | case6 previous? c t hescape found he ih =>
    obtain ⟨more, hmore, rfl⟩ := map_eq_ok_iff.1 h
    have hrest : found.rest ⊆ c :: t := fun d hd =>
      (sublist_findAfter he).subset (List.mem_append_right _ hd)
    have hcount := ih (fun hc => hbackslash (hrest hc)) (fun hc => hbackquote (hrest hc)) hmore
    rw [Span.contentOf_cons, ← count_newline_findAfter hbackslash hbackquote he, List.count_append,
      List.count_append, hcount]
  | case7 previous? c t hescape hnone hreference ih =>
    simp only [Bool.and_eq_true, decide_eq_true_eq] at hreference
    rw [hreference.1, List.count_cons_of_ne (by decide)]
    exact ih (fun hc => hbackslash (.tail _ hc)) (fun hc => hbackquote (.tail _ hc)) h
  | case8 previous? c t hescape hnone hreference ih =>
    obtain ⟨more, hmore, rfl⟩ := map_eq_ok_iff.1 h
    rw [Span.contentOf_consText, List.singleton_append, List.count_cons, List.count_cons,
      ih (fun hc => hbackslash (.tail _ hc)) (fun hc => hbackquote (.tail _ hc)) hmore]

end Inline

/-! ## Frames -/

namespace Frame

/-- The text of a frame has all the line breaks between its lines, and keeps them. -/
def Keeps : Frame → Nat → Prop
  | paragraph line text, last =>
    line + text.count '\n' = last ∧ '\\' ∉ text ∧ '\x60' ∉ text
  | doctest line text, last => line + text.count '\n' = last
  | literal .., _ | rubric .., _ | admonition .., _ => False
  | bullets .., _ | enumerated .., _ | quote .., _ | field .., _ | comment .., _ => True

theorem colons_of_directive? {t name argument : Text} (h : directive? t = some (name, argument)) :
    "::".toList <:+: t := by
  obtain ⟨after, rfl, -⟩ := directive?_eq h
  exact (List.prefix_append _ after).isInfix.trans (List.suffix_append name _).isInfix

/-- The colons at the end of a paragraph would stand in one of its lines. -/
theorem announcesLiteral_of_keepsBreaks {texts : List Text} (h : ∀ t ∈ texts, t.KeepsBreaks) :
    announcesLiteral (unlines texts) = (unlines texts, false) := by
  have hcolons : "::".toList ≠ [] ∧ '\n' ∉ "::".toList := by decide
  unfold announcesLiteral
  split
  · rfl
  · rename_i lead hlead
    have hsuffix : "::".toList <:+: unlines texts :=
      ⟨lead, [], by rw [List.append_nil, before?_eq_some_iff.1 hlead]⟩
    obtain ⟨t, ht, hin⟩ := exists_infix_of_unlines hcolons.1 hcolons.2 hsuffix
    exact absurd hin (h t ht).colons

theorem Opens.keeps {line : Line} {below rest : List Line} {frame : Frame}
    (h : Opens line below rest frame) (hlines : Line.KeepsBreaks (line :: below)) :
    frame.Keeps (lastLine line below rest frame) := by
  have hrun : Line.KeepsBreaks (run line below) :=
    hlines.mono (List.cons_prefix_cons.2 ⟨rfl, List.takeWhile_prefix _⟩).isInfix
  have htrimmed : ∀ t ∈ (run line below).map (fun line => trim line.text), t.KeepsBreaks :=
    List.forall_mem_map.2 fun l hl => (hrun.texts l hl).mono (infix_trim l.text)
  have hprose : announcesLiteral (prose line below) = (prose line below, false) :=
    announcesLiteral_of_keepsBreaks htrimmed
  have hdirective {name argument : Text}
      (h : directive? (trimStart (line.text.drop 2)) = some (name, argument)) : False :=
    (hlines.texts line List.mem_cons_self).colons
      (((colons_of_directive? h).trans (List.dropWhile_suffix _).isInfix).trans
        (List.drop_suffix 2 _).isInfix)
  cases h with
  | rubric h | code h | titled h | admonition h => exact (hdirective h).elim
  | doctest => exact hrun.source.count_newline fun l => List.infix_refl l.text
  | paragraph =>
    rw [hprose]
    exact ⟨hrun.source.count_newline fun l => infix_trim l.text,
      not_mem_unlines (by decide) fun t ht => (htrimmed t ht).backslash,
      not_mem_unlines (by decide) fun t ht => (htrimmed t ht).backquote⟩
  | literal h =>
    rw [hprose] at h
    cases h
  | quote | unknown | comment | field | bullets | enumerated => trivial

theorem keeps_cutEnds {lines : List Line} (h : Line.KeepsBreaks lines) :
    ∀ pair ∈ cutEnds lines, pair.1.Keeps pair.2 := by
  intro pair hpair
  obtain ⟨line, below, rest, hsuffix, hopens, hlast⟩ := exists_opens_of_mem_cutEnds hpair
  rw [hlast]
  exact hopens.keeps (h.mono hsuffix.isInfix)

end Frame

end CallDoc
