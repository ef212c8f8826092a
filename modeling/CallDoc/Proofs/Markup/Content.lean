import CallDoc.Proofs.Markup.Shown

/-!
What spans hold is what the scanner left of the text, in its order. It leaves out marks, escapes
and the blanks around the parts of a hyperlink, and it adds nothing; what is added when a span
is shown are display marks and the parentheses around a target.
-/
namespace CallDoc

open Text

namespace Span

/-- What a span holds of the text that it was read from. -/
def content : Span → Text
  | text content | emphasis content | strong content | reference content | literal content =>
    content
  | hyperlink content uri => content ++ uri

def contentOf (spans : List Span) : Text := spans.flatMap content

variable {spans : List Span}

@[simp] theorem contentOf_nil : contentOf [] = [] := rfl

theorem contentOf_consText (t : Text) (spans : List Span) :
    contentOf (consText t spans) = t ++ contentOf spans := by
  unfold consText
  split
  · simp [contentOf, content]
  · split <;> simp_all [contentOf, content]

theorem contentOf_cons (span : Span) (spans : List Span) :
    contentOf (span.cons spans) = span.content ++ contentOf spans := by
  unfold cons
  split
  · exact contentOf_consText _ spans
  · rfl

/-- What is shown around the content has no newline. -/
theorem count_newline_shown (span : Span) :
    span.shown.count '\n' = span.content.count '\n' := by
  have hmarks : Display.italic.count '\n' = 0 ∧ Display.bold.count '\n' = 0 ∧
      Display.underline.count '\n' = 0 ∧ Display.reset.count '\n' = 0 ∧
      " (".toList.count '\n' = 0 ∧ [')'].count '\n' = 0 := by decide
  obtain ⟨hitalic, hbold, hunderline, hreset, hopen, hclose⟩ := hmarks
  cases span <;> simp only [shown, content, List.count_append] <;> omega

theorem count_newline_shownAll (spans : List Span) :
    (shownAll spans).count '\n' = (contentOf spans).count '\n' := by
  induction spans with
  | nil => rfl
  | cons span spans ih =>
    change (span.shown ++ shownAll spans).count '\n' = (span.content ++ contentOf spans).count '\n'
    rw [List.count_append, List.count_append, ih, count_newline_shown]

end Span

namespace Inline

variable {roles : List Text} {previous? : Option Char} {t : Text}

theorem sublist_unescape (t : Text) : (unescape t).Sublist t := by
  fun_induction unescape t with
  | case1 => exact List.Sublist.refl _
  | case2 => exact List.nil_sublist _
  | case3 c t ih => exact (ih.cons_cons c).cons _
  | case4 c t hnone hescape ih => exact ih.cons_cons c

theorem sublist_referenceSpan (t : Text) : (referenceSpan t).content.Sublist t := by
  unfold referenceSpan
  split
  · rename_i label uri hsplit
    obtain ⟨lead, hlead, hlast⟩ := Option.bind_eq_some_iff.1 hsplit
    have htrimmed : trimEnd t = label ++ '<' :: uri ++ ['>'] := by
      rw [before?_eq_some_iff.1 hlead, splitLast?_eq hlast]
    have hparts : (trim label ++ trim uri).Sublist (trimEnd t) := by
      rw [htrimmed, List.append_assoc]
      exact (infix_trim label).sublist.append (((infix_trim uri).sublist.trans
        (List.sublist_append_left uri ['>'])).cons '<')
    have hwhole := hparts.trans (dropEndWhile_sublist isBlank t)
    split
    · exact (List.sublist_append_right (trim label) (trim uri)).trans hwhole
    · exact hwhole
  · exact List.Sublist.refl _

theorem sublist_interpreted? {found : Found} (h : interpreted? t = some found) :
    (found.span.content ++ found.rest).Sublist t := by
  cases t with
  | nil => cases h
  | cons c inner =>
    simp only [interpreted?] at h
    split at h
    · cases h
    · obtain ⟨⟨content, count, rest⟩, hclose, rfl⟩ := Option.map_eq_some_iff.1 h
      obtain ⟨marks, rfl, -⟩ := closeInterpreted?_eq hclose
      rw [List.append_assoc, ← List.cons_append]
      have hrest : rest.Sublist ('\x60' :: marks ++ rest) := List.sublist_append_right ..
      dsimp only
      split
      · exact (List.Sublist.refl (c :: content)).append hrest
      · exact (sublist_referenceSpan (c :: content)).append hrest

theorem content_roleSpan {name content : Text} {span : Span}
    (h : roleSpan roles name content = .ok span) : span.content = content := by
  unfold roleSpan at h
  split at h
  · rename_i make hmake
    obtain rfl := Except.ok.inj h
    unfold Role.standard? at hmake
    split_ifs at hmake <;> obtain rfl := Option.some.inj hmake <;> rfl
  · split at h
    · obtain rfl := Except.ok.inj h
      rfl
    · cases h

theorem sublist_role {found : Found} (h : role roles t = .ok (some found)) :
    (found.span.content ++ found.rest).Sublist t := by
  unfold role at h
  split at h
  · cases h
  · rename_i name inner hname
    split at h
    · cases h
    · rename_i content rest hcontent
      obtain ⟨span, hspan, he⟩ := map_eq_ok_iff.1 h
      obtain rfl := Option.some.inj he
      rw [content_roleSpan hspan, (roleName?_eq hname).1, roleContent?_eq hcontent]
      have hinner : (content ++ rest).Sublist (content ++ '\x60' :: rest) :=
        (List.Sublist.refl content).append (List.sublist_cons_self _ rest)
      exact hinner.trans (List.sublist_append_right _ _)

theorem sublist_enclosed? {mark content rest shown : Text}
    (h : enclosed? mark t = some (content, rest)) (hshown : shown.Sublist content) :
    (shown ++ rest).Sublist t := by
  rw [enclosed?_eq h]
  exact (hshown.trans (List.sublist_append_left content mark)).append (List.Sublist.refl rest)

theorem sublist_findAfter {found : Found} (h : findAfter roles previous? t = .ok (some found)) :
    (found.span.content ++ found.rest).Sublist t := by
  have hlead {lead inner : Text} (ht : after? lead t = some inner) : inner.Sublist t :=
    after?_eq_some_iff.1 ht ▸ List.sublist_append_right lead inner
  unfold findAfter at h
  split at h
  · unfold find at h
    split at h
    · rename_i inner hinner
      obtain ⟨⟨content, rest⟩, hclose, rfl⟩ := Option.map_eq_some_iff.1 (Except.ok.inj h)
      exact (sublist_enclosed? hclose (List.Sublist.refl _)).trans (hlead hinner)
    · split at h
      · rename_i inner hinner
        obtain ⟨⟨content, rest⟩, hclose, rfl⟩ := Option.map_eq_some_iff.1 (Except.ok.inj h)
        exact (sublist_enclosed? hclose (sublist_unescape _)).trans (hlead hinner)
      · split at h
        · obtain ⟨⟨content, rest⟩, hclose, rfl⟩ := Option.map_eq_some_iff.1 (Except.ok.inj h)
          exact (sublist_enclosed? hclose (sublist_unescape _)).cons _
        · exact (sublist_interpreted? (Except.ok.inj h)).cons _
        · exact (sublist_role h).cons _
        · cases h
  · cases h

/-- What the spans hold stands in the text, in the same order. -/
theorem sublist_scan {spans : List Span} (h : scan roles previous? t = .ok spans) :
    (Span.contentOf spans).Sublist t := by
  fun_induction scan roles previous? t generalizing spans with
  | case1 =>
    obtain rfl := Except.ok.inj h
    exact List.nil_sublist _
  | case2 previous? =>
    obtain rfl := Except.ok.inj h
    exact List.Sublist.refl _
  | case3 previous? d t hblank ih => exact ((ih h).cons d).cons _
  | case4 previous? d t hblank ih =>
    obtain ⟨more, hmore, rfl⟩ := map_eq_ok_iff.1 h
    rw [Span.contentOf_consText]
    exact ((ih hmore).cons_cons d).cons _
  | case5 previous? c t hescape e he => cases h
  | case6 previous? c t hescape found he ih =>
    obtain ⟨more, hmore, rfl⟩ := map_eq_ok_iff.1 h
    rw [Span.contentOf_cons]
    exact ((List.Sublist.refl _).append (ih hmore)).trans (sublist_findAfter he)
  | case7 previous? c t hescape hnone hreference ih => exact (ih h).cons c
  | case8 previous? c t hescape hnone hreference ih =>
    obtain ⟨more, hmore, rfl⟩ := map_eq_ok_iff.1 h
    rw [Span.contentOf_consText]
    exact (ih hmore).cons_cons c

/-- Inline markup loses line breaks and never makes one. -/
theorem count_newline_scan_le {spans : List Span} (h : scan roles previous? t = .ok spans) :
    (Span.shownAll spans).count '\n' ≤ t.count '\n' := by
  rw [Span.count_newline_shownAll]
  exact (sublist_scan h).count_le '\n'

end Inline

end CallDoc
