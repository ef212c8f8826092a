import CallDoc.Proofs.Markup.Inline

/-!
Spans in their own markup, and where each of them ends. The search for an end-string passes over
text without the first character of the mark, so that the content of a span is never cut short
and what follows the span has no part in it.

A mark does not end its span behind a backslash. For literal text, which is kept as it stands,
this means that one kind of content cannot be written, the one that ends in a backslash.
-/
namespace CallDoc

open Text

namespace Span

/-- The span in its own markup. -/
def written : Span → Text
  | text content => content
  | emphasis content => "*".toList ++ content ++ "*".toList
  | strong content => "**".toList ++ content ++ "**".toList
  | reference content => "\x60".toList ++ content ++ "\x60".toList
  | literal content => "\x60\x60".toList ++ content ++ "\x60\x60".toList
  | hyperlink content uri =>
    "\x60".toList ++ (content ++ " <".toList ++ uri ++ ">".toList) ++ "\x60_".toList

variable {spans : List Span}

theorem consText_of_ne_nil {t : Text} (h : t ≠ []) :
    ∃ u more, consText t spans = .text (t ++ u) :: more := by
  unfold consText
  split
  · exact ⟨_, _, rfl⟩
  · refine ⟨[], spans, ?_⟩
    rw [if_neg (by simpa using h), List.append_nil]

end Span

namespace Inline

variable {roles : List Text} {previous? : Option Char} {m : Char} {content rest : Text}

/-! ## The end of a span -/

theorem close?_append (h : m ∉ content) (ms : Text) (previous : Char) (t : Text) :
    close? (m :: ms) previous (content ++ t) =
      (close? (m :: ms) (content.getLast?.getD previous) t).map
        fun (inner, rest) => (content ++ inner, rest) := by
  induction content generalizing previous with
  | nil => cases hclose : close? (m :: ms) previous t <;> simp [hclose]
  | cons c content ih =>
    rw [List.mem_cons, not_or] at h
    have hafter : after? (m :: ms) (c :: (content ++ t)) = none :=
      after?_cons_of_ne (Ne.symm h.1) ms (content ++ t)
    rw [List.cons_append, close?, hafter, Option.filter_none]
    dsimp only
    rw [ih h.2 c, List.getLast?_cons, Option.getD_some, Option.map_map]
    rfl

theorem close?_mark {last : Char} (hblank : isBlank last = false) (hescape : last ≠ '\\')
    (hrest : endAllowed rest = true) (m : Char) (ms : Text) :
    close? (m :: ms) last (m :: ms ++ rest) = some ([], rest) := by
  have hafter : after? (m :: ms) (m :: (ms ++ rest)) = some rest := after?_eq_some_iff.2 rfl
  have hend : (!isBlank last && last != '\\' && endAllowed rest) = true := by
    simp [hblank, hescape, hrest]
  rw [List.cons_append, close?, hafter, Option.filter_some, if_pos hend]

/-- Content that its mark can close. -/
structure Closes (m : Char) (content : Text) : Prop where
  solid : IsSolid content
  unmarked : m ∉ content
  unescaped : content.getLast? ≠ some '\\'

theorem Closes.last (h : Closes m content) {c : Char} {t : Text} (he : content = c :: t) :
    isBlank (t.getLast?.getD c) = false ∧ t.getLast?.getD c ≠ '\\' := by
  have hlast : content.getLast? = some (t.getLast?.getD c) := he ▸ List.getLast?_cons
  refine ⟨h.solid.blank_last [] _ hlast, fun hescape => h.unescaped ?_⟩
  rw [hlast, hescape]

theorem Closes.enclosed? (h : Closes m content) (hrest : endAllowed rest = true) (ms : Text) :
    enclosed? (m :: ms) (content ++ (m :: ms ++ rest)) = some (content, rest) := by
  obtain ⟨c, t, rfl, hc⟩ := h.solid.head
  obtain ⟨hblank, hescape⟩ := h.last rfl
  rw [List.cons_append, Inline.enclosed?, if_neg (by simp [hc]),
    close?_append (fun hm => h.unmarked (.tail c hm)), close?_mark hblank hescape hrest]
  simp

theorem closeInterpreted?_append (h : '\x60' ∉ content) (previous : Char) (t : Text) :
    closeInterpreted? previous (content ++ t) =
      (closeInterpreted? (content.getLast?.getD previous) t).map
        fun (inner, marks, rest) => (content ++ inner, marks, rest) := by
  induction content generalizing previous with
  | nil => cases hclose : closeInterpreted? previous t <;> simp [hclose]
  | cons c content ih =>
    rw [List.mem_cons, not_or] at h
    rw [List.cons_append, closeInterpreted?, if_neg (by simp [Ne.symm h.1]), ih h.2 c,
      List.getLast?_cons, Option.getD_some, Option.map_map]
    rfl

theorem Closes.interpreted? (h : Closes '\x60' content) {t : Text}
    (hrest : endAllowed (t.drop (underscores t)) = true) :
    interpreted? (content ++ '\x60' :: t) = some
      (if underscores t = 0 then ⟨.reference content, '\x60', t⟩
        else ⟨referenceSpan content, '_', t.drop (underscores t)⟩) := by
  obtain ⟨c, u, rfl, hc⟩ := h.solid.head
  obtain ⟨hblank, -⟩ := h.last rfl
  rw [List.cons_append, Inline.interpreted?, if_neg (by simp [hc]),
    closeInterpreted?_append (fun hm => h.unmarked (.tail c hm)), closeInterpreted?,
    if_pos (by simp [hblank, hrest])]
  by_cases hmarks : underscores t = 0 <;> simp [hmarks]

/-- A span is read in front of what follows it. -/
theorem scan_of_found {c : Char} {t : Text} {found : Found} (hescape : c ≠ '\\')
    (hfind : findAfter roles previous? (c :: t) = .ok (some found)) :
    scan roles previous? (c :: t) =
      (scan roles (some found.last) found.rest).map found.span.cons := by
  rw [scan_cons hescape, hfind]
  rfl

/-! ## What a start-string reads -/

theorem find_literal (roles : List Text) (t : Text) :
    find roles ("\x60\x60".toList ++ t) =
      .ok ((enclosed? "\x60\x60".toList t).map fun (content, rest) =>
        ⟨.literal content, '\x60', rest⟩) := by
  have hafter : after? "\x60\x60".toList ("\x60\x60".toList ++ t) = some t :=
    after?_eq_some_iff.2 rfl
  unfold find
  rw [hafter]

theorem find_strong (roles : List Text) (t : Text) :
    find roles ("**".toList ++ t) =
      .ok ((enclosed? "**".toList t).map fun (content, rest) =>
        ⟨.strong (unescape content), '*', rest⟩) := by
  have hliteral : after? "\x60\x60".toList ("**".toList ++ t) = none :=
    after?_cons_of_ne (by decide) _ _
  have hafter : after? "**".toList ("**".toList ++ t) = some t := after?_eq_some_iff.2 rfl
  unfold find
  rw [hliteral, hafter]

theorem find_emphasis {c : Char} (hc : c ≠ '*') (roles : List Text) (t : Text) :
    find roles ('*' :: c :: t) =
      .ok ((enclosed? "*".toList (c :: t)).map fun (content, rest) =>
        ⟨.emphasis (unescape content), '*', rest⟩) := by
  have hliteral : after? "\x60\x60".toList ('*' :: c :: t) = none :=
    after?_cons_of_ne (by decide) _ _
  have hstrong : after? "**".toList ('*' :: c :: t) = none := after?_cons_of_ne hc _ _
  unfold find
  rw [hliteral, hstrong]
  rfl

theorem find_interpreted {c : Char} (hc : c ≠ '\x60') (roles : List Text) (t : Text) :
    find roles ('\x60' :: c :: t) = .ok (interpreted? (c :: t)) := by
  have hliteral : after? "\x60\x60".toList ('\x60' :: c :: t) = none :=
    after?_cons_of_ne hc _ _
  have hstrong : after? "**".toList ('\x60' :: c :: t) = none :=
    after?_cons_of_ne (by decide) _ _
  unfold find
  rw [hliteral, hstrong]
  rfl

theorem find_literal_written (h : Closes '\x60' content) (hrest : endAllowed rest = true)
    (roles : List Text) : find roles ((Span.literal content).written ++ rest) =
      .ok (some ⟨.literal content, '\x60', rest⟩) := by
  have hclose : enclosed? "\x60\x60".toList (content ++ ("\x60\x60".toList ++ rest)) =
      some (content, rest) := h.enclosed? hrest ['\x60']
  rw [Span.written, List.append_assoc, List.append_assoc, find_literal, hclose]
  rfl

theorem find_strong_written (h : Closes '*' content) (hrest : endAllowed rest = true)
    (roles : List Text) : find roles ((Span.strong content).written ++ rest) =
      .ok (some ⟨.strong (unescape content), '*', rest⟩) := by
  have hclose : enclosed? "**".toList (content ++ ("**".toList ++ rest)) = some (content, rest) :=
    h.enclosed? hrest ['*']
  rw [Span.written, List.append_assoc, List.append_assoc, find_strong, hclose]
  rfl

theorem find_emphasis_written (h : Closes '*' content) (hrest : endAllowed rest = true)
    (roles : List Text) : find roles ((Span.emphasis content).written ++ rest) =
      .ok (some ⟨.emphasis (unescape content), '*', rest⟩) := by
  have hclose : enclosed? "*".toList (content ++ ("*".toList ++ rest)) = some (content, rest) :=
    h.enclosed? hrest []
  obtain ⟨c, t, rfl, -⟩ := h.solid.head
  have hc : c ≠ '*' := fun he => h.unmarked (he ▸ List.mem_cons_self)
  rw [Span.written, List.append_assoc, List.append_assoc]
  refine (find_emphasis hc roles (t ++ ("*".toList ++ rest))).trans ?_
  rw [← List.cons_append, hclose]
  rfl

theorem find_interpreted_written (h : Closes '\x60' content) {t : Text}
    (hrest : endAllowed (t.drop (underscores t)) = true) (roles : List Text) :
    find roles ('\x60' :: (content ++ '\x60' :: t)) = .ok (some
      (if underscores t = 0 then ⟨.reference content, '\x60', t⟩
        else ⟨referenceSpan content, '_', t.drop (underscores t)⟩)) := by
  rw [← h.interpreted? hrest]
  obtain ⟨c, u, rfl, -⟩ := h.solid.head
  have hc : c ≠ '\x60' := fun he => h.unmarked (he ▸ List.mem_cons_self)
  exact find_interpreted hc roles (u ++ '\x60' :: t)

/-! ## Literal text -/

theorem enclosed?_literal_of_escaped (hmark : '\x60' ∉ content)
    (hlast : content.getLast? = some '\\') :
    enclosed? "\x60\x60".toList (content ++ "\x60\x60".toList) = none := by
  cases content with
  | nil => cases hlast
  | cons c t =>
    rw [List.getLast?_cons, Option.some_inj] at hlast
    rw [List.cons_append, enclosed?]
    split
    · rfl
    · have hclose := close?_append (fun hm => hmark (.tail c hm)) ['\x60'] c "\x60\x60".toList
      rw [show close? "\x60\x60".toList c (t ++ "\x60\x60".toList) = none from
        hclose.trans (by rw [hlast]; rfl)]
      rfl

/-- Literal text is read as it stands, whatever it holds, unless a backslash is its last
character: then it is not closed, and both its marks are plain text. -/
theorem parse_literal_iff (roles : List Text) (hsolid : IsSolid content)
    (hmark : '\x60' ∉ content) :
    (parse roles (Span.literal content).written = .ok [.literal content] ↔
        content.getLast? ≠ some '\\') ∧
      (content.getLast? = some '\\' → parse roles (Span.literal content).written =
        (scan roles (some '\x60') (content ++ "\x60\x60".toList)).map
          (Span.consText "\x60\x60".toList)) := by
  have hunread (hlast : content.getLast? = some '\\') :
      parse roles (Span.literal content).written =
        (scan roles (some '\x60') (content ++ "\x60\x60".toList)).map
          (Span.consText "\x60\x60".toList) := by
    have hfirst : findAfter roles none
        ('\x60' :: '\x60' :: (content ++ "\x60\x60".toList)) = .ok none := by
      refine (find_literal roles (content ++ "\x60\x60".toList)).trans ?_
      rw [enclosed?_literal_of_escaped hmark hlast]
      rfl
    have hsecond : findAfter roles (some '\x60')
        ('\x60' :: (content ++ "\x60\x60".toList)) = .ok none := rfl
    change scan roles none ('\x60' :: '\x60' :: (content ++ "\x60\x60".toList)) = _
    rw [scan_cons_of_none (by decide) hfirst, if_neg (by simp),
      scan_cons_of_none (by decide) hsecond, if_neg (by simp)]
    cases scan roles (some '\x60') (content ++ "\x60\x60".toList) with
    | error e => rfl
    | ok spans => exact congrArg Except.ok (Span.consText_consText _ _ spans)
  refine ⟨⟨fun hread hlast => ?_, fun hlast => ?_⟩, hunread⟩
  · rw [hunread hlast] at hread
    cases hscan : scan roles (some '\x60') (content ++ "\x60\x60".toList) with
    | error e =>
      rw [hscan] at hread
      cases hread
    | ok spans =>
      obtain ⟨u, more, hspans⟩ : ∃ u more, Span.consText "\x60\x60".toList spans =
          .text ("\x60\x60".toList ++ u) :: more := Span.consText_of_ne_nil (by decide)
      rw [hscan] at hread
      cases hspans ▸ Except.ok.inj hread
  · have hfind : findAfter roles none (Span.literal content).written =
        .ok (some ⟨.literal content, '\x60', []⟩) := by
      have hend : endAllowed [] = true := rfl
      have hwritten := find_literal_written ⟨hsolid, hmark, hlast⟩ hend roles
      rwa [List.append_nil] at hwritten
    exact (scan_of_found (by decide) hfind).trans (by rw [scan]; rfl)

theorem parse_literal_iff_path :
    (parse [] "\x60\x60C:\\*a_\x60\x60".toList = .ok [.literal "C:\\*a_".toList] ↔
        "C:\\*a_".toList.getLast? ≠ some '\\') ∧
      "C:\\*a_".toList.getLast? ≠ some '\\' := by
  have hsolid : IsSolid "C:\\*a_".toList :=
    ⟨⟨'C', ":\\*a_".toList, rfl, by decide⟩, ⟨"C:\\*a".toList, '_', rfl, by decide⟩⟩
  exact ⟨(parse_literal_iff [] hsolid (by decide)).1, by decide⟩

/-- Literal text with a backslash at its end loses both its marks and the backslash. -/
theorem parse_literal_escaped :
    parse Role.usual "\x60\x60a\\\x60\x60".toList = .ok [.text "\x60\x60a\x60\x60".toList] := by
  decide +kernel

end Inline
end CallDoc
