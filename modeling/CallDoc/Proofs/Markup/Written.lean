import Mathlib.Data.List.Chain
import CallDoc.Proofs.Markup.Closing

/-!
Inline markup that was written is read back. Each span is read where a start-string may stand
and in front of whatever starts with a blank, so that a line of spans, whatever their kinds and
their number, gives the same spans; and a text whose characters are all escaped gives itself.
-/
namespace CallDoc

open Text

/-! ## Spans and the text between them -/

namespace Span

/-- What stands in the markup of a span. -/
def parts : Span → List Text
  | text content | emphasis content | strong content | reference content | literal content =>
    [content]
  | hyperlink content uri => [content, uri]

def isMarked : Span → Bool
  | text _ => false
  | _ => true

/-- The text in front of the first marked span, between neighbours, and behind the last. -/
def stretches : List Span → List Text
  | [] => [[]]
  | text t :: spans => (stretches spans).modifyHead (t ++ ·)
  | _ :: spans => [] :: stretches spans

/-- Each stretch of text is one span, and none where there is no text. -/
structure IsMerged (spans : List Span) : Prop where
  ne_empty : text [] ∉ spans
  chain : spans.IsChain fun span next => span.isMarked || next.isMarked

variable {spans : List Span}

theorem filter_consText (t : Text) (spans : List Span) :
    (consText t spans).filter isMarked = spans.filter isMarked := by
  unfold consText
  split
  · rfl
  · split <;> rfl

theorem stretches_consText (t : Text) (spans : List Span) :
    stretches (consText t spans) = (stretches spans).modifyHead (t ++ ·) := by
  unfold consText
  split
  · rw [stretches, stretches, List.modifyHead_modifyHead]
    congr
    exact funext fun u => List.append_assoc ..
  · split
    · rename_i hempty
      obtain rfl := List.isEmpty_iff.1 hempty
      exact (congrFun List.modifyHead_id _).symm
    · rfl

theorem isMerged_nil : IsMerged [] := ⟨List.not_mem_nil, .nil⟩

theorem IsMerged.consText (h : IsMerged spans) (t : Text) : IsMerged (consText t spans) := by
  by_cases ht : t = []
  · rw [ht, consText_nil]
    exact h
  obtain ⟨hempty, hchain⟩ := h
  cases spans with
  | nil =>
    rw [consText_of_ne ht (by simp)]
    exact ⟨by simpa using Ne.symm ht, .singleton _⟩
  | cons span spans =>
    rw [List.mem_cons, not_or] at hempty
    cases span with
    | text u =>
      change IsMerged (text (t ++ u) :: spans)
      exact ⟨by simpa [ht] using hempty.2, List.isChain_cons.2 (List.isChain_cons.1 hchain)⟩
    | _ =>
      rw [consText_of_ne ht (by simp)]
      exact ⟨by simpa [Ne.symm ht] using hempty.2, .cons_cons rfl hchain⟩

/-- The spans, with the text of neighbours in one span. -/
def merged (spans : List Span) : List Span := spans.foldr cons []

theorem filter_merged (spans : List Span) :
    (merged spans).filter isMarked = spans.filter isMarked := by
  induction spans with
  | nil => rfl
  | cons span spans ih =>
    rw [merged, List.foldr_cons, ← merged]
    cases span with
    | text t => exact (filter_consText t _).trans ih
    | _ => exact congrArg (List.cons _) ih

theorem stretches_merged (spans : List Span) : stretches (merged spans) = stretches spans := by
  induction spans with
  | nil => rfl
  | cons span spans ih =>
    rw [merged, List.foldr_cons, ← merged]
    cases span with
    | text t => rw [cons, stretches_consText, ih, stretches]
    | _ => exact congrArg (List.cons []) ih

theorem isMerged_merged (spans : List Span) : IsMerged (merged spans) := by
  induction spans with
  | nil => exact isMerged_nil
  | cons span spans ih =>
    rw [merged, List.foldr_cons, ← merged]
    cases span with
    | text t => exact ih.consText t
    | _ =>
      refine ⟨fun hempty => ih.ne_empty ?_, ih.chain.cons fun _ _ => rfl⟩
      simpa [cons] using hempty

theorem filter_intersperse (t : Text) (spans : List Span) :
    (spans.intersperse (.text t)).filter isMarked = spans.filter isMarked := by
  induction spans with
  | nil => rfl
  | cons span more ih =>
    cases more with
    | nil => rfl
    | cons next more =>
      have htext : ¬ isMarked (.text t) = true := nofun
      rw [List.intersperse_cons_cons, List.filter_cons, List.filter_cons_of_neg htext, ih,
        ← List.filter_cons]

end Span

namespace Inline

variable {roles : List Text} {previous? : Option Char} {content rest : Text} {span : Span}
  {spans : List Span}

/-! ## One span -/

theorem endAllowed_of_openStart (h : openStart rest = true) : endAllowed rest = true := by
  cases rest with
  | nil => rfl
  | cons c t =>
    rw [openStart] at h
    simp [endAllowed, h]

theorem underscores_of_openStart (h : openStart rest = true) : underscores rest = 0 := by
  cases rest with
  | nil => rfl
  | cons c t =>
    have hc : c ≠ '_' := fun he => by rw [he] at h; cases h
    simp [underscores, hc]

theorem isPlain_of_isProse (h : isProse content = true) : ∀ c ∈ content, IsPlain c := by
  intro c hc
  constructor <;> exact isProse_ne h hc (by decide) (by decide)

theorem closes_of_isProse {m : Char} (h : isProse content = true) (hm : isMark m = true)
    (hspace : m ≠ ' ') : Closes m content where
  solid := isSolid_of_isProse h
  unmarked hmem := isProse_ne h hmem hm hspace rfl
  unescaped hlast :=
    isProse_ne h (List.mem_of_getLast? hlast) (d := '\\') (by decide) (by decide) rfl

theorem unescape_of_isProse (h : isProse content = true) : unescape content = content :=
  unescape_eq_self fun hmem => (isPlain_of_isProse h _ hmem).escape rfl

theorem referenceSpan_hyperlink {uri : Text} (hcontent : isProse content = true)
    (huri : isProse uri = true) :
    referenceSpan (content ++ " <".toList ++ uri ++ ">".toList) = .hyperlink content uri := by
  have hsolid := isSolid_of_isProse hcontent
  have hend : trimEnd (content ++ " <".toList ++ uri ++ ">".toList) =
      content ++ " <".toList ++ uri ++ ">".toList :=
    trimEnd_eq_self fun c hc => Option.some.inj (List.getLast?_concat.symm.trans hc) ▸ rfl
  have hbefore : before? ['>'] (content ++ " <".toList ++ uri ++ ">".toList) =
      some (content ++ " <".toList ++ uri) := before?_eq_some_iff.2 rfl
  have htarget : '<' ∉ uri := fun hmem => isProse_ne huri hmem (by decide) (by decide) rfl
  have hsplit : splitLast? '<' (content ++ " <".toList ++ uri) = some (content ++ [' '], uri) := by
    have happend := splitLast?_append htarget (content ++ [' '])
    simpa using happend
  have hlabel : trim (content ++ [' ']) = content := by
    have htrimEnd : trimEnd (content ++ [' ']) = content :=
      (dropEndWhile_append (by simp [isBlank])).trans hsolid.trimEnd
    rw [trim, htrimEnd]
    exact hsolid.trimStart_append [] rfl
  rw [referenceSpan, hend, hbefore, Option.bind_some, hsplit]
  dsimp only
  rw [hlabel, (isSolid_of_isProse huri).trim, if_neg (by simpa using hsolid.ne_nil)]

theorem find_reference_written (h : isProse content = true) (hrest : openStart rest = true)
    (roles : List Text) : find roles ((Span.reference content).written ++ rest) =
      .ok (some ⟨.reference content, '\x60', rest⟩) := by
  have hmarks := underscores_of_openStart hrest
  have hfind := find_interpreted_written (t := rest)
    (closes_of_isProse h (by decide) (by decide))
    (by rw [hmarks]; exact endAllowed_of_openStart hrest) roles
  rw [hmarks, if_pos rfl] at hfind
  rw [Span.written, List.append_assoc, List.append_assoc]
  exact hfind

theorem find_hyperlink_written {uri : Text} (hcontent : isProse content = true)
    (huri : isProse uri = true) (hrest : openStart rest = true) (roles : List Text) :
    find roles ((Span.hyperlink content uri).written ++ rest) =
      .ok (some ⟨.hyperlink content uri, '_', rest⟩) := by
  have hmarks : underscores ('_' :: rest) = 1 := by
    cases rest with
    | nil => rfl
    | cons c t =>
      have hc : c ≠ '_' := fun he => by rw [he] at hrest; cases hrest
      simp [underscores, hc]
  have hcloses : Closes '\x60' (content ++ " <".toList ++ uri ++ ">".toList) := by
    have hend : IsSolid ">".toList := ⟨⟨'>', [], rfl, by decide⟩, ⟨[], '>', rfl, by decide⟩⟩
    refine ⟨?_, fun hmem => ?_, fun hlast => ?_⟩
    · rw [List.append_assoc content]
      exact (isSolid_of_isProse hcontent).of_append hend
    · simp only [List.mem_append] at hmem
      rcases hmem with ((hmem | hmem) | hmem) | hmem
      · exact isProse_ne hcontent hmem (by decide) (by decide) rfl
      · exact absurd hmem (by decide)
      · exact isProse_ne huri hmem (by decide) (by decide) rfl
      · exact absurd hmem (by decide)
    · exact absurd (List.getLast?_concat.symm.trans hlast) (by decide)
  have hfind := find_interpreted_written (t := '_' :: rest) hcloses
    (by rw [hmarks]; exact endAllowed_of_openStart hrest) roles
  rw [hmarks, if_neg Nat.one_ne_zero, referenceSpan_hyperlink hcontent huri] at hfind
  rw [Span.written, List.append_assoc, List.append_assoc]
  exact hfind

/-- A span is read back where a start-string may stand, in front of whatever starts with a
blank. -/
theorem scan_written (hspan : ∀ part ∈ span.parts, isProse part = true)
    (hprevious : startAllowed previous? = true) (hrest : openStart rest = true)
    (roles : List Text) : ∃ last?, scan roles previous? (span.written ++ rest) =
      (scan roles last? rest).map span.cons := by
  have hend : endAllowed rest = true := endAllowed_of_openStart hrest
  have hfound {c last : Char} {t : Text} (hwritten : span.written ++ rest = c :: t)
      (hescape : c ≠ '\\')
      (hfind : find roles (span.written ++ rest) = .ok (some ⟨span, last, rest⟩)) :
      ∃ last?, scan roles previous? (span.written ++ rest) =
        (scan roles last? rest).map span.cons := by
    refine ⟨some last, ?_⟩
    rw [hwritten] at hfind ⊢
    exact scan_of_found hescape (by rw [findAfter, if_pos hprevious, hfind])
  cases span with
  | text content =>
    obtain hcontent := hspan content List.mem_cons_self
    exact ⟨_, scan_append_of_isPlain roles (isPlain_of_isProse hcontent) previous? rest⟩
  | emphasis content =>
    obtain hcontent := hspan content List.mem_cons_self
    have hfind := find_emphasis_written (closes_of_isProse hcontent rfl (by decide)) hend roles
    rw [unescape_of_isProse hcontent] at hfind
    exact hfound rfl (by decide) hfind
  | strong content =>
    obtain hcontent := hspan content List.mem_cons_self
    have hfind := find_strong_written (closes_of_isProse hcontent rfl (by decide)) hend roles
    rw [unescape_of_isProse hcontent] at hfind
    exact hfound rfl (by decide) hfind
  | reference content =>
    obtain hcontent := hspan content List.mem_cons_self
    exact hfound rfl (by decide) (find_reference_written hcontent hrest roles)
  | literal content =>
    obtain hcontent := hspan content List.mem_cons_self
    exact hfound rfl (by decide)
      (find_literal_written (closes_of_isProse hcontent rfl (by decide)) hend roles)
  | hyperlink content uri =>
    obtain hcontent := hspan content List.mem_cons_self
    obtain huri := hspan uri (.tail _ List.mem_cons_self)
    exact hfound rfl (by decide) (find_hyperlink_written hcontent huri hrest roles)

/-! ## Spans in a line -/

theorem scan_joinWith (hspans : ∀ span ∈ spans, ∀ part ∈ span.parts, isProse part = true)
    (hprevious : startAllowed previous? = true) (roles : List Text) :
    scan roles previous? (joinWith [' '] (spans.map Span.written)) =
      .ok (Span.merged (spans.intersperse (.text [' ']))) := by
  induction spans generalizing previous? with
  | nil =>
    change scan roles previous? [] = _
    rw [scan]
    rfl
  | cons span more ih =>
    obtain ⟨hspan, hmore⟩ := List.forall_mem_cons.1 hspans
    cases more with
    | nil =>
      have hend : openStart [] = true := rfl
      obtain ⟨last?, hlast⟩ := scan_written hspan hprevious hend roles
      rw [List.append_nil, scan] at hlast
      rw [List.map_singleton, joinWith, List.intercalate_singleton, hlast]
      rfl
    | cons next more =>
      have hend : openStart (' ' :: joinWith [' '] ((next :: more).map Span.written)) = true :=
        rfl
      obtain ⟨last?, hlast⟩ := scan_written hspan hprevious hend roles
      have hspace : IsPlain ' ' := by constructor <;> decide
      rw [List.map_cons, List.map_cons, joinWith_cons_cons, ← List.map_cons]
      refine hlast.trans ?_
      rw [scan_cons_of_isPlain hspace, ih hmore rfl]
      rfl

/-- A line of spans gives the same marked spans in their order, with the plain text that stood
in front of each and behind the last, and in as few spans of text as can be. -/
theorem parse_written (roles : List Text)
    (hspans : ∀ span ∈ spans, ∀ part ∈ span.parts, isProse part = true) :
    ∃ read, parse roles (joinWith [' '] (spans.map Span.written)) = .ok read ∧
      read.filter Span.isMarked = spans.filter Span.isMarked ∧
      Span.stretches read = Span.stretches (spans.intersperse (.text [' '])) ∧
      Span.IsMerged read := by
  refine ⟨_, scan_joinWith hspans rfl roles, ?_, Span.stretches_merged _, Span.isMerged_merged _⟩
  rw [Span.filter_merged, Span.filter_intersperse]

theorem parse_written_kinds :
    (∀ span ∈ [Span.text "a".toList, .emphasis "b c".toList, .strong "d".toList,
        .reference "e".toList, .literal "f".toList, .hyperlink "g".toList "h".toList,
        .text "i".toList], ∀ part ∈ span.parts, isProse part = true) ∧
      ∃ read, parse Role.usual
          "a *b c* **d** \x60e\x60 \x60\x60f\x60\x60 \x60g <h>\x60_ i".toList = .ok read ∧
        read.filter Span.isMarked = [.emphasis "b c".toList, .strong "d".toList,
          .reference "e".toList, .literal "f".toList, .hyperlink "g".toList "h".toList] ∧
        Span.stretches read = ["a ".toList, [' '], [' '], [' '], [' '], " i".toList] ∧
        Span.IsMerged read := by
  have hspans : ∀ span ∈ [Span.text "a".toList, .emphasis "b c".toList, .strong "d".toList,
      .reference "e".toList, .literal "f".toList, .hyperlink "g".toList "h".toList,
      .text "i".toList], ∀ part ∈ span.parts, isProse part = true := by decide +kernel
  exact ⟨hspans, parse_written Role.usual hspans⟩

/-! ## Escaped text -/

/-- A backslash in front of every character that is not blank. -/
def escaped (t : Text) : Text := t.flatMap fun c => if isBlank c then [c] else ['\\', c]

theorem scan_escaped (roles : List Text) (previous? : Option Char) (t : Text) :
    scan roles previous? (escaped t) = .ok (Span.consText t []) := by
  induction t generalizing previous? with
  | nil =>
    rw [escaped, List.flatMap_nil, scan]
    rfl
  | cons c t ih =>
    rw [escaped, List.flatMap_cons, ← escaped]
    by_cases hc : isBlank c
    · have hplain : IsPlain c := by constructor <;> (rintro rfl; exact absurd hc (by decide))
      rw [if_pos hc, List.singleton_append, scan_cons_of_isPlain hplain, ih]
      exact congrArg Except.ok (Span.consText_consText [c] t [])
    · rw [if_neg hc, List.cons_append, List.singleton_append, scan.eq_def]
      dsimp only
      rw [if_pos rfl, if_neg hc, ih]
      exact congrArg Except.ok (Span.consText_consText [c] t [])

/-- Escaped text is itself, and never markup. -/
theorem parse_escaped (roles : List Text) (t : Text) :
    parse roles (escaped t) = .ok (if t.isEmpty then [] else [.text t]) :=
  scan_escaped roles none t

end Inline
end CallDoc
