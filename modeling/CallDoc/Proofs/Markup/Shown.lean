import CallDoc.Proofs.Markup.Inline
import CallDoc.Proofs.Results

/-!
What is shown of a text is the text itself exactly when no character of it is taken as markup.
A span is shown with display marks around its content, or its content is shown without the
markup; either way it can be told from its source.
-/
namespace CallDoc

open Text

/-! ## Display marks -/

/-- What is shown is not its source, since it has more display marks or is shorter. -/
def Alters (source shown : Text) : Prop :=
  source.count '\x1b' < shown.count '\x1b' ∨
    (source.count '\x1b' ≤ shown.count '\x1b' ∧ shown.length < source.length)

theorem Alters.ne {source shown : Text} (h : Alters source shown) : shown ≠ source := by
  rintro rfl
  rcases h with h | ⟨-, h⟩ <;> exact absurd h (lt_irrefl _)

theorem Alters.append {source shown more moreShown : Text} (h : Alters source shown)
    (hmore : moreShown = more ∨ Alters more moreShown) :
    Alters (source ++ more) (shown ++ moreShown) := by
  simp only [Alters, List.count_append, List.length_append] at h hmore ⊢
  rcases hmore with rfl | hmore <;> omega

theorem Alters.cons {source shown : Text} (h : Alters source shown) (c : Char) :
    Alters (c :: source) (c :: shown) := by
  simp only [Alters, List.count_cons, List.length_cons] at h ⊢
  omega

theorem alters_of_drop {dropped : Text} (hne : dropped ≠ []) (h : '\x1b' ∉ dropped)
    (kept : Text) : Alters (dropped ++ kept) kept := by
  have hpos := List.length_pos_iff.2 hne
  right
  rw [List.count_append, List.count_eq_zero.2 h, List.length_append]
  omega

section Strip

variable {p : Char → Bool} {c : Char} (hc : p c = false)
include hc

theorem Text.count_dropEndWhile (t : Text) : (dropEndWhile p t).count c = t.count c := by
  obtain ⟨gap, ht, hgap⟩ := exists_append_dropEndWhile p t
  have hnone : gap.count c = 0 := List.count_eq_zero.2 fun hmem => by
    rw [hgap c hmem] at hc
    cases hc
  conv => rhs; rw [ht, List.count_append, hnone, Nat.add_zero]

theorem Text.count_stripWhere (t : Text) : (stripWhere p t).count c = t.count c := by
  have hnone : ((dropEndWhile p t).takeWhile p).count c = 0 := List.count_eq_zero.2 fun hmem => by
    rw [List.mem_takeWhile_imp hmem] at hc
    cases hc
  rw [← count_dropEndWhile hc t]
  conv =>
    rhs
    rw [← List.takeWhile_append_dropWhile (p := p) (l := dropEndWhile p t), List.count_append,
      hnone, Nat.zero_add]
  rfl

end Strip

theorem Text.length_stripWhere_le (p : Char → Bool) (t : Text) :
    (stripWhere p t).length ≤ t.length :=
  (List.dropWhile_sublist p).length_le.trans (dropEndWhile_length_le p t)

theorem Text.count_escape_trim (t : Text) : (trim t).count '\x1b' = t.count '\x1b' := by
  have hescape : isBlank '\x1b' = false := rfl
  exact count_stripWhere hescape t

theorem Alters.stripWhere {source shown : Text} (h : Alters source shown) {p : Char → Bool}
    (hescape : p '\x1b' = false) : Alters source (stripWhere p shown) := by
  have hlength := length_stripWhere_le p shown
  rw [Alters, count_stripWhere hescape]
  rcases h with h | ⟨hcount, h⟩
  · exact Or.inl h
  · exact Or.inr ⟨hcount, hlength.trans_lt h⟩

namespace Inline

/-! ## What a span is read from -/

theorem closeInterpreted?_eq {t content rest : Text} {previous : Char} {count : Nat}
    (h : closeInterpreted? previous t = some (content, count, rest)) :
    ∃ marks, t = content ++ '\x60' :: marks ++ rest ∧ ∀ c ∈ marks, c = '_' := by
  induction t generalizing previous content with
  | nil => cases h
  | cons c t ih =>
    simp only [closeInterpreted?] at h
    split at h
    · rename_i hc
      simp only [Option.some.injEq, Prod.mk.injEq] at h
      obtain ⟨rfl, rfl, rfl⟩ := h
      simp only [Bool.and_eq_true, decide_eq_true_eq] at hc
      refine ⟨(t.take 2).takeWhile (· == '_'), ?_, fun d hd => ?_⟩
      · have hprefix : (t.take 2).takeWhile (· == '_') <+: t :=
          (List.takeWhile_prefix _).trans (List.take_prefix 2 t)
        have htake : (t.take 2).takeWhile (· == '_') = t.take (underscores t) :=
          List.prefix_iff_eq_take.1 hprefix
        simp [hc.1.1, htake]
      · have hmark := List.all_eq_true.1 (List.all_takeWhile (p := (· == '_')) (l := t.take 2)) d hd
        exact eq_of_beq hmark
    · obtain ⟨⟨u, n, v⟩, hu, he⟩ := Option.map_eq_some_iff.1 h
      simp only [Prod.mk.injEq] at he
      obtain ⟨rfl, rfl, rfl⟩ := he
      obtain ⟨marks, rfl, hmarks⟩ := ih hu
      exact ⟨marks, rfl, hmarks⟩

theorem roleName?_eq {t name inner : Text} (h : roleName? t = some (name, inner)) :
    t = name ++ ":\x60".toList ++ inner ∧ ∀ c ∈ name, isRoleCharacter c = true := by
  unfold roleName? at h
  split at h
  · rename_i rest hrest
    obtain ⟨name', hname, he⟩ := Option.map_eq_some_iff.1 h
    obtain ⟨rfl, rfl⟩ := Prod.mk.inj he
    have hbefore := before?_eq_some_iff.1 (Option.filter_eq_some_iff.1 hname).1
    refine ⟨?_, fun c hc => ?_⟩
    · rw [← List.takeWhile_append_dropWhile (p := isRoleCharacter) (l := t), hbefore, hrest]
      simp
    · have hmem : c ∈ t.takeWhile isRoleCharacter := hbefore ▸ List.mem_append_left _ hc
      exact List.mem_takeWhile_imp hmem
  · cases h

theorem roleContent?_eq {t content rest : Text} (h : roleContent? t = some (content, rest)) :
    t = content ++ '\x60' :: rest := by
  induction t generalizing content with
  | nil => cases h
  | cons c t ih =>
    simp only [roleContent?] at h
    split at h
    · rename_i hc
      obtain ⟨rfl, rfl⟩ := Prod.mk.inj (Option.some.inj h)
      simp only [Bool.and_eq_true, decide_eq_true_eq] at hc
      rw [hc.1, List.nil_append]
    · obtain ⟨⟨u, v⟩, hu, he⟩ := Option.map_eq_some_iff.1 h
      obtain ⟨rfl, rfl⟩ := Prod.mk.inj he
      rw [ih hu]
      rfl

/-! ## What is shown of a span -/

theorem count_escape_unescape (t : Text) : (unescape t).count '\x1b' = t.count '\x1b' := by
  fun_induction unescape t <;> simp_all [List.count_cons]

/-- Content between marks is altered when more than the marks are lost, or others are shown. -/
theorem alters_of_enclosed {before content after shown : Text} (hbefore : '\x1b' ∉ before)
    (hafter : '\x1b' ∉ after)
    (h : content.count '\x1b' < shown.count '\x1b' ∨ content.count '\x1b' ≤ shown.count '\x1b' ∧
      shown.length < before.length + content.length + after.length) :
    Alters (before ++ content ++ after) shown := by
  have hbefore := List.count_eq_zero.2 hbefore
  have hafter := List.count_eq_zero.2 hafter
  simp only [Alters, List.count_append, List.length_append]
  omega

/-- What is shown of the span is its content, with display marks around it or without them. -/
def Shows (content : Text) (span : Span) : Prop :=
  span.shown = content ∨ content.count '\x1b' < span.shown.count '\x1b'

theorem Shows.alters {content before after : Text} {span : Span} (h : Shows content span)
    (hne : before ≠ []) (hbefore : '\x1b' ∉ before) (hafter : '\x1b' ∉ after) :
    Alters (before ++ content ++ after) span.shown := by
  have hpos := List.length_pos_iff.2 hne
  refine alters_of_enclosed hbefore hafter (h.symm.imp id fun h => ?_)
  rw [h]
  exact ⟨le_refl _, by omega⟩

theorem count_lt_marked {mark content inner : Text} (hmark : '\x1b' ∈ mark)
    (h : content.count '\x1b' ≤ inner.count '\x1b') :
    content.count '\x1b' < (mark ++ inner ++ Display.reset).count '\x1b' := by
  have hpos := List.count_pos_iff.2 hmark
  rw [List.count_append, List.count_append]
  omega

theorem shows_standard {name content : Text} {make : Text → Span}
    (h : Role.standard? name = some make) : Shows content (make content) := by
  unfold Role.standard? at h
  split_ifs at h <;> obtain rfl := Option.some.inj h
  · exact Or.inr (count_lt_marked (by decide) (le_refl _))
  · exact Or.inr (count_lt_marked (by decide) (le_refl _))
  · exact Or.inl rfl
  · exact Or.inr (count_lt_marked (by decide) (le_refl _))
  · exact Or.inl rfl

theorem shows_roleSpan {roles : List Text} {name content : Text} {span : Span}
    (h : roleSpan roles name content = .ok span) : Shows content span := by
  unfold roleSpan at h
  split at h
  · rename_i make hmake
    obtain rfl := Except.ok.inj h
    exact shows_standard hmake
  · split at h
    · obtain rfl := Except.ok.inj h
      exact Or.inl rfl
    · cases h

theorem escape_not_mem_marks {marks : Text} (h : ∀ c ∈ marks, c = '_') :
    '\x1b' ∉ '\x60' :: marks := by
  rw [List.mem_cons, not_or]
  exact ⟨by decide, fun hmem => absurd (h _ hmem) (by decide)⟩

/-- The target of a reference is shown in parentheses, with a space before them, in place of its
brackets. -/
theorem shown_referenceSpan (content : Text) :
    content.count '\x1b' ≤ (referenceSpan content).shown.count '\x1b' ∧
      (referenceSpan content).shown.length ≤ content.length + 1 := by
  unfold referenceSpan
  split
  · rename_i label uri hsplit
    obtain ⟨lead, hlead, hlast⟩ := Option.bind_eq_some_iff.1 hsplit
    have hcontent : trimEnd content = label ++ '<' :: uri ++ ['>'] := by
      rw [before?_eq_some_iff.1 hlead, splitLast?_eq hlast]
    have hcount : content.count '\x1b' = label.count '\x1b' + uri.count '\x1b' := by
      have hescape : isBlank '\x1b' = false := rfl
      rw [← count_dropEndWhile hescape, ← trimEnd, hcontent]
      simp
    have hlength : label.length + uri.length + 2 ≤ content.length := by
      have hshorter : (trimEnd content).length ≤ content.length :=
        dropEndWhile_length_le isBlank content
      rw [hcontent, List.length_append, List.length_append, List.length_cons,
        List.length_singleton] at hshorter
      omega
    have hlabel := Frame.trim_length_le label
    have huri := Frame.trim_length_le uri
    split
    · rename_i hempty
      have hnone := count_escape_trim label
      rw [List.isEmpty_iff.1 hempty, List.count_nil] at hnone
      rw [Span.shown, count_escape_trim]
      omega
    · have hparens : " (".toList.length = 2 ∧ [')'].length = 1 := by decide
      rw [Span.shown]
      simp only [List.count_append, List.length_append, count_escape_trim]
      omega
  · exact ⟨le_refl _, Nat.le_succ _⟩

theorem alters_of_interpreted? {inner : Text} {found : Found}
    (h : interpreted? inner = some found) :
    ∃ source, '\x60' :: inner = source ++ found.rest ∧ Alters source found.span.shown := by
  cases inner with
  | nil => cases h
  | cons c inner =>
    simp only [interpreted?] at h
    split at h
    · cases h
    · obtain ⟨⟨content, count, rest⟩, hclose, rfl⟩ := Option.map_eq_some_iff.1 h
      obtain ⟨marks, rfl, hmarks⟩ := closeInterpreted?_eq hclose
      refine ⟨['\x60'] ++ (c :: content) ++ '\x60' :: marks, ?_, ?_⟩
      · dsimp only
        split <;> simp
      · refine alters_of_enclosed (by decide) (escape_not_mem_marks hmarks) ?_
        dsimp only
        split
        · exact Or.inl (count_lt_marked (by decide) (le_refl _))
        · obtain ⟨hcount, hlength⟩ := shown_referenceSpan (c :: content)
          have hopening : ['\x60'].length = 1 := rfl
          have hclosing : ('\x60' :: marks).length = marks.length + 1 := rfl
          exact Or.inr ⟨hcount, by dsimp only; omega⟩

theorem alters_of_role {roles : List Text} {inner : Text} {found : Found}
    (h : role roles inner = .ok (some found)) :
    ∃ source, ':' :: inner = source ++ found.rest ∧ Alters source found.span.shown := by
  unfold role at h
  split at h
  · cases h
  · rename_i name behind hname
    split at h
    · cases h
    · rename_i content rest hcontent
      cases hspan : roleSpan roles name content with
      | error e =>
        rw [hspan] at h
        cases h
      | ok span =>
        rw [hspan] at h
        obtain rfl := Option.some.inj (Except.ok.inj h)
        obtain ⟨rfl, hcharacters⟩ := roleName?_eq hname
        have hbefore : '\x1b' ∉ ':' :: name ++ ":\x60".toList := by
          rw [List.mem_append, List.mem_cons, not_or, not_or]
          exact ⟨⟨by decide, fun hmem => absurd (hcharacters _ hmem) (by decide)⟩, by decide⟩
        refine ⟨(':' :: name ++ ":\x60".toList) ++ content ++ ['\x60'], ?_, ?_⟩
        · rw [roleContent?_eq hcontent]
          simp
        · exact (shows_roleSpan hspan).alters (by simp) hbefore (by decide)

theorem alters_of_findAfter {roles : List Text} {previous? : Option Char} {t : Text}
    {found : Found} (h : findAfter roles previous? t = .ok (some found)) :
    ∃ source, t = source ++ found.rest ∧ Alters source found.span.shown := by
  unfold findAfter at h
  split at h
  · unfold find at h
    split at h
    · rename_i inner hinner
      obtain ⟨⟨content, rest⟩, hrest, rfl⟩ := Option.map_eq_some_iff.1 (Except.ok.inj h)
      refine ⟨"\x60\x60".toList ++ content ++ "\x60\x60".toList, ?_, ?_⟩
      · rw [after?_eq_some_iff.1 hinner, enclosed?_eq hrest]
        simp
      · exact Shows.alters (Or.inl rfl) (by decide) (by decide) (by decide)
    · split at h
      · rename_i inner hinner
        obtain ⟨⟨content, rest⟩, hrest, rfl⟩ := Option.map_eq_some_iff.1 (Except.ok.inj h)
        refine ⟨"**".toList ++ content ++ "**".toList, ?_, ?_⟩
        · rw [after?_eq_some_iff.1 hinner, enclosed?_eq hrest]
          simp
        · exact alters_of_enclosed (by decide) (by decide)
            (Or.inl (count_lt_marked (by decide) (count_escape_unescape content).ge))
      · split at h
        · rename_i inner _ _
          obtain ⟨⟨content, rest⟩, hrest, rfl⟩ := Option.map_eq_some_iff.1 (Except.ok.inj h)
          refine ⟨['*'] ++ content ++ ['*'], ?_, ?_⟩
          · rw [enclosed?_eq hrest]
            simp
          · exact alters_of_enclosed (by decide) (by decide)
              (Or.inl (count_lt_marked (by decide) (count_escape_unescape content).ge))
        · exact alters_of_interpreted? (Except.ok.inj h)
        · exact alters_of_role h
        · cases h
  · cases h

/-! ## Text without markup -/

/-- Something other than text starts here. -/
def begins (roles : List Text) (previous? : Option Char) (t : Text) : Bool :=
  match findAfter roles previous? t with
  | .ok none => false
  | _ => true

/-- No character of the text is taken as markup: none escapes another, none begins a span, and
no underscore makes the word before it a reference. -/
def isInert (roles : List Text) (previous? : Option Char) : Text → Bool
  | [] => true
  | c :: t =>
    (c != '\\' || t.isEmpty) && !begins roles previous? (c :: t) &&
      !(c == '_' && endsReference previous? t) && isInert roles (some c) t

theorem shownAll_consText (t : Text) (spans : List Span) :
    Span.shownAll (Span.consText t spans) = t ++ Span.shownAll spans := by
  unfold Span.consText
  split
  · simp [Span.shownAll, Span.shown]
  · split <;> simp_all [Span.shownAll, Span.shown]

theorem shownAll_cons (span : Span) (spans : List Span) :
    Span.shownAll (span.cons spans) = span.shown ++ Span.shownAll spans := by
  unfold Span.cons
  split
  · exact shownAll_consText _ spans
  · rfl

theorem begins_eq_false_iff {roles : List Text} {previous? : Option Char} {t : Text} :
    begins roles previous? t = false ↔ findAfter roles previous? t = .ok none := by
  unfold begins
  split
  · simp [*]
  · rename_i hnone
    exact iff_of_false (by simp) hnone

theorem begins_escape (roles : List Text) (previous? : Option Char) (t : Text) :
    begins roles previous? ('\\' :: t) = false := by
  have hfind : find roles ('\\' :: t) = .ok none := rfl
  rw [begins_eq_false_iff, findAfter, hfind, ite_self]

variable {roles : List Text} {previous? : Option Char} {t : Text}

theorem exists_scan_of_isInert (h : isInert roles previous? t = true) :
    ∃ spans, scan roles previous? t = .ok spans := by
  induction t generalizing previous? with
  | nil => exact ⟨[], by rw [scan]⟩
  | cons c t ih =>
    simp only [isInert, Bool.and_eq_true, Bool.not_eq_true', Bool.or_eq_true, bne_iff_ne] at h
    obtain ⟨⟨⟨hescape, hbegins⟩, hreference⟩, hmore⟩ := h
    by_cases hc : c = '\\'
    · obtain rfl := List.isEmpty_iff.1 (hescape.resolve_left fun hne => hne hc)
      rw [hc, scan]
      exact ⟨_, rfl⟩
    · obtain ⟨spans, hspans⟩ := ih hmore
      have hnot : ¬(c = '_' && endsReference previous? t) = true := by simpa using hreference
      rw [scan_cons_of_none hc (begins_eq_false_iff.1 hbegins), if_neg hnot, hspans]
      exact ⟨_, rfl⟩

/-- Text is shown as it stands, and markup is not. -/
theorem isInert_or_alters {spans : List Span} (h : scan roles previous? t = .ok spans) :
    (isInert roles previous? t = true ∧ Span.shownAll spans = t) ∨
      (isInert roles previous? t = false ∧ Alters t (Span.shownAll spans)) := by
  fun_induction scan roles previous? t generalizing spans with
  | case1 =>
    obtain rfl := Except.ok.inj h
    exact Or.inl ⟨rfl, rfl⟩
  | case2 previous? =>
    obtain rfl := Except.ok.inj h
    exact Or.inl ⟨by simp [isInert, begins_escape], rfl⟩
  | case3 previous? d t hblank ih =>
    have hblank : '\x1b' ∉ ['\\', d] := by
      rintro (_ | ⟨_, _ | ⟨_, ⟨⟩⟩⟩)
      cases hblank
    have hshort : Alters ['\\', d] [] := alters_of_drop (by simp) hblank []
    exact Or.inr ⟨by simp [isInert], hshort.append ((ih h).imp And.right And.right)⟩
  | case4 previous? d t hblank ih =>
    obtain ⟨more, hmore, rfl⟩ := map_eq_ok_iff.1 h
    have hshort : Alters ['\\', d] [d] := alters_of_drop (List.cons_ne_nil '\\' []) (by decide) [d]
    rw [shownAll_consText]
    exact Or.inr ⟨by simp [isInert], hshort.append ((ih hmore).imp And.right And.right)⟩
  | case5 previous? c t hescape e he => cases h
  | case6 previous? c t hescape found he ih =>
    obtain ⟨more, hmore, rfl⟩ := map_eq_ok_iff.1 h
    obtain ⟨source, hsource, halters⟩ := alters_of_findAfter he
    have hbegins : begins roles previous? (c :: t) = true := by
      rw [begins, he]
    rw [shownAll_cons, isInert, hbegins, hsource]
    exact Or.inr ⟨by simp, halters.append ((ih hmore).imp And.right And.right)⟩
  | case7 previous? c t hescape hnone hreference ih =>
    simp only [Bool.and_eq_true, decide_eq_true_eq] at hreference
    have hshort : Alters [c] [] := alters_of_drop (List.cons_ne_nil c [])
      (by rw [hreference.1]; decide) []
    exact Or.inr ⟨by simp [isInert, hreference], hshort.append ((ih h).imp And.right And.right)⟩
  | case8 previous? c t hescape hnone hreference ih =>
    obtain ⟨more, hmore, rfl⟩ := map_eq_ok_iff.1 h
    have hbegins := begins_eq_false_iff.2 hnone
    have hnot : (c == '_' && endsReference previous? t) = false := by simpa using hreference
    rw [shownAll_consText]
    rcases ih hmore with ⟨hinert, hshown⟩ | ⟨hinert, halters⟩
    · exact Or.inl ⟨by simp [isInert, hescape, hbegins, hnot, hinert], by rw [hshown]; rfl⟩
    · exact Or.inr ⟨by simp [isInert, hinert], halters.cons c⟩

theorem shownAll_eq_iff {spans : List Span} (h : scan roles previous? t = .ok spans) :
    Span.shownAll spans = t ↔ isInert roles previous? t = true := by
  rcases isInert_or_alters h with ⟨hinert, hshown⟩ | ⟨hinert, halters⟩
  · exact iff_of_true hshown hinert
  · exact iff_of_false halters.ne (by simp [hinert])

end Inline

end CallDoc
