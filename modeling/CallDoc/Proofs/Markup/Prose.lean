import CallDoc.Doc.Prose
import CallDoc.Markup.Parse
import CallDoc.Proofs.Text.Lines

/-!
Lines of plain prose are read as one paragraph of one span, and shown as they stand.
-/
namespace CallDoc

open Text

theorem Text.startsWith_cons_of_ne {a c : Char} (h : c ≠ a) (lead t : Text) :
    startsWith (a :: lead) (c :: t) = false :=
  congrArg Option.isSome (after?_cons_of_ne h lead t)

/-! ## Spans -/

namespace Span

theorem consText_nil (spans : List Span) : consText [] spans = spans := by
  cases spans with
  | nil => rfl
  | cons span spans => cases span <;> rfl

theorem consText_of_ne {t : Text} {spans : List Span} (ht : t ≠ [])
    (h : ∀ u more, spans ≠ .text u :: more) : consText t spans = .text t :: spans := by
  rw [consText, if_neg (by simpa using ht)]
  exact h

theorem consText_consText (t u : Text) (spans : List Span) :
    consText t (consText u spans) = consText (t ++ u) spans := by
  by_cases h : u = []
  · rw [h, List.append_nil, consText_nil]
  · have hne : (t ++ u).isEmpty = false := by simp [h]
    cases spans with
    | nil => simp [consText, h]
    | cons span spans => cases span <;> simp [consText, h]

end Span

namespace Inline

/-- A character that begins no markup. -/
structure IsPlain (c : Char) : Prop where
  escape : c ≠ '\\'
  backquote : c ≠ '\x60'
  star : c ≠ '*'
  colon : c ≠ ':'
  underscore : c ≠ '_'

theorem find_of_isPlain {c : Char} (h : IsPlain c) (roles : List Text) (t : Text) :
    find roles (c :: t) = .ok none := by
  have hliteral : after? "\x60\x60".toList (c :: t) = none := after?_cons_of_ne h.backquote _ t
  have hstrong : after? "**".toList (c :: t) = none := after?_cons_of_ne h.star _ t
  rw [find, hliteral, hstrong]
  · exact fun inner he => h.star (List.cons.inj he).1
  · exact fun inner he => h.backquote (List.cons.inj he).1
  · exact fun inner he => h.colon (List.cons.inj he).1

/-- Where nothing is escaped, what is found at the start decides how the reading goes on. -/
theorem scan_cons {c : Char} (hescape : c ≠ '\\') (roles : List Text) (previous? : Option Char)
    (t : Text) : scan roles previous? (c :: t) =
      findAfter roles previous? (c :: t) >>= fun found? =>
        match found? with
        | some found => (scan roles (some found.last) found.rest).map found.span.cons
        | none =>
          if c = '_' && endsReference previous? t then scan roles (some c) t
          else (scan roles (some c) t).map (Span.consText [c]) := by
  rw [scan.eq_def]
  dsimp only
  rw [if_neg hescape]
  split <;> rename_i hfind <;> rw [hfind] <;> rfl

/-- A character at which no markup starts is text, unless it makes the word before it a
reference. -/
theorem scan_cons_of_none {roles : List Text} {previous? : Option Char} {c : Char} {t : Text}
    (hescape : c ≠ '\\') (hfind : findAfter roles previous? (c :: t) = .ok none) :
    scan roles previous? (c :: t) =
      if c = '_' && endsReference previous? t then scan roles (some c) t
      else (scan roles (some c) t).map (Span.consText [c]) := by
  rw [scan_cons hescape, hfind]
  rfl

theorem scan_cons_of_isPlain {c : Char} (h : IsPlain c) (roles : List Text)
    (previous? : Option Char) (t : Text) :
    scan roles previous? (c :: t) = (scan roles (some c) t).map (Span.consText [c]) := by
  rw [scan_cons_of_none h.escape (by rw [findAfter, find_of_isPlain h, ite_self]),
    if_neg (by simp [h.underscore])]

theorem scan_append_of_isPlain (roles : List Text) {t : Text} (h : ∀ c ∈ t, IsPlain c)
    (previous? : Option Char) (rest : Text) :
    scan roles previous? (t ++ rest) =
      (scan roles (t.getLast?.or previous?) rest).map (Span.consText t) := by
  induction t generalizing previous? with
  | nil =>
    rw [List.nil_append, List.getLast?_nil, Option.none_or]
    cases scan roles previous? rest with
    | error e => rfl
    | ok spans => exact congrArg Except.ok (Span.consText_nil spans).symm
  | cons c t ih =>
    obtain ⟨hc, hmore⟩ := List.forall_mem_cons.1 h
    have hlast : (c :: t).getLast?.or previous? = t.getLast?.or (some c) := by
      rw [List.getLast?_cons]
      cases t.getLast? <;> rfl
    rw [List.cons_append, scan_cons_of_isPlain hc, ih hmore, hlast]
    cases scan roles (t.getLast?.or (some c)) rest with
    | error e => rfl
    | ok spans => exact congrArg Except.ok (Span.consText_consText [c] t spans)

theorem scan_of_isPlain (roles : List Text) {t : Text} (h : ∀ c ∈ t, IsPlain c)
    (hne : t ≠ []) (previous? : Option Char) : scan roles previous? t = .ok [.text t] := by
  have happend := scan_append_of_isPlain roles h previous? []
  rw [List.append_nil, scan] at happend
  rw [happend, Except.map, Span.consText_of_ne hne (by simp)]

end Inline

theorem Text.mem_unlines {lines : List Text} {c : Char} (h : c ∈ unlines lines) :
    c = '\n' ∨ ∃ line ∈ lines, c ∈ line := (mem_joinWith h).imp_left List.mem_singleton.1

theorem Text.not_mem_unlines {lines : List Text} {c : Char} (hc : c ≠ '\n')
    (h : ∀ line ∈ lines, c ∉ line) : c ∉ unlines lines := fun hmem =>
  (mem_unlines hmem).elim hc fun ⟨line, hline, hmem⟩ => h line hline hmem

/-- At least one line, and every line in plain prose. -/
structure Text.IsProseLines (lines : List Text) : Prop where
  ne_nil : lines ≠ []
  prose : ∀ line ∈ lines, isProse line = true

section Lines

variable {lines : List Text}

theorem Text.IsProseLines.ne_of_mem (h : IsProseLines lines) {c d : Char} (hc : c ∈ unlines lines)
    (hd : isMark d = true) (hspace : d ≠ ' ') (hnewline : d ≠ '\n') : c ≠ d := by
  rcases mem_unlines hc with rfl | ⟨line, hline, hc⟩
  · exact hnewline.symm
  · exact isProse_ne (h.prose line hline) hc hd hspace

theorem Text.IsProseLines.isPlain (h : IsProseLines lines) :
    ∀ c ∈ unlines lines, Inline.IsPlain c := fun c hc => by
  constructor <;> exact h.ne_of_mem hc (by decide) (by decide) (by decide)

theorem Text.IsProseLines.isSolid (h : IsProseLines lines) : IsSolid (unlines lines) :=
  isSolid_unlines h.ne_nil fun line hline => isSolid_of_isProse (h.prose line hline)

theorem Inline.parse_prose (h : IsProseLines lines) (roles : List Text) :
    parse roles (unlines lines) = .ok [.text (unlines lines)] :=
  scan_of_isPlain roles h.isPlain h.isSolid.ne_nil none

end Lines

/-! ## Paragraphs -/

/-- A line with no mark at its start, and nothing in it that could close an enumerator. -/
structure Text.StartsParagraph (t : Text) : Prop where
  head : ∃ c u, t = c :: u ∧ isMark c = false
  period : '.' ∉ t
  paren : ')' ∉ t

theorem Text.StartsParagraph.ne {c d : Char} {t : Text} (h : StartsParagraph (c :: t))
    (hd : isMark d = true) : c ≠ d := by
  rintro rfl
  obtain ⟨e, u, he, hmark⟩ := h.head
  rw [← (List.cons.inj he).1, hd] at hmark
  cases hmark

theorem Text.startsParagraph_of_isProse {t : Text} (h : isProse t = true) : StartsParagraph t where
  head := by
    obtain ⟨c, u, rfl, hc⟩ := isProse_head h
    refine ⟨c, u, rfl, Bool.eq_false_iff.2 fun hmark => ?_⟩
    rw [isProseCharacter_of_isMark hmark] at hc
    cases hc
  period hmem := isProse_ne h hmem (by decide) (by decide) rfl
  paren hmem := isProse_ne h hmem (by decide) (by decide) rfl

namespace Line

theorem isBlank_of_isProse {line : Line} (h : isProse line.text = true) : line.isBlank = false :=
  (isSolid_of_isProse h).blank

end Line

namespace Frame

theorem isExplicit_of_head {c : Char} {t : Text} (h : c ≠ '.') : isExplicit (c :: t) = false := by
  have hlone : (c :: t == "..".toList) = false :=
    beq_eq_false_iff_ne.2 fun he => h (List.cons.inj he).1
  have hlead : startsWith ".. ".toList (c :: t) = false := startsWith_cons_of_ne h _ t
  rw [isExplicit, hlone, hlead, Bool.false_or]

theorem fieldHeader?_of_head {c : Char} (h : c ≠ ':') (t : Text) :
    fieldHeader? (c :: t) = none := by
  unfold fieldHeader?
  split
  · rename_i inner he
    exact absurd (List.cons.inj he).1 h
  · rfl

theorem bullet?_of_head {c : Char} (hstar : c ≠ '*') (hplus : c ≠ '+') (hminus : c ≠ '-')
    (t : Text) : bullet? (c :: t) = none := by
  rw [bullet?, if_neg]
  rintro ⟨rfl | rfl | rfl, -⟩
  · exact hstar rfl
  · exact hplus rfl
  · exact hminus rfl

theorem ofLine?_of_startsParagraph {t : Text} (h : StartsParagraph t) :
    Marker.ofLine? t = none := by
  have hdots : t.dropWhile (fun c => c != '.' && c != ')') = [] := by
    rw [List.dropWhile_eq_nil_iff]
    intro c hc
    have hperiod : c ≠ '.' := fun he => h.period (he ▸ hc)
    have hparen : c ≠ ')' := fun he => h.paren (he ▸ hc)
    simp [hperiod, hparen]
  have hsplit : Marker.split? t = none := by
    unfold Marker.split?
    split
    · exact absurd rfl (h.ne (d := '(') (by decide))
    · rw [hdots]
  rw [Marker.ofLine?, hsplit]

/-- A line that starts with none of these marks and is not numbered begins a paragraph. -/
theorem first_of_head {line : Line} {c : Char} {u : Text} (htext : line.text = c :: u)
    (hblank : isBlank c = false) (hmark : c ∉ ".:*+-".toList)
    (hmarker : Marker.ofLine? line.text = none) (below : List Line) :
    first line below = ofParagraph line below := by
  obtain ⟨number, t⟩ := line
  dsimp only at htext hmarker
  subst htext
  have hne {d : Char} (hd : d ∈ ".:*+-".toList) : c ≠ d := fun he => hmark (he ▸ hd)
  have hfield : fieldHeader? (c :: u) = none := fieldHeader?_of_head (hne (by decide)) u
  have hbullet : bullet? (c :: u) = none :=
    bullet?_of_head (hne (by decide)) (hne (by decide)) (hne (by decide)) u
  have henumerator : enumerator? (c :: u) below = none := by rw [enumerator?, hmarker]
  have hindent : Line.isIndented ⟨number, c :: u⟩ = false := by
    simp [Line.isIndented, indent, hblank]
  have hexplicit := isExplicit_of_head (t := u) (hne (d := '.') (by decide))
  unfold first
  dsimp only
  rw [hindent, hexplicit, hfield, hbullet, henumerator]
  rfl

/-- A line that starts like prose begins a paragraph. -/
theorem first_of_startsParagraph {line : Line} (h : StartsParagraph line.text)
    (below : List Line) : first line below = ofParagraph line below := by
  obtain ⟨c, u, htext, hc⟩ := h.head
  have hmarks : ∀ d ∈ ".:*+-".toList, isMark d = true := forall_mem_of_all (by decide)
  refine first_of_head htext (isBlank_of_not_isMark hc) (fun hmem => ?_)
    (ofLine?_of_startsParagraph h) below
  rw [hmarks c hmem] at hc
  cases hc

theorem announcesLiteral_of_last {t : Text} (h : t.getLast? ≠ some ':') :
    announcesLiteral t = (t, false) := by
  have hnone : before? "::".toList t = none := by
    refine Option.eq_none_iff_forall_ne_some.2 fun lead hlead => h ?_
    rw [before?_eq_some_iff.1 hlead]
    simp
  rw [announcesLiteral, hnone]

theorem startsWith_doctest {t : Text} (h : StartsParagraph t) :
    startsWith ">>>".toList t = false := by
  obtain ⟨c, u, rfl, -⟩ := h.head
  exact startsWith_cons_of_ne (h.ne (by decide)) _ u

/-- A paragraph that announces nothing ends where the next line is blank, or at the end. -/
theorem ofParagraph_of_unannounced {line : Line} {below after : List Line} {text : Text}
    (htext : unlines ((line :: below).map fun l => trim l.text) = text) (hne : text ≠ [])
    (hdoctest : startsWith ">>>".toList line.text = false)
    (hannounced : announcesLiteral text = (text, false))
    (hbelow : ∀ l ∈ below, l.isBlank = false)
    (hafter : ∀ l, after.head? = some l → l.isBlank = true) :
    ofParagraph line (below ++ after) = ([.paragraph line.number text], after) := by
  have hall : ∀ l ∈ below, (!l.isBlank) = true := fun l hl => by rw [hbelow l hl, Bool.not_false]
  obtain ⟨htake, hdrop⟩ := span_append_of_head? (p := fun l => !l.isBlank) (m := after)
    (fun l hl => by rw [hafter l hl, Bool.not_true]) below
  have hprefix : (below.takeWhile fun l => !l.isBlank) = below := List.takeWhile_eq_self_iff.2 hall
  have hnone : (below.dropWhile fun l => !l.isBlank) = [] := List.dropWhile_eq_nil_iff.2 hall
  unfold ofParagraph
  dsimp only
  rw [htake, hdrop, hprefix, hnone, hdoctest, htext, hannounced]
  simp [hne]

/-- Lines that end in prose go on the paragraph that the first of them starts, up to a blank
line or the end. -/
theorem first_endsInProse {line : Line} {below after : List Line}
    (hstart : StartsParagraph line.text) (h : ∀ l ∈ line :: below, EndsInProse l.text)
    (hafter : ∀ l, after.head? = some l → l.isBlank = true) :
    first line (below ++ after) =
      ([.paragraph line.number (unlines ((line :: below).map fun l => trim l.text))], after) := by
  obtain ⟨init, last, hlast⟩ :=
    (List.eq_nil_or_concat' (line :: below)).resolve_left (List.cons_ne_nil _ _)
  obtain ⟨c, hc, hprose⟩ := (h last (by simp [hlast])).getLast?_trim
  have hend : (unlines ((line :: below).map fun l => trim l.text)).getLast? = some c := by
    rw [hlast, List.map_append, List.map_singleton, getLast?_unlines_concat _ fun he => ?_, hc]
    rw [he] at hc
    cases hc
  have hcolon : c ≠ ':' := ne_of_isProseCharacter hprose (by decide)
  rw [first_of_startsParagraph hstart]
  refine ofParagraph_of_unannounced rfl (fun he => ?_) (startsWith_doctest hstart)
    (announcesLiteral_of_last fun he => hcolon (Option.some.inj (hend.symm.trans he)))
    (fun l hl => (h l (List.mem_cons_of_mem line hl)).blank) hafter
  rw [he] at hend
  cases hend

/-- The paragraph ends where the prose does, at a blank line or the end. -/
theorem first_prose {prose : List Text} (h : IsProseLines prose) {line : Line}
    {below after : List Line} (hbody : (line :: below).map Line.text = prose)
    (hafter : ∀ l, after.head? = some l → l.isBlank = true) :
    first line (below ++ after) = ([.paragraph line.number (unlines prose)], after) := by
  have hprose (l : Line) (hl : l ∈ line :: below) : isProse l.text = true :=
    h.prose l.text (hbody ▸ List.mem_map_of_mem hl)
  have htexts : (line :: below).map (fun l => trim l.text) = prose := by
    rw [← hbody]
    exact List.map_congr_left fun l hl => (isSolid_of_isProse (hprose l hl)).trim
  rw [← htexts]
  exact first_endsInProse (startsParagraph_of_isProse (hprose line List.mem_cons_self))
    (fun l hl => endsInProse_of_isProse (hprose l hl)) hafter

/-- Lines that end in prose up to an empty line or the end are one paragraph. -/
theorem cut_endsInProse {start : Text} {more rest : List Text} (hstart : StartsParagraph start)
    (h : ∀ line ∈ start :: more, EndsInProse line)
    (hrest : ∀ t, rest.head? = some t → t = []) {lines : List Line}
    (hlines : lines.map Line.text = start :: more ++ rest) :
    ∃ number after,
      cut lines = .paragraph number (unlines ((start :: more).map trim)) :: cut after ∧
        after.map Line.text = rest := by
  obtain ⟨body, after, rfl, hbody, hafter⟩ := List.map_eq_append_iff.1 hlines
  obtain ⟨line, below, rfl, hline, hbelow⟩ := List.map_eq_cons_iff.1 hbody
  have hends (l : Line) (hl : l ∈ line :: below) : EndsInProse l.text :=
    h l.text (hbody ▸ List.mem_map_of_mem hl)
  have hend (l : Line) (hl : after.head? = some l) : l.isBlank = true := by
    have hempty : l.text = [] := hrest l.text (by rw [← hafter, List.head?_map, hl]; rfl)
    rw [Line.isBlank, hempty]
    rfl
  refine ⟨line.number, after, ?_, hafter⟩
  rw [← hbody, List.map_map, List.cons_append, cut, if_neg,
    first_endsInProse (hline ▸ hstart) hends hend]
  · rfl
  · rw [Line.isBlank, (hends line List.mem_cons_self).blank]
    exact Bool.false_ne_true

/-- Lines of prose up to an empty line or the end are one paragraph. -/
theorem cut_prose {prose rest : List Text} (h : IsProseLines prose)
    (hrest : ∀ t, rest.head? = some t → t = []) {lines : List Line}
    (hlines : lines.map Line.text = prose ++ rest) :
    ∃ number after, cut lines = .paragraph number (unlines prose) :: cut after ∧
      after.map Line.text = rest := by
  obtain ⟨start, more, rfl⟩ := List.exists_cons_of_ne_nil h.ne_nil
  have htrim : (start :: more).map trim = start :: more :=
    (List.map_congr_left fun line hline => (isSolid_of_isProse (h.prose line hline)).trim).trans
      (List.map_id _)
  have hcut := cut_endsInProse (startsParagraph_of_isProse (h.prose start List.mem_cons_self))
    (fun line hline => endsInProse_of_isProse (h.prose line hline)) hrest hlines
  rwa [htrim] at hcut

end Frame

end CallDoc
