import CallDoc.Proofs.Outline.Basic

/-!
The headings of sections on parameters and errors: a title with a colon behind it, or with an
underline below it.
-/
namespace CallDoc

open Text Section

namespace Outline

/-- How the items of a section are read. -/
def Kind.form : Kind → ItemForm
  | .params => ⟨true, false⟩
  | .errors => ⟨false, true⟩

/-- The heading of a section of one kind. -/
def Kind.heading (keyword : Bool) : Kind → Heading
  | .params => if keyword then .keywordArguments else .parameters
  | .errors => .raises

theorem form?_heading (kind : Kind) (keyword : Bool) (convention : Convention) :
    Heading.form? convention (kind.heading keyword) = some kind.form := by
  cases kind <;> cases keyword <;> rfl

/-- The title of a section, and the underline that it has where headings are underlined. -/
structure Caption where
  kind : Kind
  title : Text
  underline : Text
  titled : lowercase title ∈ kind.titles
  underlined : 2 ≤ underline.length ∧ ∀ c ∈ underline, isUnderlineCharacter c = true

namespace Caption

def lines (c : Caption) : Convention → List Text
  | .google => [c.title ++ [':']]
  | .numpy => [c.title, c.underline]

/-- The section is one of keyword arguments. -/
def keyword (c : Caption) : Bool := Heading.ofTitle? c.title == some .keywordArguments

def heading (c : Caption) : Heading := c.kind.heading c.keyword

variable (c : Caption)

theorem ofTitle? : Heading.ofTitle? c.title = some c.heading := by
  have hparams : ∀ t ∈ Kind.params.titles, Heading.named.lookup t = some .parameters ∨
      Heading.named.lookup t = some .keywordArguments := by decide
  have herrors : ∀ t ∈ Kind.errors.titles, Heading.named.lookup t = some .raises := by decide
  have htitled := c.titled
  rw [heading, keyword]
  cases hkind : c.kind with
  | params =>
    rw [hkind] at htitled
    rcases hparams _ htitled with h | h <;> (rw [Heading.ofTitle?, h]; rfl)
  | errors =>
    rw [hkind] at htitled
    rw [Heading.ofTitle?, herrors _ htitled]
    rfl

theorem isTitle : Heading.IsTitle c.title :=
  Heading.isTitle_of_ofTitle? (by rw [c.ofTitle?]; rfl)

theorem title_ne_nil : c.title ≠ [] := by
  obtain ⟨d, hd, -⟩ := c.isTitle.head
  rintro h
  rw [h] at hd
  cases hd

theorem underline_ne_nil : c.underline ≠ [] := by
  have hlen := c.underlined.1
  intro h
  rw [h] at hlen
  cases hlen

theorem isTrimmed_underline : IsTrimmed c.underline where
  space d hd hblank := by
    rw [isBlank_of_isUnderlineCharacter (c.underlined.2 d hd)] at hblank
    cases hblank
  last d hd := isBlank_of_isUnderlineCharacter (c.underlined.2 d (List.mem_of_getLast? hd))

theorem isUnderline_underline : isUnderline c.underline = true := by
  rw [isUnderline, c.isTrimmed_underline.trimEnd, Bool.and_eq_true, List.all_eq_true,
    decide_eq_true_eq]
  exact c.underlined

theorem isTrimmed_title : IsTrimmed c.title where
  space d hd hblank := c.isTitle.space d hd (isMark_of_isBlank hblank)
  last d hd := by
    obtain ⟨e, he, hmark⟩ := c.isTitle.last
    rw [hd] at he
    obtain rfl := Option.some.inj he
    exact isBlank_of_not_isMark hmark

/-- Nothing in a title is a mark but the spaces inside. -/
theorem isUnderline_title (t : Text) : isUnderline (c.title ++ t) = false := by
  obtain ⟨d, hd, hmark⟩ := c.isTitle.head
  refine isUnderline_of_head (c := d) ?_ (Bool.eq_false_iff.2 fun hunder => ?_)
  · rw [List.head?_append_of_ne_nil _ c.title_ne_nil, hd]
  · rw [isMark_of_isUnderlineCharacter hunder] at hmark
    cases hmark

theorem indent_title (t : Text) : Text.indent (c.title ++ t) = 0 := by
  obtain ⟨d, hd, hmark⟩ := c.isTitle.head
  obtain ⟨u, htitle⟩ := List.head?_eq_some_iff.1 hd
  simp [Text.indent, htitle, isBlank_of_not_isMark hmark]

theorem isTrimmed_lines (convention : Convention) :
    ∀ line ∈ c.lines convention, IsTrimmed line ∧ line ≠ [] := by
  cases convention with
  | google =>
    have hcolon : IsTrimmed [':'] :=
      ⟨forall_mem_of_all (by decide), fun d hd => by rw [← Option.some.inj hd]; rfl⟩
    exact List.forall_mem_singleton.2
      ⟨hcolon.append c.isTrimmed_title.space (List.cons_ne_nil _ _), by simp⟩
  | numpy =>
    exact List.forall_mem_cons.2 ⟨⟨c.isTrimmed_title, c.title_ne_nil⟩,
      List.forall_mem_singleton.2 ⟨c.isTrimmed_underline, c.underline_ne_nil⟩⟩

/-- What a section begins with, in either convention. -/
theorem exists_lines (convention : Convention) :
    ∃ t more, c.lines convention = (c.title ++ t) :: more := by
  cases convention with
  | google => exact ⟨[':'], [], rfl⟩
  | numpy => exact ⟨[], [c.underline], by rw [List.append_nil]; rfl⟩

/-- The title stands at the margin. -/
theorem exists_indent (convention : Convention) :
    ∃ line ∈ c.lines convention, line ≠ [] ∧ Text.indent line = 0 := by
  obtain ⟨t, more, hlines⟩ := c.exists_lines convention
  rw [hlines]
  exact ⟨c.title ++ t, List.mem_cons_self, List.append_ne_nil_of_left_ne_nil c.title_ne_nil t,
    c.indent_title t⟩

/-- No section opens in prose above a heading, nor in the empty lines between. -/
theorem unopened_above {convention : Convention} {summary gap : List Text}
    (hsummary : IsProseLines summary) (hgap : ∀ line ∈ gap, line = []) (body : List Text) :
    Unopened convention (c.lines convention ++ body) (summary ++ gap) := by
  refine unopened_of_prose (fun line hline => ?_) ?_
  · exact (List.mem_append.1 hline).elim
      (fun hline => Or.inr (endsInProse_of_isProse (hsummary.prose line hline)))
      fun hline => Or.inl (hgap line hline)
  · obtain ⟨t, more, hlines⟩ := c.exists_lines convention
    rw [hlines]
    rintro next ⟨⟩
    exact c.isUnderline_title t

/-- An underlined heading has no colon. -/
theorem ofColonLine?_lines : ∀ line ∈ c.lines .numpy, Heading.ofColonLine? line = none := by
  refine List.forall_mem_cons.2 ⟨?_, List.forall_mem_singleton.2 ?_⟩
  · refine ofColonLine?_of_last fun he => ?_
    obtain ⟨d, hd, hmark⟩ := c.isTitle.last
    rw [he] at hd
    obtain rfl := Option.some.inj hd
    revert hmark
    decide
  · -- an underline can be made of colons, but what stands before the last is no title
    cases hbefore : before? [':'] c.underline with
    | none => rw [Heading.ofColonLine?, hbefore, Option.bind_none]
    | some lead =>
      have hline := before?_eq_some_iff.1 hbefore
      obtain ⟨hlen, hall⟩ := c.underlined
      obtain ⟨d, t, rfl⟩ : ∃ d t, lead = d :: t := by
        refine List.exists_cons_of_ne_nil fun hnil => ?_
        rw [hline, hnil] at hlen
        revert hlen
        decide
      have hmark := isMark_of_isUnderlineCharacter (hall d (by simp [hline]))
      rw [Heading.ofColonLine?, hbefore, Option.bind_some, ofTitle?_of_mark rfl hmark]

variable {convention : Convention} {body : List Text}

/-- A section opens at its heading. -/
theorem opening?_lines (hbody : convention = .google → 0 < (firstIndent? body).getD 0) :
    opening? convention (c.lines convention ++ body) = some (.heading c.heading, body) := by
  cases convention with
  | google =>
    have hcolon : Heading.ofColonLine? (c.title ++ [':']) = some c.heading := by
      rw [Heading.ofColonLine?, before?_eq_some_iff.2 rfl, Option.bind_some, c.ofTitle?]
    change opening? .google ((c.title ++ [':']) :: body) = _
    rw [opening?, hcolon, Option.bind_some, if_pos (hbody rfl)]
  | numpy =>
    change opening? .numpy (c.title :: c.underline :: body) = _
    unfold opening?
    dsimp only
    rw [c.ofTitle?]
    dsimp only
    rw [if_pos c.isUnderline_underline]

end Caption

/-- A section is written as its items, and the rest is left for later. -/
theorem Caption.canonicalParts_lines (c : Caption) {convention : Convention} {drafts : List Draft}
    {n : Nat} {rest : List Text} (hn : convention = .google → 0 < n) (hne : drafts ≠ [])
    (hdrafts : ∀ draft ∈ drafts, draft.HangsAt n)
    (h : Unbroken convention (some n) rest (drafts.flatMap Draft.lines))
    (hrest : isBreak convention (some n) rest = true)
    (hitems : ∀ item ∈ drafts.map (Draft.item convention c.kind.form),
      canonical convention item.description = item.description ∧ item.isEmpty = false) :
    canonicalParts convention (canonical convention) true
        (c.lines convention ++ (drafts.flatMap Draft.lines ++ rest)) =
      itemLines (drafts.map (Draft.item convention c.kind.form)) c.heading ++
        canonicalParts convention (canonical convention) true rest := by
  have hindent := (firstIndent?_drafts hne hdrafts rest).1
  have hopening : opening? convention (c.lines convention ++
      (drafts.flatMap Draft.lines ++ rest)) =
        some (.heading c.heading, drafts.flatMap Draft.lines ++ rest) :=
    c.opening?_lines fun hgoogle => by rw [hindent]; exact hn hgoogle
  have hform : Heading.form? convention c.heading = some c.kind.form := form?_heading ..
  have hnext : nextPart convention true
      (c.lines convention ++ (drafts.flatMap Draft.lines ++ rest)) =
      (.items c.heading (drafts.map (Draft.item convention c.kind.form)), rest) := by
    rw [nextPart, hopening]
    exact takeBody_drafts hform hne hdrafts h hrest
  obtain ⟨t, more, hlines⟩ := c.exists_lines convention
  rw [hlines, List.cons_append] at hnext ⊢
  rw [canonicalParts_cons, hnext]
  dsimp only
  rw [mapDescriptions_items hitems, Bool.true_or]
  rfl

end Outline
end CallDoc
