import CallDoc.Doc.Declare
import CallDoc.Proofs.Markup.Hanging
import CallDoc.Proofs.Results
import CallDoc.Proofs.Section.ItemLine
import CallDoc.Section.Layout

/-!
Field lists written out and read again. A field is one line with its mark and the first line
of its body, and the other lines of the body below it; empty lines between fields mean
nothing.
-/
namespace CallDoc

open Text Section

/-- No colon in the text stands before a blank or at its end, as the one does that closes the header
of a field. -/
def Text.StaysOpen (t : Text) : Prop :=
  ∀ lead rest, t = lead ++ ':' :: rest → openStart rest = false

theorem Text.StaysOpen.tail {c : Char} {t : Text} (h : StaysOpen (c :: t)) : StaysOpen t :=
  fun lead rest he => h (c :: lead) rest (congrArg (List.cons c) he)

theorem Text.StaysOpen.cons {c : Char} {t : Text} (h : StaysOpen t)
    (hc : c = ':' → openStart t = false) : StaysOpen (c :: t) := by
  rintro (_ | ⟨d, lead⟩) rest he
  · obtain ⟨rfl, rfl⟩ := List.cons.inj he
    exact hc rfl
  · exact h lead rest (List.cons.inj he).2

theorem Text.StaysOpen.append_left {t : Text} (h : StaysOpen t) {lead : Text} (hlead : ':' ∉ lead) :
    StaysOpen (lead ++ t) := by
  induction lead with
  | nil => exact h
  | cons c lead ih =>
    rw [List.mem_cons, not_or] at hlead
    exact (ih hlead.2).cons fun hc => absurd hc.symm hlead.1

theorem Text.staysOpen_of_not_mem {t : Text} (h : ':' ∉ t) : StaysOpen t :=
  fun lead rest he => absurd (he ▸ by simp) h

/-- A field as it is written: its role and name, and a body of which all lines but the first
are indented by `pad`. -/
structure Field where
  role : Text
  name : Text
  pad : Nat
  body : List Text

namespace Field

def mark (f : Field) : Text := fieldMark f.role f.name

def lines (f : Field) : List Text :=
  match f.body with
  | [] => [f.mark]
  | first :: more => (f.mark ++ ' ' :: first) :: Text.pad f.pad more

/-- The roles that documentation is collected from. -/
def roles : List Text :=
  ["param".toList, "keyword".toList, "type".toList, "kwtype".toList, "raises".toList]

structure IsWritten (f : Field) : Prop where
  role : f.role ∈ roles
  name : IsWord f.name
  unescaped : f.name.getLast? ≠ some '\\'
  pad : 0 < f.pad
  body : IsProseLines f.body

/-- As `IsWritten`, with a name of any number of words. -/
structure IsLaid (f : Field) : Prop where
  role : f.role ∈ roles
  name : IsSolid f.name
  colon : StaysOpen f.name
  space : ∀ c ∈ f.name, isBlank c = true → c = ' '
  unescaped : f.name.getLast? ≠ some '\\'
  pad : 0 < f.pad
  body : IsProseLines f.body

theorem IsWritten.isLaid {f : Field} (h : f.IsWritten) : f.IsLaid where
  role := h.role
  name := h.name.isSolid
  colon := staysOpen_of_not_mem h.name.colon
  space c hc hblank := by
    rw [h.name.blank c hc] at hblank
    cases hblank
  unescaped := h.unescaped
  pad := h.pad
  body := h.body

/-- What is read of the words in front of the body. -/
def header? (f : Field) : Option (FieldRole × Option Text × Text) :=
  Frame.readHeader? (f.role ++ ' ' :: f.name)

/-- What the field adds to the declarations before it. -/
def declare (d : Declarations) (f : Field) : Except Error Declarations :=
  match FieldRole.ofWord f.role with
  | .param => d.declareParam .text (Frame.plainName f.name) none (.ok (unlines f.body))
  | .type => d.declareParam .type (Frame.plainName f.name) none (.ok (unlines f.body))
  | .raises => .ok { d with raises := d.raises ++ [Frame.plainName f.name] }
  | .other _ => .ok d

end Field

/-! ## The header of a field -/

theorem splitHeader?_append {previous : Char} {header : Text} (hcolon : StaysOpen header)
    (hlast : (previous :: header).getLast? ≠ some '\\') (rest : Text) :
    Frame.splitHeader? previous (header ++ ':' :: ' ' :: rest) = some (header, ' ' :: rest) := by
  induction header generalizing previous with
  | nil =>
    have hprevious : (previous != '\\') = true := bne_iff_ne.2 fun he => hlast (by rw [he]; rfl)
    rw [List.nil_append, Frame.splitHeader?, if_pos]
    rw [hprevious]
    rfl
  | cons c header ih =>
    have hopen (hc : c = ':') : openStart (header ++ ':' :: ' ' :: rest) = false := by
      have := hcolon [] header (by rw [hc, List.nil_append])
      cases header with
      | nil => cases this
      | cons d header => exact this
    have hgoes : (decide (c = ':') && previous != '\\' &&
        openStart (header ++ ':' :: ' ' :: rest)) = false := by
      by_cases hc : c = ':'
      · rw [hopen hc, Bool.and_false]
      · rw [decide_eq_false hc, Bool.false_and, Bool.false_and]
    rw [List.cons_append, Frame.splitHeader?, hgoes, if_neg Bool.false_ne_true,
      ih hcolon.tail hlast]
    rfl

theorem words_of_isToken {t : Text} (h : IsToken t) : words t = [t] := by
  obtain ⟨hne, hblank⟩ := h
  induction t with
  | nil => exact absurd rfl hne
  | cons c t ih =>
    obtain ⟨hc, hmore⟩ := List.forall_mem_cons.1 hblank
    cases t with
    | nil => rw [words, hc]; rfl
    | cons d t =>
      have hd := hmore d List.mem_cons_self
      rw [words, hc, if_neg Bool.false_ne_true, if_neg (by simp [openStart, hd]),
        ih (List.cons_ne_nil d t) hmore]
      rfl

theorem words_append {t : Text} (h : IsToken t) (rest : Text) :
    words (t ++ ' ' :: rest) = t :: words rest := by
  obtain ⟨hne, hblank⟩ := h
  induction t with
  | nil => exact absurd rfl hne
  | cons c t ih =>
    obtain ⟨hc, hmore⟩ := List.forall_mem_cons.1 hblank
    have hspace : words (' ' :: rest) = words rest := by rw [words, if_pos (by decide)]
    have hopen : openStart (' ' :: rest) = true := rfl
    cases t with
    | nil =>
      rw [List.cons_append, List.nil_append, words, hc, if_neg Bool.false_ne_true,
        if_pos hopen, hspace]
    | cons d t =>
      have hd := hmore d List.mem_cons_self
      rw [List.cons_append, words, hc, if_neg Bool.false_ne_true,
        if_neg (by simp [openStart, hd]), ih (List.cons_ne_nil d t) hmore]
      rfl

theorem words_joinWith {tokens : List Text} (h : ∀ t ∈ tokens, IsToken t) :
    words (joinWith [' '] tokens) = tokens := by
  induction tokens with
  | nil => rfl
  | cons t more ih =>
    obtain ⟨ht, hmore⟩ := List.forall_mem_cons.1 h
    cases more with
    | nil => rw [joinWith, List.intercalate_singleton, words_of_isToken ht]
    | cons next more =>
      rw [joinWith_cons_cons, List.singleton_append, words_append ht, ih hmore]

theorem words_ne_nil {c : Char} {t : Text} (hc : c ∈ t) (hblank : isBlank c = false) :
    words t ≠ [] := by
  induction t with
  | nil => exact absurd hc List.not_mem_nil
  | cons d t ih =>
    rw [words]
    split
    · rename_i hd
      refine ih ((List.mem_cons.1 hc).resolve_left ?_)
      rintro rfl
      rw [hblank] at hd
      cases hd
    · split
      · exact List.cons_ne_nil _ _
      · cases words t <;> exact List.cons_ne_nil _ _

/-- A text is one word if there is no space in it, and otherwise it is more. -/
theorem words_eq_singleton_iff {t w : Text} (h : IsSolid t)
    (hspace : ∀ c ∈ t, isBlank c = true → c = ' ') : words t = [w] ↔ ' ' ∉ t ∧ t = w := by
  by_cases hmem : ' ' ∈ t
  · refine iff_of_false (fun hw => ?_) fun h => h.1 hmem
    obtain ⟨word, rest, rfl, hword⟩ := List.eq_append_cons_of_mem hmem
    obtain ⟨c, more, hhead, hc⟩ := h.head
    obtain ⟨init, d, hlast, hd⟩ := h.last
    have htoken : IsToken word := by
      refine ⟨?_, fun c hc => Bool.eq_false_iff.2 fun hblank => ?_⟩
      · rintro rfl
        rw [← (List.cons.inj hhead).1] at hc
        cases hc
      · exact hword (hspace c (List.mem_append_left _ hc) hblank ▸ hc)
    have hmore : d ∈ rest := by
      have hlast? : (word ++ ' ' :: rest).getLast? = some d := by rw [hlast, List.getLast?_concat]
      cases rest with
      | nil =>
        rw [List.getLast?_concat] at hlast?
        rw [← Option.some.inj hlast?] at hd
        cases hd
      | cons e rest =>
        rw [List.getLast?_append_of_ne_nil _ (List.cons_ne_nil _ _),
          List.getLast?_cons_cons] at hlast?
        exact List.mem_of_getLast? hlast?
    rw [words_append htoken] at hw
    exact words_ne_nil hmore hd (List.cons.inj hw).2
  · have htoken : IsToken t :=
      ⟨h.ne_nil, fun c hc => Bool.eq_false_iff.2 fun hblank => hmem (hspace c hc hblank ▸ hc)⟩
    rw [words_of_isToken htoken, and_iff_right hmem]
    exact ⟨fun he => (List.cons.inj he).1, fun he => by rw [he]⟩

namespace Frame

variable {role name : Text}

/-- The header of a field with a name, and the text behind it. -/
theorem fieldHeader?_fieldMark (hrole : IsWord role) (hname : IsSolid name)
    (hcolon : StaysOpen name) (hunescaped : name.getLast? ≠ some '\\') {first : Text}
    (hfirst : IsSolid first) :
    fieldHeader? (fieldMark role name ++ ' ' :: first) = some (role ++ ' ' :: name, first) := by
  obtain ⟨c, roleTail, hc⟩ := List.exists_cons_of_ne_nil hrole.ne_nil
  obtain ⟨nameInit, d, hd, hblank⟩ := hname.last
  have hcolon : StaysOpen (role ++ ' ' :: name) := by
    have hlead : ':' ∉ role ++ [' '] := by
      rw [List.mem_append, not_or]
      exact ⟨hrole.colon, by decide⟩
    rw [← List.singleton_append, ← List.append_assoc]
    exact hcolon.append_left hlead
  have hlast : (':' :: (role ++ ' ' :: name)).getLast? ≠ some '\\' := by
    rw [hd, List.getLast?_concat] at hunescaped
    have hshape : ':' :: (role ++ ' ' :: name) = (':' :: role ++ ' ' :: nameInit) ++ [d] := by
      simp [hd]
    rw [hshape, List.getLast?_concat]
    exact hunescaped
  have hshape : fieldMark role name ++ ' ' :: first =
      ':' :: (role ++ ' ' :: name ++ ':' :: ' ' :: first) := by
    simp [fieldMark]
  have hstart : (startsBlank (role ++ ' ' :: name ++ ':' :: ' ' :: first) ||
      (role ++ ' ' :: name ++ ':' :: ' ' :: first).head? == some ':') = false := by
    have hblank := hrole.blank c (hc ▸ List.mem_cons_self)
    have hne := (hrole.mark c (hc ▸ List.mem_cons_self)).1
    simp [hc, startsBlank, hblank, hne]
  have hends : endsBlank (role ++ ' ' :: name) = false := by
    have hshape : role ++ ' ' :: name = (role ++ ' ' :: nameInit) ++ [d] := by simp [hd]
    rw [endsBlank, hshape, List.getLast?_concat, Option.any_some, hblank]
  rw [hshape, fieldHeader?, hstart, splitHeader?_append hcolon hlast]
  simp only [hends, Bool.false_eq_true, if_false]
  have htrim : trimStart (' ' :: first) = first := hfirst.trimStart_append [' '] rfl
  rw [htrim]

theorem readHeader?_words (hrole : IsWord role) (hname : IsWord name) :
    readHeader? (role ++ ' ' :: name) = some (FieldRole.ofWord role, none, plainName name) := by
  rw [readHeader?, words_append hrole.isToken, words_of_isToken hname.isToken]

end Frame

namespace Field

variable {f : Field}

theorem role_facts : ∀ role ∈ roles, role ≠ [] ∧ role.all isLower = true := by decide

theorem isWord_of_mem_roles {role : Text} (h : role ∈ roles) : IsWord role := by
  obtain ⟨hne, hlower⟩ := role_facts role h
  have hprose (c : Char) (hc : c ∈ role) : isProseCharacter c = true :=
    isProseCharacter_of_isLetterOrDigit
      (by simp [isLetterOrDigit, isLetter, List.all_eq_true.1 hlower c hc])
  refine ⟨hne, fun c hc => isBlank_of_isProseCharacter (hprose c hc), fun c hc => ?_⟩
  exact ⟨ne_of_isProseCharacter (hprose c hc) (by decide),
    ne_of_isProseCharacter (hprose c hc) (by decide),
    ne_of_isProseCharacter (hprose c hc) (by decide)⟩

/-- The header and the text behind it are what the line was put together from. -/
theorem fieldHeader?_mark (h : f.IsLaid) {first : Text} (hfirst : IsSolid first) :
    Frame.fieldHeader? (f.mark ++ ' ' :: first) =
      some (f.role ++ ' ' :: f.name, first) :=
  Frame.fieldHeader?_fieldMark (isWord_of_mem_roles h.role) h.name h.colon h.unescaped hfirst

theorem header?_of_isWritten (h : f.IsWritten) :
    f.header? = some (FieldRole.ofWord f.role, none, Frame.plainName f.name) :=
  Frame.readHeader?_words (isWord_of_mem_roles h.role) h.name

theorem lines_eq {first : Text} {more : List Text} (hbody : f.body = first :: more) :
    f.lines = (f.mark ++ [' '] ++ first) :: Text.pad f.pad more := by
  rw [lines, hbody]
  simp

/-- A field starts with its mark. -/
theorem exists_lines (f : Field) : ∃ t more, f.lines = (f.mark ++ t) :: more := by
  unfold lines
  split
  · exact ⟨[], [], by rw [List.append_nil]⟩
  · exact ⟨_, _, rfl⟩

/-- The lines of a field end in prose, like those of its body. -/
theorem endsInProse (h : f.IsLaid) : ∀ line ∈ f.lines, EndsInProse line := by
  obtain ⟨first, more, hbody⟩ := List.exists_cons_of_ne_nil h.body.ne_nil
  have hprose := h.body.prose
  rw [hbody] at hprose
  obtain ⟨hfirst, hmore⟩ := List.forall_mem_cons.1 hprose
  have hspace : ∀ c ∈ f.mark ++ [' '], isBlank c = true → c = ' ' := by
    intro c hc hblank
    have hrole := (isWord_of_mem_roles h.role).blank
    simp only [mark, fieldMark, List.mem_append, List.mem_cons, List.not_mem_nil, or_false] at hc
    rcases hc with (((rfl | hc) | rfl | hc) | rfl) | rfl
    · cases hblank
    · rw [hrole c hc] at hblank
      cases hblank
    · rfl
    · exact h.space c hc hblank
    · cases hblank
    · rfl
  rw [lines_eq hbody, List.forall_mem_cons]
  refine ⟨⟨⟨_, first, rfl, hfirst, hspace⟩, ?_⟩, fun line hline => ?_⟩
  · exact fun he => absurd (Option.some.inj he) (by decide)
  · obtain ⟨t, ht, rfl⟩ := List.mem_map.1 hline
    exact endsInProse_spaces (hmore t ht) f.pad

end Field

end CallDoc
