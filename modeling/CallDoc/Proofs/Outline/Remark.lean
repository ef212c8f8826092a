import CallDoc.Proofs.Outline.Sheet

/-!
Items of a parameters section that stand for more than one name, or for none: some words, with a
description behind them or below. The words become the header of a field as they are, and the
reader of fields takes the header apart again by its number of words: of two words the first is
a type, and a header of more is no header of a field.
-/
namespace CallDoc

open Text Section

/-! ## Words in a header -/

/-- Words that stay together in the header of a field: no colon is in them, and none of the
colons behind them is escaped. -/
structure Text.IsPhrase (words : List Text) : Prop where
  ne_nil : words ≠ []
  token : ∀ w ∈ words, IsToken w
  colon : ∀ w ∈ words, ':' ∉ w
  unescaped : (joinWith [' '] words).getLast? ≠ some '\\'

instance (words : List Text) : Decidable (IsPhrase words) :=
  decidable_of_iff (words ≠ [] ∧ (∀ w ∈ words, IsToken w) ∧ (∀ w ∈ words, ':' ∉ w) ∧
      (joinWith [' '] words).getLast? ≠ some '\\')
    ⟨fun h => ⟨h.1, h.2.1, h.2.2.1, h.2.2.2⟩,
      fun h => ⟨h.ne_nil, h.token, h.colon, h.unescaped⟩⟩

theorem Text.IsPhrase.isSolid {words : List Text} (h : IsPhrase words) :
    IsSolid (joinWith [' '] words) :=
  isSolid_joinWith [' '] h.ne_nil fun w hw => (h.token w hw).isSolid

theorem Text.IsPhrase.not_mem {words : List Text} (h : IsPhrase words) :
    ':' ∉ joinWith [' '] words := fun hmem =>
  (mem_joinWith hmem).elim (by decide) fun ⟨w, hw, hc⟩ => h.colon w hw hc

theorem Text.IsPhrase.space {words : List Text} (h : IsPhrase words) :
    ∀ c ∈ joinWith [' '] words, isBlank c = true → c = ' ' := fun c hc hblank =>
  (mem_joinWith hc).elim List.mem_singleton.1 fun ⟨w, hw, hc⟩ => by
    rw [(h.token w hw).blank c hc] at hblank
    cases hblank

namespace Section

variable {t rest : Text}

/-- Stars at the start get a backslash each, and nothing else changes. -/
theorem escapeStars_cases (t : Text) : escapeStars t = t ∨
    (∃ u, t = '*' :: '*' :: u ∧ escapeStars t = "\\*\\*".toList ++ u) ∨
    ∃ u, t = '*' :: u ∧ escapeStars t = "\\*".toList ++ u := by
  unfold escapeStars
  split
  · exact Or.inr (Or.inl ⟨_, rfl, rfl⟩)
  · exact Or.inr (Or.inr ⟨_, rfl, rfl⟩)
  · exact Or.inl rfl

theorem mem_escapeStars {c : Char} (h : c ∈ escapeStars t) : c = '\\' ∨ c ∈ t := by
  rcases escapeStars_cases t with he | ⟨u, rfl, he⟩ | ⟨u, rfl, he⟩
  · exact Or.inr (he ▸ h)
  · rw [he] at h
    simp at h ⊢
    tauto
  · rw [he] at h
    simp at h ⊢
    tauto

theorem getLast?_escapeStars (t : Text) : (escapeStars t).getLast? = t.getLast? := by
  rcases escapeStars_cases t with he | ⟨u, rfl, he⟩ | ⟨u, rfl, he⟩
  · rw [he]
  · rw [he]
    cases u <;> simp [List.getLast?_cons]
  · rw [he]
    cases u <;> simp [List.getLast?_cons]

theorem escapeStars_append (hne : t ≠ []) (rest : Text) :
    escapeStars (t ++ ' ' :: rest) = escapeStars t ++ ' ' :: rest := by
  obtain ⟨c, u, rfl⟩ := List.exists_cons_of_ne_nil hne
  by_cases hc : c = '*'
  · subst hc
    cases u with
    | nil => rfl
    | cons d v =>
      by_cases hd : d = '*'
      · subst hd
        rfl
      · simp [escapeStars, hd]
  · simp [escapeStars, hc]

theorem plainName_escapeStars (t : Text) :
    Frame.plainName (escapeStars t) = Frame.plainName t := by
  rcases escapeStars_cases t with he | ⟨u, rfl, he⟩ | ⟨u, rfl, he⟩
  · rw [he]
  · rw [he]
    simp [Frame.plainName]
  · rw [he]
    simp [Frame.plainName]

theorem escapeStars_joinWith {w : Text} (hne : w ≠ []) (more : List Text) :
    escapeStars (joinWith [' '] (w :: more)) = joinWith [' '] (escapeStars w :: more) := by
  cases more with
  | nil => rw [joinWith, joinWith, List.intercalate_singleton, List.intercalate_singleton]
  | cons next more =>
    rw [joinWith_cons_cons, joinWith_cons_cons, List.singleton_append, escapeStars_append hne]

theorem isToken_escapeStars (h : IsToken t) : IsToken (escapeStars t) := by
  refine ⟨?_, fun c hc => ?_⟩
  · rcases escapeStars_cases t with he | ⟨u, -, he⟩ | ⟨u, -, he⟩
    · rw [he]
      exact h.ne_nil
    · rw [he]
      exact List.cons_ne_nil _ _
    · rw [he]
      exact List.cons_ne_nil _ _
  · rcases mem_escapeStars hc with rfl | hc
    · rfl
    · exact h.blank c hc

/-- Escaped words are words. -/
theorem isPhrase_escapeStars {w : Text} {more : List Text} (h : IsPhrase (w :: more)) :
    IsPhrase (escapeStars w :: more) := by
  obtain ⟨htoken, htokens⟩ := List.forall_mem_cons.1 h.token
  obtain ⟨hcolon, hcolons⟩ := List.forall_mem_cons.1 h.colon
  refine ⟨List.cons_ne_nil _ _, List.forall_mem_cons.2 ⟨isToken_escapeStars htoken, htokens⟩,
    List.forall_mem_cons.2 ⟨fun hmem => ?_, hcolons⟩, ?_⟩
  · exact (mem_escapeStars hmem).elim (by decide) hcolon
  · rw [← escapeStars_joinWith htoken.ne_nil, getLast?_escapeStars]
    exact h.unescaped

end Section

namespace Outline

/-! ## Remarks -/

/-- Some words, and lines of prose on them of which all but the first are written `hang` columns
further to the right. -/
structure Remark where
  words : List Text
  first : Text
  more : List Text
  hang : Nat
  phrase : IsPhrase words
  prose : ∀ line ∈ first :: more, isProse line = true
  hangs : 0 < hang

namespace Remark

def lines (r : Remark) : List Text := r.first :: r.more

def spelling (r : Remark) : Text := joinWith [' '] r.words

/-- The remark as an item of a section: `words: description`, or the words with the description
below. No type is declared. -/
def draft (n : Nat) (r : Remark) : Convention → Draft
  | .google => ⟨spaces n ++ (r.spelling ++ ": ".toList ++ r.first), pad (n + r.hang) r.more⟩
  | .numpy => ⟨r.spelling, pad r.hang r.lines⟩

/-- The field that the remark becomes. -/
def field (keyword : Bool) (r : Remark) : Field :=
  ⟨(paramRoles keyword).1, escapeStars r.spelling,
    (fieldMark (paramRoles keyword).1 (escapeStars r.spelling)).length + 1, r.lines⟩

/-- The parameter that the field is about, if it is about one. -/
def parameter? (r : Remark) : Option Text :=
  match r.words with
  | [name] | [_, name] => some (Frame.plainName name)
  | _ => none

/-- The type that the field declares. -/
def type? (r : Remark) : Option Text :=
  match r.words with
  | [type, _] => some (escapeStars type)
  | _ => none

variable (r : Remark) {convention : Convention} {n : Nat}

theorem isProseLines : IsProseLines r.lines := ⟨List.cons_ne_nil _ _, r.prose⟩

theorem exists_escaped : ∃ w more, r.words = w :: more ∧ IsPhrase (escapeStars w :: more) ∧
    escapeStars r.spelling = joinWith [' '] (escapeStars w :: more) := by
  obtain ⟨w, more, hwords⟩ := List.exists_cons_of_ne_nil r.phrase.ne_nil
  have hphrase := r.phrase
  rw [hwords] at hphrase
  have hne := (hphrase.token w List.mem_cons_self).ne_nil
  refine ⟨w, more, hwords, isPhrase_escapeStars hphrase, ?_⟩
  rw [spelling, hwords, escapeStars_joinWith hne]

theorem isLaid_field (keyword : Bool) : (r.field keyword).IsLaid := by
  obtain ⟨w, more, -, hphrase, hspelling⟩ := r.exists_escaped
  have hname : (r.field keyword).name = joinWith [' '] (escapeStars w :: more) := hspelling
  refine ⟨(paramRoles_mem keyword).1, ?_, ?_, ?_, ?_, Nat.succ_pos _, r.isProseLines⟩ <;>
    rw [hname]
  · exact hphrase.isSolid
  · exact staysOpen_of_not_mem hphrase.not_mem
  · exact hphrase.space
  · exact hphrase.unescaped

/-- The header is read by its number of words. -/
theorem header?_field (keyword : Bool) : (r.field keyword).header? =
    r.parameter?.map fun name => (FieldRole.param, r.type?, name) := by
  obtain ⟨w, more, hwords, hphrase, hspelling⟩ := r.exists_escaped
  have hrole := Field.isWord_of_mem_roles (paramRoles_mem keyword).1
  have hparam : FieldRole.ofWord (paramRoles keyword).1 = .param := by cases keyword <;> rfl
  have hheader : Text.words ((r.field keyword).role ++ ' ' :: (r.field keyword).name) =
      (paramRoles keyword).1 :: escapeStars w :: more := by
    rw [field, words_append hrole.isToken, hspelling, words_joinWith hphrase.token]
  rw [Field.header?, Frame.readHeader?, hheader, parameter?, type?, hwords]
  rcases more with _ | ⟨name, _ | ⟨next, more⟩⟩
  · dsimp only
    rw [hparam, plainName_escapeStars]
    rfl
  · dsimp only
    rw [hparam, if_pos rfl]
    rfl
  · rfl

/-! ## Remarks in a section -/

theorem isItemHead_spelling : IsItemHead r.spelling :=
  ⟨r.phrase.isSolid, r.phrase.space, isIndexEntry_of_not_mem r.phrase.not_mem,
    fun he => r.phrase.not_mem (List.mem_of_getLast? he)⟩

def topic : Topic := ⟨r.spelling, r.first, r.more, r.hang, r.isItemHead_spelling, r.prose, r.hangs⟩

theorem draft_topic : r.topic.draft n convention = r.draft n convention := by
  cases convention <;> rfl

/-- No type is read from the section. -/
theorem item_topic (hparen : convention = .google → ')' ∉ r.spelling) (n : Nat) :
    (r.topic.draft n convention).item convention Kind.params.form =
      ⟨escapeStars r.spelling, [], r.lines⟩ := by
  refine r.topic.item_draft ?_
  have hsolid : IsSolid r.spelling := r.phrase.isSolid
  have hcolon : ':' ∉ r.spelling := r.phrase.not_mem
  rw [draft_topic]
  cases convention with
  | google =>
    have hfirst := isSolid_of_isProse (r.prose r.first List.mem_cons_self)
    rw [draft, ← List.append_assoc, ← List.append_assoc]
    exact ofLine_google hsolid hcolon (hparen rfl) hfirst Kind.params.form n
  | numpy => exact ofLine_numpy hsolid hcolon

theorem paramFields_item (keyword : Bool) :
    paramFields (paramRoles keyword).1 (paramRoles keyword).2
        ⟨escapeStars r.spelling, [], r.lines⟩ = (r.field keyword).lines := by
  have hdescribed : described ⟨escapeStars r.spelling, [], r.lines⟩ = r.first :: r.more :=
    r.topic.described_item _ _
  rw [paramFields_eq _ _ r.prose hdescribed]
  exact List.append_nil _

end Remark
end Outline
end CallDoc
