import CallDoc.Proofs.Outline.Sheet
import CallDoc.Proofs.Section.Reference

/-!
Items of an errors section. An item is about names, with commas or spaces between them, or about a
cross reference. That becomes the header of a field, and a reference to a name is called by the
name alone. The reader of fields takes the header apart again by its number of words, and of a
header that has more than one word after its role it knows no error.
-/
namespace CallDoc

open Text Section

/-- Names with commas and spaces between them, or other words that hold no colon. -/
structure Text.IsNames (t : Text) : Prop where
  solid : IsSolid t
  space : ∀ c ∈ t, isBlank c = true → c = ' '
  colon : ':' ∉ t
  unstarred : t.head? ≠ some '*'
  unescaped : t.getLast? ≠ some '\\'

/-- What the header of a field says behind its role. -/
structure Text.IsHeader (t : Text) : Prop where
  solid : IsSolid t
  space : ∀ c ∈ t, isBlank c = true → c = ' '
  colon : StaysOpen t
  unescaped : t.getLast? ≠ some '\\'

namespace Outline

/-! ## Subjects -/

/-- What an item of an errors section is about. -/
inductive Subject
  | names (t : Text)
  | reference (role target : Text)
  deriving DecidableEq, Repr

namespace Subject

def spelling : Subject → Text
  | names t => t
  | reference role target => Section.reference role target

def IsValid : Subject → Prop
  | names t => IsNames t
  | reference role target => IsReference role target

/-- The header that is written for the subject. -/
def header (s : Subject) : Text := errorName s.spelling

variable {s : Subject}

theorem isItemHead_spelling (h : s.IsValid) : IsItemHead s.spelling := by
  cases s with
  | names t =>
    exact ⟨h.solid, h.space, isIndexEntry_of_not_mem h.colon,
      fun he => h.colon (List.mem_of_getLast? he)⟩
  | reference role target =>
    have hlast : (Section.reference role target).getLast? = some '\x60' := List.getLast?_concat
    refine ⟨isSolid_reference role target, fun _ => h.blank, isIndexEntry_of_head ?_, ?_⟩
    · exact fun he => absurd (Option.some.inj he) (by decide)
    · rw [spelling, hlast]
      exact fun he => absurd (Option.some.inj he) (by decide)

theorem escapeStars_spelling (h : s.IsValid) : escapeStars s.spelling = s.spelling := by
  cases s with
  | names t => exact escapeStars_of_head h.unstarred
  | reference role target => rfl

theorem partition_spelling (h : s.IsValid) {description : Text} (hdescription : IsSolid description)
    (n : Nat) : partition (spaces n ++ s.spelling ++ ": ".toList ++ description) =
      (s.spelling, some description) := by
  cases s with
  | names t => exact partition_item h.solid h.colon hdescription n
  | reference role target => exact partition_reference h hdescription n

theorem header_names {t : Text} (h : IsNames t) : (names t).header = t :=
  errorName_eq h.solid fun he => h.colon (List.mem_of_head? he)

theorem isHeader_of_isObjectCharacter {t : Text} (hne : t ≠ [])
    (h : ∀ c ∈ t, isObjectCharacter c = true) : IsHeader t ∧ ' ' ∉ t := by
  have hnot {c : Char} (hc : isObjectCharacter c = false) : c ∉ t := fun hmem => by
    rw [h c hmem] at hc
    cases hc
  have htoken : IsToken t := by
    refine ⟨hne, fun c hc => ?_⟩
    have hobject := h c hc
    simp only [isObjectCharacter, Bool.or_eq_true, beq_iff_eq] at hobject
    rcases hobject with ((hletter | rfl) | rfl) | rfl
    · exact isBlank_of_isProseCharacter (isProseCharacter_of_isLetterOrDigit hletter)
    all_goals rfl
  refine ⟨⟨htoken.isSolid, fun c hc hblank => ?_, staysOpen_of_not_mem (hnot rfl),
    fun he => hnot (by decide) (List.mem_of_getLast? he)⟩, hnot rfl⟩
  rw [htoken.blank c hc] at hblank
  cases hblank

theorem isHeader_reference {role target : Text} (h : IsReference role target) :
    IsHeader (Section.reference role target) where
  solid := isSolid_reference role target
  space _ := h.blank
  colon := h.staysOpen
  unescaped := by
    have hlast : (Section.reference role target).getLast? = some '\x60' := List.getLast?_concat
    rw [hlast]
    exact fun he => absurd (Option.some.inj he) (by decide)

/-- The header can be read, and it is one word if the subject is. -/
theorem isHeader_header (h : s.IsValid) :
    IsHeader s.header ∧ (' ' ∈ s.header ↔ ' ' ∈ s.spelling) := by
  cases s with
  | names t =>
    rw [header_names h]
    exact ⟨⟨h.solid, h.space, staysOpen_of_not_mem h.colon, h.unescaped⟩, Iff.rfl⟩
  | reference role target =>
    rw [header, spelling, errorName_reference h]
    split
    · rename_i hname
      have hobject := List.all_eq_true.1 (Bool.and_eq_true_iff.1 hname).2
      obtain ⟨hheader, hspace⟩ := isHeader_of_isObjectCharacter h.ne_nil hobject
      exact ⟨hheader, iff_of_false hspace (mt h.space_mem_iff.1 hspace)⟩
    · exact ⟨isHeader_reference h, Iff.rfl⟩

end Subject

/-! ## Cautions -/

/-- What errors there are to be expected, and lines of prose on them of which all but the first are
written `hang` columns further to the right. -/
structure Caution where
  subject : Subject
  first : Text
  more : List Text
  hang : Nat
  valid : subject.IsValid
  prose : ∀ line ∈ first :: more, isProse line = true
  hangs : 0 < hang

namespace Caution

variable (c : Caution) {convention : Convention} {n : Nat}

def topic : Topic :=
  ⟨c.subject.spelling, c.first, c.more, c.hang, Subject.isItemHead_spelling c.valid, c.prose,
    c.hangs⟩

/-- The field that the caution becomes. -/
def field : Field := ⟨"raises".toList, c.subject.header, 4, c.topic.lines⟩

/-- The error that the field is about, if it is about one. -/
def raised? : Option Text :=
  match words c.subject.header with
  | [name] => some (Frame.plainName name)
  | _ => none

theorem isLaid_field : c.field.IsLaid := by
  have hrole : "raises".toList ∈ Field.roles := by decide
  obtain ⟨hheader, -⟩ := Subject.isHeader_header c.valid
  exact ⟨hrole, hheader.solid, hheader.colon, hheader.space, hheader.unescaped,
    Nat.succ_pos 3, c.topic.isProseLines⟩

/-- The header is read if it is one word. -/
theorem header?_field :
    c.field.header? = c.raised?.map fun name => (FieldRole.raises, none, name) := by
  have hrole : IsWord "raises".toList := Field.isWord_of_mem_roles (by decide)
  have hraises : FieldRole.ofWord "raises".toList = .raises := by decide
  have hheader : words (c.field.role ++ ' ' :: c.field.name) =
      "raises".toList :: words c.subject.header := words_append hrole.isToken _
  rw [Field.header?, Frame.readHeader?, hheader, raised?]
  rcases words c.subject.header with _ | ⟨name, _ | ⟨next, _ | ⟨last, more⟩⟩⟩
  · rfl
  · dsimp only
    rw [hraises]
    rfl
  · dsimp only
    rw [hraises]
    rfl
  · rfl

/-- An error is lost if there is a space in what it is called. -/
theorem raised?_eq : c.raised? =
    if ' ' ∈ c.subject.spelling then none else some (Frame.plainName c.subject.header) := by
  obtain ⟨hheader, hspace⟩ := Subject.isHeader_header c.valid
  have hword (w : Text) := words_eq_singleton_iff (w := w) hheader.solid hheader.space
  by_cases hmem : ' ' ∈ c.subject.spelling
  · rw [if_pos hmem, raised?]
    split
    · rename_i name hname
      exact absurd (hspace.2 hmem) ((hword name).1 hname).1
    · rfl
  · rw [if_neg hmem, raised?, (hword _).2 ⟨mt hspace.1 hmem, rfl⟩]

/-! ## Cautions in a section -/

/-- The item that is read has its subject in the place of the type. -/
theorem item_topic (n : Nat) : (c.topic.draft n convention).item convention Kind.errors.form =
    ⟨[], c.subject.spelling, c.topic.lines⟩ := by
  have hstars := Subject.escapeStars_spelling c.valid
  refine c.topic.item_draft ?_
  cases convention with
  | google =>
    have hfirst := isSolid_of_isProse (c.prose c.first List.mem_cons_self)
    have hpartition := Subject.partition_spelling c.valid hfirst n
    rw [List.append_assoc, List.append_assoc, ← List.append_assoc c.subject.spelling] at hpartition
    rw [← hstars]
    exact ofLine_google_error hpartition
  | numpy =>
    rw [← hstars]
    exact ofLine_numpy_error (Subject.isItemHead_spelling c.valid).solid

theorem joins_errorField :
    Joins [errorField ⟨[], c.subject.spelling, c.topic.lines⟩] c.field.lines := by
  have hne : errorName c.subject.spelling ≠ [] := (Subject.isHeader_header c.valid).1.solid.ne_nil
  have hdescribed : described ⟨[], c.subject.spelling, c.topic.lines⟩ = c.first :: c.more :=
    c.topic.described_item _ _
  have hfield : errorField ⟨[], c.subject.spelling, c.topic.lines⟩ = unlines c.field.lines :=
    errorField_eq hne hdescribed
  rw [hfield]
  exact joins_singleton (List.cons_ne_nil _ _)

end Caution
end Outline
end CallDoc
