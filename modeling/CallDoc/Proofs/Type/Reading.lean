import CallDoc.Proofs.Results
import CallDoc.Type.Spelling

/-!
What the reader of spellings keeps. Its five functions call each other with a bound on the
nesting of their calls; whatever the steps of reading keep holds of all that they read, within
any bound. So a fact about spellings is shown by one case for each step.
-/
namespace CallDoc

open Text

namespace Spelling

/-- Properties of the text that is read, of what it is read as, and of the text that is left: of
a union, of the alternatives behind its first one, of one alternative, of an argument, and of
the arguments behind the first one. Every step of reading keeps them. -/
structure KeptByReading (Union : Text → Hint → Text → Prop)
    (Alternatives : Text → List Hint → Text → Prop) (Primary : Text → Hint → Text → Prop)
    (Entry : Text → Argument → Text → Prop) (Entries : Text → List Argument → Text → Prop) :
    Prop where
  union : ∀ {t first between more rest}, Primary t first between →
    Alternatives between more rest → Union t (.unionOf (first :: more)) rest
  noAlternative : ∀ t, Alternatives t [] t
  alternative : ∀ {t behind next between more rest}, eat? "|".toList t = some behind →
    Primary behind next between → Alternatives between more rest →
    Alternatives t (next :: more) rest
  absent : ∀ {t name rest}, name? t = some (name, rest) →
    name = "None".toList ∨ name = "NoneType".toList → Primary t .none rest
  named : ∀ {t name rest}, name? t = some (name, rest) → Primary t (.named name) rest
  generic : ∀ {t name behind opened first between more inside rest hint},
    name? t = some (name, behind) → eat? "[".toList behind = some opened →
    Entry opened first between → Entries between more inside →
    eat? "]".toList inside = some rest → generic name (first :: more) = .ok hint →
    Primary t hint rest
  ellipsis : ∀ {t rest}, eat? "...".toList t = some rest → Entry t .ellipsis rest
  literal : ∀ {t value rest}, literal? (trimStart t) = .ok (some (value, rest)) →
    Entry t (.literal value) rest
  type : ∀ {t hint rest}, Union t hint rest → Entry t (.type hint) rest
  noEntry : ∀ t, Entries t [] t
  entry : ∀ {t behind next between more rest}, eat? ",".toList t = some behind →
    Entry behind next between → Entries between more rest → Entries t (next :: more) rest

section Kept

variable {Union : Text → Hint → Text → Prop} {Alternatives : Text → List Hint → Text → Prop}
  {Primary : Text → Hint → Text → Prop} {Entry : Text → Argument → Text → Prop}
  {Entries : Text → List Argument → Text → Prop}
  (kept : KeptByReading Union Alternatives Primary Entry Entries)
include kept

mutual

theorem KeptByReading.of_union : ∀ {depth : Nat} {t rest : Text} {hint : Hint},
    Spelling.union depth t = .ok (hint, rest) → Union t hint rest
  | 0, _, _, _, h => nomatch h
  | depth + 1, t, rest, hint, h => by
    rw [Spelling.union] at h
    obtain ⟨⟨first, between⟩, hfirst, h⟩ := bind_eq_ok_iff.1 h
    obtain ⟨⟨more, after⟩, hmore, h⟩ := bind_eq_ok_iff.1 h
    obtain ⟨rfl, rfl⟩ := Prod.mk.inj (Except.ok.inj h)
    exact kept.union (KeptByReading.of_primary hfirst) (KeptByReading.of_moreAlternatives hmore)

theorem KeptByReading.of_moreAlternatives : ∀ {depth : Nat} {t rest : Text} {hints : List Hint},
    moreAlternatives depth t = .ok (hints, rest) → Alternatives t hints rest
  | 0, t, rest, hints, h => by
    obtain ⟨rfl, rfl⟩ := Prod.mk.inj (Except.ok.inj h)
    exact kept.noAlternative t
  | depth + 1, t, rest, hints, h => by
    rw [moreAlternatives] at h
    split at h
    · obtain ⟨rfl, rfl⟩ := Prod.mk.inj (Except.ok.inj h)
      exact kept.noAlternative t
    · rename_i behind hbar
      obtain ⟨⟨next, between⟩, hnext, h⟩ := bind_eq_ok_iff.1 h
      obtain ⟨⟨more, after⟩, hmore, h⟩ := bind_eq_ok_iff.1 h
      obtain ⟨rfl, rfl⟩ := Prod.mk.inj (Except.ok.inj h)
      exact kept.alternative hbar (KeptByReading.of_primary hnext)
        (KeptByReading.of_moreAlternatives hmore)

theorem KeptByReading.of_primary : ∀ {depth : Nat} {t rest : Text} {hint : Hint},
    primary depth t = .ok (hint, rest) → Primary t hint rest
  | 0, _, _, _, h => nomatch h
  | depth + 1, t, rest, hint, h => by
    rw [primary] at h
    split at h
    · cases h
    · rename_i name behind hname
      split at h
      · rename_i habsent
        obtain ⟨rfl, rfl⟩ := Prod.mk.inj (Except.ok.inj h)
        exact kept.absent hname habsent
      · split at h
        · obtain ⟨rfl, rfl⟩ := Prod.mk.inj (Except.ok.inj h)
          exact kept.named hname
        · rename_i opened hopen
          obtain ⟨⟨first, between⟩, hfirst, h⟩ := bind_eq_ok_iff.1 h
          obtain ⟨⟨more, inside⟩, hmore, h⟩ := bind_eq_ok_iff.1 h
          dsimp only at h
          split at h
          · cases h
          · rename_i closed hclose
            obtain ⟨generic, hgeneric, h⟩ := bind_eq_ok_iff.1 h
            obtain ⟨rfl, rfl⟩ := Prod.mk.inj (Except.ok.inj h)
            exact kept.generic hname hopen (KeptByReading.of_argument hfirst)
              (KeptByReading.of_moreArguments hmore) hclose hgeneric

theorem KeptByReading.of_argument : ∀ {depth : Nat} {t rest : Text} {entry : Argument},
    argument depth t = .ok (entry, rest) → Entry t entry rest
  | 0, _, _, _, h => nomatch h
  | depth + 1, t, rest, entry, h => by
    rw [argument] at h
    split at h
    · rename_i behind hdots
      obtain ⟨rfl, rfl⟩ := Prod.mk.inj (Except.ok.inj h)
      exact kept.ellipsis hdots
    · split at h
      · cases h
      · rename_i value behind hvalue
        obtain ⟨rfl, rfl⟩ := Prod.mk.inj (Except.ok.inj h)
        exact kept.literal hvalue
      · obtain ⟨⟨type, behind⟩, htype, h⟩ := bind_eq_ok_iff.1 h
        obtain ⟨rfl, rfl⟩ := Prod.mk.inj (Except.ok.inj h)
        exact kept.type (KeptByReading.of_union htype)

theorem KeptByReading.of_moreArguments : ∀ {depth : Nat} {t rest : Text}
    {entries : List Argument}, moreArguments depth t = .ok (entries, rest) → Entries t entries rest
  | 0, t, rest, entries, h => by
    obtain ⟨rfl, rfl⟩ := Prod.mk.inj (Except.ok.inj h)
    exact kept.noEntry t
  | depth + 1, t, rest, entries, h => by
    rw [moreArguments] at h
    split at h
    · obtain ⟨rfl, rfl⟩ := Prod.mk.inj (Except.ok.inj h)
      exact kept.noEntry t
    · rename_i behind hcomma
      obtain ⟨⟨next, between⟩, hnext, h⟩ := bind_eq_ok_iff.1 h
      obtain ⟨⟨more, after⟩, hmore, h⟩ := bind_eq_ok_iff.1 h
      obtain ⟨rfl, rfl⟩ := Prod.mk.inj (Except.ok.inj h)
      exact kept.entry hcomma (KeptByReading.of_argument hnext)
        (KeptByReading.of_moreArguments hmore)

end

end Kept

/-! ## Pieces and spellings -/

/-- A piece is one union from end to end. -/
theorem exists_union_of_whole {piece : Text} {hint : Hint} (h : whole piece = .ok hint) :
    ∃ depth rest, union depth piece = .ok (hint, rest) ∧ blank rest = true := by
  unfold whole at h
  split at h
  · cases h
  · rename_i read rest hunion
    split at h
    · rename_i hblank
      obtain rfl := Except.ok.inj h
      exact ⟨_, rest, hunion, hblank⟩
    · cases h

end Spelling

/-- A spelling denotes the union of what its pieces denote. -/
theorem Hint.ofSpelling_eq_ok_iff {t : Text} {hint : Hint} :
    ofSpelling t = .ok hint ↔
      ∃ hints, (Spelling.splitOr 0 t).mapM Spelling.whole = .ok hints ∧ unionOf hints = hint := by
  rw [ofSpelling]
  cases (Spelling.splitOr 0 t).mapM Spelling.whole <;> simp

end CallDoc
