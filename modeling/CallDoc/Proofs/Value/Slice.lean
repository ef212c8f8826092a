import CallDoc.Proofs.Text.Nesting
import CallDoc.Proofs.Value.Choice

/-!
Slices as they are written. A token is cut at the colons outside of quotes, and each part is a
bound that is left out, an integer or a string. Every slice is read back as it was written. The
reader looks at the two ends of a part only, so that it takes more than the grammar has: a part of
several strings, of which the first begins and the last ends with the same quote.
-/
namespace CallDoc

namespace Scalar

open Text

/-! ## Parts between colons -/

def IsQuote (c : Char) : Prop := c = '\x27' ∨ c = '\x22'

instance (c : Char) : Decidable (IsQuote c) := inferInstanceAs (Decidable (_ ∨ _))

/-- A text of which every quote is closed, without a colon outside of quotes. -/
inductive IsPart : Text → Prop
  | nil : IsPart []
  | plain {c : Char} {t : Text} (hcolon : c ≠ ':') (hquote : ¬IsQuote c) (more : IsPart t) :
    IsPart (c :: t)
  | quoted {quote : Char} {body t : Text} (hquote : IsQuote quote) (hbody : quote ∉ body)
      (more : IsPart t) : IsPart (quote :: (body ++ quote :: t))

/-- The parts of a token, which colons separate. -/
structure IsCut (token : Text) (parts : List Text) : Prop where
  nonempty : parts ≠ []
  joined : token = joinWith [':'] parts
  closed : ∀ part ∈ parts, IsPart part

theorem IsPart.append {s t : Text} (hs : IsPart s) (ht : IsPart t) : IsPart (s ++ t) := by
  induction hs with
  | nil => exact ht
  | plain hcolon hquote _ ih => exact .plain hcolon hquote ih
  | @quoted quote body s hquote hbody _ ih =>
    have heq : quote :: (body ++ quote :: s) ++ t = quote :: (body ++ quote :: (s ++ t)) := by simp
    rw [heq]
    exact .quoted hquote hbody ih

theorem isPart_of_plain {t : Text} (h : ∀ c ∈ t, c ≠ ':' ∧ ¬IsQuote c) : IsPart t := by
  induction t with
  | nil => exact .nil
  | cons c t ih =>
    obtain ⟨⟨hcolon, hquote⟩, hmore⟩ := List.forall_mem_cons.1 h
    exact .plain hcolon hquote (ih hmore)

/-- Up to the quote that closes it, a string is taken as it is. -/
theorem sliceParts?_string {quote : Char} {body : Text} (hbody : quote ∉ body) (t : Text) :
    sliceParts? (some quote) (body ++ quote :: t) =
      (sliceParts? none t).map ((body ++ [quote]).foldr extendFirst) := by
  induction body with
  | nil => simp [sliceParts?, nextQuote]
  | cons c body ih =>
    rw [List.mem_cons, not_or] at hbody
    have hnext : nextQuote (some quote) c = some quote := if_neg (Ne.symm hbody.1)
    rw [List.cons_append, sliceParts?, if_neg (by simp), hnext, ih hbody.2, Option.map_map]
    rfl

theorem sliceParts?_append {part : Text} (h : IsPart part) (t : Text) :
    sliceParts? none (part ++ t) = (sliceParts? none t).map (part.foldr extendFirst) := by
  induction h with
  | nil => exact (Option.map_id_apply).symm
  | @plain c part hcolon hquote _ ih =>
    have hnext : nextQuote none c = none := if_neg hquote
    rw [List.cons_append, sliceParts?, if_neg (by simp [hcolon]), hnext, ih, Option.map_map]
    rfl
  | @quoted quote body part hquote hbody _ ih =>
    have hcolon : quote ≠ ':' := by rcases hquote with rfl | rfl <;> decide
    have hnext : nextQuote none quote = some quote := if_pos hquote
    rw [List.cons_append, List.append_assoc, List.cons_append, sliceParts?,
      if_neg (by simp [hcolon]), hnext, sliceParts?_string hbody, ih, Option.map_map, Option.map_map]
    simp [Function.comp_def]

theorem sliceParts?_joinWith {parts : List Text} (hne : parts ≠ [])
    (h : ∀ part ∈ parts, IsPart part) : sliceParts? none (joinWith [':'] parts) = some parts := by
  induction parts with
  | nil => exact absurd rfl hne
  | cons part parts ih =>
    obtain ⟨hpart, hmore⟩ := List.forall_mem_cons.1 h
    cases parts with
    | nil =>
      have hone : joinWith [':'] [part] = part ++ [] := by simp [joinWith]
      rw [hone, sliceParts?_append hpart]
      simp [sliceParts?, foldr_extendFirst]
    | cons next parts =>
      have hrest := ih (List.cons_ne_nil _ _) hmore
      rw [joinWith_cons_cons, sliceParts?_append hpart]
      simp [sliceParts?, hrest, foldr_extendFirst]

/-- What is left of a part inside of a string, or outside of all. -/
def IsRest (quote? : Option Char) (t : Text) : Prop :=
  match quote? with
  | none => IsPart t
  | some quote => ∃ body rest, t = body ++ quote :: rest ∧ quote ∉ body ∧ IsPart rest

theorem IsRest.cons {quote? : Option Char} {c : Char} {t : Text}
    (hcolon : ¬(c = ':' ∧ quote? = none)) (h : IsRest (nextQuote quote? c) t) :
    IsRest quote? (c :: t) := by
  cases quote? with
  | none =>
    by_cases hc : IsQuote c
    · have hnext : nextQuote none c = some c := if_pos hc
      rw [hnext] at h
      obtain ⟨body, rest, rfl, hbody, hrest⟩ := h
      exact IsPart.quoted hc hbody hrest
    · have hnext : nextQuote none c = none := if_neg hc
      rw [hnext] at h
      exact IsPart.plain (fun he => hcolon ⟨he, rfl⟩) hc h
  | some quote =>
    by_cases hc : c = quote
    · have hnext : nextQuote (some quote) c = none := if_pos hc
      rw [hnext] at h
      exact ⟨[], t, by rw [hc]; rfl, List.not_mem_nil, h⟩
    · have hnext : nextQuote (some quote) c = some quote := if_neg hc
      rw [hnext] at h
      obtain ⟨body, rest, rfl, hbody, hrest⟩ := h
      exact ⟨c :: body, rest, rfl, by simp [Ne.symm hc, hbody], hrest⟩

/-- By induction along the token, with the rest of the part that the reader is in. -/
theorem exists_rest_of_sliceParts? {quote? : Option Char} {t : Text} {parts : List Text}
    (h : sliceParts? quote? t = some parts) :
    ∃ first more, parts = first :: more ∧ t = joinWith [':'] parts ∧ IsRest quote? first ∧
      ∀ part ∈ more, IsPart part := by
  induction t generalizing quote? parts with
  | nil =>
    rw [sliceParts?] at h
    cases quote? with
    | none =>
      obtain rfl := Option.some.inj h
      exact ⟨[], [], rfl, rfl, .nil, List.forall_mem_nil _⟩
    | some quote => cases h
  | cons c t ih =>
    rw [sliceParts?] at h
    split at h
    · rename_i hcut
      obtain ⟨rfl, rfl⟩ := hcut
      obtain ⟨parts, hparts, rfl⟩ := Option.map_eq_some_iff.1 h
      obtain ⟨first, more, rfl, rfl, hfirst, hmore⟩ := ih hparts
      exact ⟨[], first :: more, rfl, by rw [joinWith_cons_cons]; rfl, .nil,
        List.forall_mem_cons.2 ⟨hfirst, hmore⟩⟩
    · rename_i hcut
      obtain ⟨parts, hparts, rfl⟩ := Option.map_eq_some_iff.1 h
      obtain ⟨first, more, rfl, rfl, hfirst, hmore⟩ := ih hparts
      exact ⟨c :: first, more, rfl, (joinWith_extendFirst [':'] c (first :: more)).symm,
        hfirst.cons hcut, hmore⟩

theorem sliceParts?_eq_some_iff {token : Text} {parts : List Text} :
    sliceParts? none token = some parts ↔ IsCut token parts := by
  constructor
  · intro h
    obtain ⟨first, more, rfl, htoken, hfirst, hmore⟩ := exists_rest_of_sliceParts? h
    exact ⟨List.cons_ne_nil _ _, htoken, List.forall_mem_cons.2 ⟨hfirst, hmore⟩⟩
  · intro h
    rw [h.joined]
    exact sliceParts?_joinWith h.nonempty h.closed

/-! ## Bounds -/

/-- A bound as the grammar has it: left out, `None`, an integer, or one string in quotes. -/
inductive IsBound : Text → Option Bound → Prop
  | omitted : IsBound [] none
  | none : IsBound "None".toList none
  | int {t : Text} {n : Int} (h : int? t = some n) : IsBound t (some (.int n))
  | str {quote : Char} {body : Text} (hquote : IsQuote quote) (hbody : quote ∉ body) :
    IsBound (quote :: (body ++ [quote])) (some (.str body))

/-- A text between two quotes that do not belong together, since there are others in between. -/
inductive IsTorn : Text → Option Bound → Prop
  | str {quote : Char} {body : Text} (hquote : IsQuote quote) (hbody : quote ∈ body) :
    IsTorn (quote :: (body ++ [quote])) (some (.str body))

theorem unquote?_eq_some_iff {quote : Char} {t body : Text} :
    unquote? quote t = some body ↔ t = quote :: (body ++ [quote]) := by
  simp [unquote?, Option.bind_eq_some_iff, after?_eq_some_iff, before?_eq_some_iff]

theorem int?_quote {quote : Char} (hquote : IsQuote quote) (t : Text) :
    int? (quote :: t) = none := by
  have hblank : isBlank quote = false := by rcases hquote with rfl | rfl <;> decide
  have htrim : trim (quote :: t) = quote :: trimEnd t := by
    rw [trim, trimEnd, dropEndWhile_cons_of_neg hblank, trimStart_cons hblank, trimEnd]
  have hsign : Numeral.splitSign (quote :: trimEnd t) = (false, quote :: trimEnd t) := by
    rcases hquote with rfl | rfl <;> rfl
  have hdigits : Numeral.natural? (quote :: trimEnd t) = none := by
    rcases hquote with rfl | rfl <;> rfl
  rw [int?, htrim, Numeral.int64?, hsign]
  simp only [hdigits, Option.bind_none]

/-- A bound in quotes is read from one end to the other, whatever is in between. -/
theorem bound?_quoted {quote : Char} (hquote : IsQuote quote) (body : Text) :
    bound? (quote :: (body ++ [quote])) = some (some (.str body)) := by
  have hself : unquote? quote (quote :: (body ++ [quote])) = some body :=
    unquote?_eq_some_iff.2 rfl
  rcases hquote with rfl | rfl
  · simp [bound?, hself]
  · have hother : unquote? '\x27' ('\x22' :: (body ++ ['\x22'])) = none := rfl
    simp [bound?, hself, hother]

theorem exists_quoted_of_unquote? {t body : Text}
    (h : (unquote? '\x27' t).or (unquote? '\x22' t) = some body) :
    ∃ quote, IsQuote quote ∧ t = quote :: (body ++ [quote]) := by
  rcases Option.or_eq_some_iff.1 h with h | ⟨-, h⟩
  · exact ⟨_, Or.inl rfl, unquote?_eq_some_iff.1 h⟩
  · exact ⟨_, Or.inr rfl, unquote?_eq_some_iff.1 h⟩

theorem unquote?_of_int? {t : Text} {n : Int} (h : int? t = some n) :
    (unquote? '\x27' t).or (unquote? '\x22' t) = none := by
  refine Option.eq_none_iff_forall_ne_some.2 fun body hbody => ?_
  obtain ⟨quote, hquote, rfl⟩ := exists_quoted_of_unquote? hbody
  rw [int?_quote hquote] at h
  cases h

theorem bound?_eq_some_iff {t : Text} {b? : Option Bound} :
    bound? t = some b? ↔ IsBound t b? ∨ IsTorn t b? := by
  constructor
  · intro h
    rw [bound?] at h
    split at h
    · rename_i homitted
      obtain rfl := Option.some.inj h
      rcases homitted with hempty | rfl
      · obtain rfl := List.isEmpty_iff.1 hempty
        exact Or.inl .omitted
      · exact Or.inl .none
    · split at h
      · rename_i body hbody
        obtain rfl := Option.some.inj h
        obtain ⟨quote, hquote, rfl⟩ := exists_quoted_of_unquote? hbody
        by_cases hinside : quote ∈ body
        · exact Or.inr (.str hquote hinside)
        · exact Or.inl (.str hquote hinside)
      · obtain ⟨n, hn, rfl⟩ := Option.map_eq_some_iff.1 h
        exact Or.inl (.int hn)
  · rintro (h | h)
    · cases h with
      | omitted => rfl
      | none => rfl
      | @int _ n h =>
        have hempty : t ≠ [] := by rintro rfl; cases h
        have hnone : t ≠ "None".toList := by rintro rfl; cases h
        have hgiven : ¬(t.isEmpty = true ∨ t = "None".toList) := by
          rw [List.isEmpty_iff]
          exact not_or.2 ⟨hempty, hnone⟩
        rw [bound?, if_neg hgiven, unquote?_of_int? h]
        simp [h]
      | str hquote _ => exact bound?_quoted hquote _
    · cases h with
      | str hquote _ => exact bound?_quoted hquote _

/-! ## Slices -/

/-- The bounds of a slice in their order. A step that is left out needs no place of its own. -/
def Arranges (bounds : List (Option Bound)) (s : Slice) : Prop :=
  bounds = [s.start, s.stop, s.step] ∨ s.step = none ∧ bounds = [s.start, s.stop]

theorem exists_arranges_iff {bounds : List (Option Bound)} :
    (∃ s, Arranges bounds s) ↔ bounds.length = 2 ∨ bounds.length = 3 := by
  constructor
  · rintro ⟨s, rfl | ⟨-, rfl⟩⟩
    · exact Or.inr rfl
    · exact Or.inl rfl
  · intro h
    rcases bounds with _ | ⟨start, _ | ⟨stop, _ | ⟨step, _ | ⟨more, bounds⟩⟩⟩⟩
    · simp at h
    · simp at h
    · exact ⟨⟨start, stop, none⟩, Or.inr ⟨rfl, rfl⟩⟩
    · exact ⟨⟨start, stop, step⟩, Or.inl rfl⟩
    · simp at h

theorem slice?_eq_some_iff {token : Text} {s : Slice} :
    slice? token = some s ↔ ∃ parts bounds, IsCut token parts ∧
      List.Forall₂ (fun part b? => bound? (trim part) = some b?) parts bounds ∧
      Arranges bounds s := by
  simp only [slice?, Option.bind_eq_bind, Option.bind_eq_some_iff, sliceParts?_eq_some_iff,
    mapM_eq_some_iff]
  constructor
  · rintro ⟨parts, hcut, bounds, hbounds, h⟩
    refine ⟨parts, bounds, hcut, hbounds, ?_⟩
    split at h
    · obtain rfl := Option.some.inj h
      exact Or.inr ⟨rfl, rfl⟩
    · obtain rfl := Option.some.inj h
      exact Or.inl rfl
    · cases h
  · rintro ⟨parts, bounds, hcut, hbounds, rfl | ⟨hstep, rfl⟩⟩
    · exact ⟨parts, hcut, _, hbounds, rfl⟩
    · refine ⟨parts, hcut, _, hbounds, ?_⟩
      rw [← hstep]

/-- The ways to write a bound, or that there is none. -/
inductive Writes : Option Bound → Text → Prop
  | omitted : Writes none []
  | none : Writes none "None".toList
  | int {n : Int} (hlow : -0x8000000000000000 ≤ n) (hhigh : n < 0x8000000000000000) :
    Writes (some (.int n)) (ofInt n)
  | str {t : Text} (h : '\x27' ∉ t) : Writes (some (.str t)) ('\x27' :: (t ++ ['\x27']))

/-- A bound as it is written, with any blanks around it. -/
def WritesPart (b? : Option Bound) (part : Text) : Prop :=
  ∃ left text right, part = left ++ (text ++ right) ∧ blank left = true ∧ blank right = true ∧
    Writes b? text

variable {b? : Option Bound} {t part : Text}

theorem Writes.isBound (h : Writes b? t) : IsBound t b? := by
  cases h with
  | omitted => exact .omitted
  | none => exact .none
  | int hlow hhigh => exact .int (int?_ofInt hlow hhigh)
  | str h => exact .str (Or.inl rfl) h

theorem Writes.trim (h : Writes b? t) : trim t = t := by
  cases h with
  | omitted => rfl
  | none => rfl
  | @int n hlow hhigh => exact (isSolid_ofInt n).trim
  | @str body h =>
    have hblank : isBlank '\x27' = false := by decide
    exact IsSolid.trim ⟨⟨_, _, rfl, hblank⟩, '\x27' :: body, _, rfl, hblank⟩

theorem Writes.isPart (h : Writes b? t) : IsPart t := by
  cases h with
  | omitted => exact .nil
  | none => exact isPart_of_plain (forall_mem_of_all (by decide))
  | @int n hlow hhigh =>
    have hdigits (n : Nat) : ∀ c ∈ ofNat n, c ≠ ':' ∧ ¬IsQuote c := by
      intro c hc
      have hdigit := isDigit_of_mem_ofNat hc
      refine ⟨ne_of_class hdigit (by decide), ?_⟩
      rintro (rfl | rfl) <;> cases hdigit
    cases n with
    | ofNat n => exact isPart_of_plain (hdigits n)
    | negSucc n =>
      exact .plain (by decide) (by decide) (isPart_of_plain (hdigits (n + 1)))
  | str h => exact .quoted (Or.inl rfl) h .nil

theorem isPart_of_blank (h : blank t = true) : IsPart t := by
  refine isPart_of_plain fun c hc => ?_
  have hblank := List.all_eq_true.1 h c hc
  refine ⟨ne_of_class hblank (by decide), ?_⟩
  rintro (rfl | rfl) <;> cases hblank

theorem WritesPart.isPart (h : WritesPart b? part) : IsPart part := by
  obtain ⟨left, text, right, rfl, hleft, hright, htext⟩ := h
  exact (isPart_of_blank hleft).append (htext.isPart.append (isPart_of_blank hright))

theorem WritesPart.bound?_trim (h : WritesPart b? part) : bound? (Text.trim part) = some b? := by
  obtain ⟨left, text, right, rfl, hleft, hright, htext⟩ := h
  have hend : trimEnd (text ++ right) = trimEnd text :=
    dropEndWhile_append (List.all_eq_true.1 hright)
  have hpart : Text.trim (text ++ right) = text := by
    rw [Text.trim, hend, ← Text.trim, htext.trim]
  rw [trim_append hleft, hpart]
  exact bound?_eq_some_iff.2 (Or.inl htext.isBound)

/-- A slice is read back as it was written: three bounds between colons, each left out, an integer
or a string, or two of them where there is no step. -/
theorem slice?_joinWith {s : Slice} {start stop step : Text} (hstart : WritesPart s.start start)
    (hstop : WritesPart s.stop stop) (hstep : WritesPart s.step step) :
    slice? (joinWith [':'] [start, stop, step]) = some s ∧
      (s.step = none → slice? (joinWith [':'] [start, stop]) = some s) := by
  constructor
  · refine slice?_eq_some_iff.2 ⟨_, _, ⟨List.cons_ne_nil _ _, rfl, ?_⟩, ?_, Or.inl rfl⟩
    · simp [hstart.isPart, hstop.isPart, hstep.isPart]
    · simp [hstart.bound?_trim, hstop.bound?_trim, hstep.bound?_trim]
  · intro hnone
    refine slice?_eq_some_iff.2 ⟨_, _, ⟨List.cons_ne_nil _ _, rfl, ?_⟩, ?_, Or.inr ⟨hnone, rfl⟩⟩
    · simp [hstart.isPart, hstop.isPart]
    · simp [hstart.bound?_trim, hstop.bound?_trim]

/-- A string that holds a colon, a double quote and blanks, the least integer, and no step, with
blanks of several kinds around them. -/
theorem slice?_joinWith_extremes :
    let s : Slice := ⟨some (.str " a:\x22 ".toList), some (.int (-0x8000000000000000)), none⟩
    let start := "\t' a:\x22 '".toList
    let stop := " -9223372036854775808\u3000".toList
    (WritesPart s.start start ∧ WritesPart s.stop stop ∧ WritesPart s.step "None ".toList) ∧
      slice? "\t' a:\x22 ': -9223372036854775808\u3000:None ".toList = some s ∧
      slice? "\t' a:\x22 ': -9223372036854775808\u3000".toList = some s := by
  intro s start stop
  have hstart : WritesPart s.start start :=
    ⟨"\t".toList, _, [], rfl, rfl, rfl, .str (by decide)⟩
  have hstop : WritesPart s.stop stop :=
    ⟨" ".toList, _, "\u3000".toList, by decide +kernel, rfl, rfl, .int (by decide) (by decide)⟩
  have hstep : WritesPart s.step "None ".toList := ⟨[], _, " ".toList, rfl, rfl, rfl, .none⟩
  have hparts : joinWith [':'] [start, stop, "None ".toList] =
      "\t' a:\x22 ': -9223372036854775808\u3000:None ".toList := by decide +kernel
  have hstepless : joinWith [':'] [start, stop] =
      "\t' a:\x22 ': -9223372036854775808\u3000".toList := by decide +kernel
  obtain ⟨hthree, htwo⟩ := slice?_joinWith hstart hstop hstep
  rw [hparts] at hthree
  rw [hstepless] at htwo
  exact ⟨⟨hstart, hstop, hstep⟩, hthree, htwo rfl⟩

/-! ## The grammar -/

/-- Two or three parts between colons, each a bound with any blanks around it. -/
def IsSlice (token : Text) : Prop :=
  ∃ parts, IsCut token parts ∧ (parts.length = 2 ∨ parts.length = 3) ∧
    ∀ part ∈ parts, ∃ b?, IsBound (Text.trim part) b?

/-- Between the quotes of one string there is no such quote. -/
theorem not_mem_of_isBound {quote : Char} (hquote : IsQuote quote) {body : Text}
    (h : IsBound (quote :: (body ++ [quote])) b?) : quote ∉ body := by
  generalize ht : quote :: (body ++ [quote]) = t at h
  cases h with
  | omitted => cases ht
  | none =>
    obtain rfl : quote = 'N' := Option.some.inj (congrArg List.head? ht)
    exact absurd hquote (by decide)
  | int hint =>
    rw [← ht, int?_quote hquote] at hint
    cases hint
  | str _ hbody =>
    obtain ⟨rfl, hbodies⟩ := List.cons.inj ht
    obtain ⟨rfl, -⟩ := List.append_inj' hbodies rfl
    exact hbody

theorem IsTorn.not_isBound {other? : Option Bound} (h : IsTorn t b?) : ¬IsBound t other? := by
  intro hbound
  cases h with
  | str hquote hinside => exact not_mem_of_isBound hquote hbound hinside

theorem IsCut.unique {token : Text} {parts others : List Text} (h : IsCut token parts)
    (hothers : IsCut token others) : parts = others :=
  Option.some.inj ((sliceParts?_eq_some_iff.2 h).symm.trans (sliceParts?_eq_some_iff.2 hothers))

theorem isSome_slice?_iff {token : Text} : (slice? token).isSome = true ↔ ∃ parts,
    IsCut token parts ∧ (parts.length = 2 ∨ parts.length = 3) ∧
      ∀ part ∈ parts, ∃ b?, bound? (Text.trim part) = some b? := by
  simp only [Option.isSome_iff_exists, slice?_eq_some_iff]
  constructor
  · rintro ⟨s, parts, bounds, hcut, hbounds, hs⟩
    refine ⟨parts, hcut, hbounds.length_eq ▸ exists_arranges_iff.1 ⟨s, hs⟩, fun part hpart => ?_⟩
    obtain ⟨b?, -, hb⟩ := exists_of_mem_forall₂ hbounds.flip hpart
    exact ⟨b?, hb⟩
  · rintro ⟨parts, hcut, hlength, hbounds⟩
    let bounds := parts.map fun part => (bound? (Text.trim part)).getD none
    have hread : List.Forall₂ (fun part b? => bound? (Text.trim part) = some b?) parts bounds := by
      refine List.forall₂_map_right_iff.2 (List.forall₂_same.2 fun part hpart => ?_)
      obtain ⟨b?, hb⟩ := hbounds part hpart
      rw [hb, Option.getD_some]
    obtain ⟨s, hs⟩ := exists_arranges_iff.2 (hread.length_eq ▸ hlength)
    exact ⟨s, parts, bounds, hcut, hread, hs⟩

/-- What is read as a slice is cut at the colons outside of quotes, and each part is a bound or
torn: a text between two quotes that is no string. The grammar has exactly those of the tokens
read that have no torn part. -/
theorem slice?_grammar (token : Text) :
    (∀ s, slice? token = some s ↔ ∃ parts bounds, IsCut token parts ∧
      List.Forall₂ (fun part b? => IsBound (Text.trim part) b? ∨ IsTorn (Text.trim part) b?)
        parts bounds ∧ Arranges bounds s) ∧
    (IsSlice token ↔ (slice? token).isSome = true ∧
      ∀ parts, IsCut token parts → ∀ part ∈ parts, ∀ b?, ¬IsTorn (Text.trim part) b?) := by
  refine ⟨fun s => ?_, ?_⟩
  · simp only [← bound?_eq_some_iff]
    exact slice?_eq_some_iff
  rw [isSome_slice?_iff]
  constructor
  · rintro ⟨parts, hcut, hlength, hbounds⟩
    refine ⟨⟨parts, hcut, hlength, fun part hpart => ?_⟩, fun others hothers part hpart b? htorn => ?_⟩
    · obtain ⟨b?, hb⟩ := hbounds part hpart
      exact ⟨b?, bound?_eq_some_iff.2 (Or.inl hb)⟩
    · obtain rfl := hcut.unique hothers
      obtain ⟨b?, hb⟩ := hbounds part hpart
      exact htorn.not_isBound hb
  · rintro ⟨⟨parts, hcut, hlength, hbounds⟩, hwhole⟩
    refine ⟨parts, hcut, hlength, fun part hpart => ?_⟩
    obtain ⟨b?, hb⟩ := hbounds part hpart
    exact ⟨b?, (bound?_eq_some_iff.1 hb).resolve_right (hwhole parts hcut part hpart b?)⟩

/-- The quotes at the ends of a part belong to two strings, and the part is read as one. -/
theorem slice?_torn :
    slice? "'a'b'c':".toList = some ⟨some (.str "a'b'c".toList), none, none⟩ ∧
      ¬IsSlice "'a'b'c':".toList := by
  refine ⟨by decide +kernel, ?_⟩
  rintro ⟨parts, hcut, -, hbounds⟩
  have hparts : sliceParts? none "'a'b'c':".toList = some ["'a'b'c'".toList, []] := by
    decide +kernel
  obtain rfl := hcut.unique (sliceParts?_eq_some_iff.1 hparts)
  obtain ⟨b?, hb⟩ := hbounds "'a'b'c'".toList List.mem_cons_self
  have htrim : Text.trim "'a'b'c'".toList = '\x27' :: ("a'b'c".toList ++ ['\x27']) := by
    decide +kernel
  rw [htrim] at hb
  exact not_mem_of_isBound (Or.inl rfl) hb (by decide)

end Scalar
end CallDoc
