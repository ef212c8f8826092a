import CallDoc.Proofs.Type.Grammar
import CallDoc.Proofs.Type.Readable

/-!
Spellings joined by the word `or`. The cut at the word counts brackets on its own and knows
neither names nor literals. Whatever is read without quotes closes the brackets that it opens, so
no bracket is open behind a spelling, and no name `or` can run together with the word behind it:
the whole is cut where its two sides are, and at the word between them.
-/
namespace CallDoc

open Text

namespace Spelling

/-! ## Open brackets -/

/-- The number of brackets that are open behind a text, when `depth` are in front of it. -/
def nesting (depth : Nat) : Text → Nat
  | [] => depth
  | c :: t =>
    if c = '[' then nesting (depth + 1) t
    else if c = ']' then nesting (depth - 1) t
    else nesting depth t

theorem nesting_append (depth : Nat) (s t : Text) :
    nesting depth (s ++ t) = nesting (nesting depth s) t := by
  induction s generalizing depth with
  | nil => rfl
  | cons c s ih =>
    simp only [List.cons_append, nesting]
    split
    · exact ih _
    · split <;> exact ih _

/-- No character of the text is a bracket. -/
def Unbracketed (t : Text) : Prop := ∀ c ∈ t, c ≠ '[' ∧ c ≠ ']'

-- Not `inferInstanceAs`: an instance over all characters may be found before the one over a list.
instance (t : Text) : Decidable (Unbracketed t) :=
  List.decidableBAll (fun c => c ≠ '[' ∧ c ≠ ']') t

theorem Unbracketed.append {s t : Text} (hs : Unbracketed s) (ht : Unbracketed t) :
    Unbracketed (s ++ t) := List.forall_mem_append.2 ⟨hs, ht⟩

theorem Unbracketed.nesting {t : Text} (h : Unbracketed t) (depth : Nat) :
    nesting depth t = depth := by
  induction t with
  | nil => rfl
  | cons c t ih =>
    obtain ⟨⟨hopen, hclose⟩, hmore⟩ := List.forall_mem_cons.1 h
    rw [Spelling.nesting, if_neg hopen, if_neg hclose, ih hmore]

theorem unbracketed_of_blank {t : Text} (h : blank t = true) : Unbracketed t := fun c hc => by
  have hc := List.all_eq_true.1 h c hc
  constructor <;> rintro rfl <;> exact absurd hc (by decide)

theorem unbracketed_of_continuesName {t : Text} (h : ∀ c ∈ t, continuesName c = true) :
    Unbracketed t := fun c hc =>
  ⟨ne_of_mem_delimiters (h c hc) (by decide), ne_of_mem_delimiters (h c hc) (by decide)⟩

/-- The text can hold no literal string. -/
def Quoteless (t : Text) : Prop := '\x27' ∉ t ∧ '\x22' ∉ t

theorem Quoteless.of_append {s t : Text} (h : Quoteless (s ++ t)) : Quoteless s ∧ Quoteless t := by
  simp only [Quoteless, List.mem_append, not_or] at h
  exact ⟨⟨h.1.1, h.2.1⟩, h.1.2, h.2.2⟩

/-- Ahead of the rest as many brackets are closed as are opened, unless a string is in the text. -/
def Balanced (t rest : Text) : Prop :=
  Quoteless t → Quoteless rest ∧ ∀ depth, nesting depth t = nesting depth rest

theorem Balanced.refl (t : Text) : Balanced t t := fun h => ⟨h, fun _ => rfl⟩

theorem Balanced.trans {s t rest : Text} (hs : Balanced s t) (ht : Balanced t rest) :
    Balanced s rest := fun h =>
  have ⟨hquoteless, hnesting⟩ := hs h
  ⟨(ht hquoteless).1, fun depth => (hnesting depth).trans ((ht hquoteless).2 depth)⟩

theorem balanced_append {s : Text} (h : Unbracketed s) (t : Text) : Balanced (s ++ t) t :=
  fun hquoteless => ⟨hquoteless.of_append.2, fun depth => by rw [nesting_append, h.nesting]⟩

theorem balanced_of_eat? {token t rest : Text} (h : eat? token t = some rest)
    (htoken : Unbracketed token) : Balanced t rest := by
  obtain ⟨blanks, hblank, rfl⟩ := exists_append_of_eat? h
  rw [← List.append_assoc]
  exact balanced_append ((unbracketed_of_blank hblank).append htoken) rest

theorem balanced_of_name? {t name rest : Text} (h : name? t = some (name, rest)) :
    Balanced t rest := by
  obtain ⟨blanks, hblank, rfl, -, hname⟩ := exists_append_of_name? h
  rw [← List.append_assoc]
  exact balanced_append ((unbracketed_of_blank hblank).append
    (unbracketed_of_continuesName hname)) rest

theorem balanced_of_word? {word t rest : Text} (h : word? word t = some rest)
    (hword : Unbracketed word) : Balanced t rest := by
  unfold word? at h
  split at h
  · cases h
  · rename_i after hafter
    split at h
    · cases h
    · obtain rfl := Option.some.inj h
      rw [after?_eq_some_iff.1 hafter]
      exact balanced_append hword after

theorem prefix_integerRun (t : Text) : integerRun t <+: t := by
  unfold integerRun
  split
  · exact List.cons_prefix_cons.2 ⟨rfl, List.takeWhile_prefix _⟩
  · exact List.takeWhile_prefix _

theorem unbracketed_integerRun (t : Text) : Unbracketed (integerRun t) := by
  have hdigits (t : Text) : Unbracketed (t.takeWhile isDigit) := fun c hc => by
    have hc := List.mem_takeWhile_imp hc
    constructor <;> rintro rfl <;> exact absurd hc (by decide)
  unfold integerRun
  split
  · exact List.forall_mem_cons.2 ⟨by decide, hdigits _⟩
  · exact hdigits _

theorem balanced_of_literal? {t rest : Text} {value : Literal}
    (h : literal? t = .ok (some (value, rest))) : Balanced t rest := by
  intro hquoteless
  have hquote : t.head?.filter (fun c => c == '\x27' || c == '\x22') = none := by
    cases t with
    | nil => rfl
    | cons c t =>
      have hsingle : c ≠ '\x27' := fun hc => hquoteless.1 (hc ▸ List.mem_cons_self)
      have hdouble : c ≠ '\x22' := fun hc => hquoteless.2 (hc ▸ List.mem_cons_self)
      simp [Option.filter, hsingle, hdouble]
  rw [literal?, hquote] at h
  dsimp only at h
  split at h
  · split at h
    · obtain ⟨-, rfl⟩ := Prod.mk.inj (Option.some.inj (Except.ok.inj h))
      have hrun := balanced_append (unbracketed_integerRun t) (t.drop (integerRun t).length)
      rw [List.prefix_iff_eq_append.1 (prefix_integerRun t)] at hrun
      exact hrun hquoteless
    · cases h
  · split at h
    · rename_i after hafter
      obtain ⟨-, rfl⟩ := Prod.mk.inj (Option.some.inj (Except.ok.inj h))
      exact balanced_of_word? hafter (by decide) hquoteless
    · obtain ⟨after, hafter, he⟩ := Option.map_eq_some_iff.1 (Except.ok.inj h)
      obtain ⟨-, rfl⟩ := Prod.mk.inj he
      exact balanced_of_word? hafter (by decide) hquoteless

/-- Every step of reading closes the brackets that it opens. -/
theorem keptByReading_balanced :
    KeptByReading (fun t _ rest => Balanced t rest) (fun t _ rest => Balanced t rest)
      (fun t _ rest => Balanced t rest) (fun t _ rest => Balanced t rest)
      (fun t _ rest => Balanced t rest) where
  union hfirst hmore := hfirst.trans hmore
  noAlternative := Balanced.refl
  alternative hbar hnext hmore := ((balanced_of_eat? hbar (by decide)).trans hnext).trans hmore
  absent hname _ := balanced_of_name? hname
  named hname := balanced_of_name? hname
  generic {t name behind opened first between more inside rest hint} hname hopen hfirst hmore
      hclose _ := by
    intro hquoteless
    obtain ⟨blanks, hblank, rfl⟩ := exists_append_of_eat? hopen
    obtain ⟨blanks', hblank', rfl⟩ := exists_append_of_eat? hclose
    obtain ⟨hbehind, hname⟩ := balanced_of_name? hname hquoteless
    obtain ⟨hinside, harguments⟩ := hfirst.trans hmore hbehind.of_append.2.of_append.2
    refine ⟨hinside.of_append.2.of_append.2, fun depth => ?_⟩
    rw [hname, nesting_append, (unbracketed_of_blank hblank).nesting]
    change nesting (depth + 1) opened = nesting depth rest
    rw [harguments, nesting_append, (unbracketed_of_blank hblank').nesting]
    rfl
  ellipsis hdots := balanced_of_eat? hdots (by decide)
  literal {t value rest} hvalue := by
    have hblank : blank (t.takeWhile isBlank) = true :=
      List.all_eq_true.2 fun c => List.mem_takeWhile_imp
    have hstart := balanced_append (unbracketed_of_blank hblank) (trimStart t)
    rw [trimStart, List.takeWhile_append_dropWhile] at hstart
    exact hstart.trans (balanced_of_literal? hvalue)
  type htype := htype
  noEntry := Balanced.refl
  entry hcomma hnext hmore := ((balanced_of_eat? hcomma (by decide)).trans hnext).trans hmore

theorem nesting_of_whole {piece : Text} {hint : Hint} (h : whole piece = .ok hint)
    (hquoteless : Quoteless piece) (depth : Nat) : nesting depth piece = depth := by
  obtain ⟨levels, rest, hunion, hblank⟩ := exists_union_of_whole h
  rw [(keptByReading_balanced.of_union hunion hquoteless).2,
    (unbracketed_of_blank hblank).nesting]

theorem nesting_joinWith {sep : Text} {pieces : List Text} (hsep : Unbracketed sep)
    (hpieces : ∀ piece ∈ pieces, ∃ hint, whole piece = .ok hint)
    (hquoteless : Quoteless (joinWith sep pieces)) (depth : Nat) :
    nesting depth (joinWith sep pieces) = depth := by
  induction pieces with
  | nil => rfl
  | cons first more ih =>
    obtain ⟨⟨hint, hfirst⟩, hmore⟩ := List.forall_mem_cons.1 hpieces
    cases more with
    | nil =>
      rw [joinWith, List.intercalate_singleton] at hquoteless ⊢
      exact nesting_of_whole hfirst hquoteless depth
    | cons next more =>
      rw [joinWith, List.intercalate_cons_cons] at hquoteless ⊢
      obtain ⟨hquoteless, hrest⟩ := hquoteless.of_append
      rw [nesting_append, nesting_append, nesting_of_whole hfirst hquoteless.of_append.1,
        hsep.nesting]
      exact ih hmore hrest

/-- No bracket is left open by a spelling without quotes. -/
theorem nesting_of_ofSpelling {t : Text} {hint : Hint} (h : Hint.ofSpelling t = .ok hint)
    (hquoteless : Quoteless t) (depth : Nat) : nesting depth t = depth := by
  rw [← joinWith_splitOr 0 t] at hquoteless ⊢
  exact nesting_joinWith (by decide) (Hint.exists_whole_of_ofSpelling h) hquoteless depth

/-! ## The cut at the word -/

theorem not_suffix_of_cons {c : Char} {word t : Text} (h : ¬word <:+ c :: t) : ¬word <:+ t :=
  fun hsuffix => h (hsuffix.trans (List.suffix_cons c t))

theorem extendFirst_append (c : Char) {pieces : List Text} (h : pieces ≠ []) (more : List Text) :
    extendFirst c (pieces ++ more) = extendFirst c pieces ++ more := by
  cases pieces with
  | nil => exact absurd rfl h
  | cons first pieces => rfl

/-- The word is not found across the end of a text, unless most of it ends the text. -/
theorem after?_or_append {c : Char} {t : Text} (hnone : after? " or ".toList (c :: t) = none)
    (hsuffix : ¬" or".toList <:+ c :: t) (rest : Text) :
    after? " or ".toList (c :: t ++ (" or ".toList ++ rest)) = none := by
  refine Option.eq_none_iff_forall_ne_some.2 fun after hafter => ?_
  have heq := after?_eq_some_iff.1 hafter
  rcases t with _ | ⟨a, _ | ⟨b, _ | ⟨d, t⟩⟩⟩
  · simp at heq
  · simp at heq
  · obtain ⟨rfl, rfl, rfl, -⟩ : c = ' ' ∧ a = 'o' ∧ b = 'r' ∧ _ := by simpa using heq
    exact hsuffix List.suffix_rfl
  · obtain ⟨rfl, rfl, rfl, rfl, -⟩ : c = ' ' ∧ a = 'o' ∧ b = 'r' ∧ d = ' ' ∧ _ := by
      simpa using heq
    have hsome : after? " or ".toList (' ' :: 'o' :: 'r' :: ' ' :: t) = some t :=
      after?_eq_some_iff.2 rfl
    rw [hsome] at hnone
    cases hnone

theorem splitOr_or (t : Text) : splitOr 0 (" or ".toList ++ t) = [] :: splitOr 0 t := by
  change splitOr 0 (' ' :: ("or ".toList ++ t)) = _
  rw [splitOr, if_neg (by decide), if_neg (by decide)]
  split
  · rename_i rest hrest
    obtain rfl : t = rest := List.append_cancel_left (after?_eq_some_iff.1 hrest)
    exact if_pos rfl
  · rename_i hnone
    have hsome : after? " or ".toList (' ' :: ("or ".toList ++ t)) = some t :=
      after?_eq_some_iff.2 rfl
    rw [hsome] at hnone
    cases hnone

theorem splitOr_cons_of_none {c : Char} {t : Text} (hopen : c ≠ '[') (hclose : c ≠ ']')
    (hnone : after? " or ".toList (c :: t) = none) (depth : Nat) :
    splitOr depth (c :: t) = extendFirst c (splitOr depth t) := by
  rw [splitOr, if_neg hopen, if_neg hclose]
  split
  · rename_i hrest
    rw [hnone] at hrest
    cases hrest
  · rfl

/-- Where no bracket is left open in front of it, the word cuts the text in two. -/
theorem splitOr_append {depth : Nat} {s : Text} (hclosed : nesting depth s = 0)
    (hsuffix : ¬" or".toList <:+ s) (t : Text) :
    splitOr depth (s ++ (" or ".toList ++ t)) = splitOr depth s ++ splitOr 0 t := by
  fun_induction splitOr depth s with
  | case1 depth =>
    obtain rfl : depth = 0 := hclosed
    exact splitOr_or t
  | case2 depth s ih =>
    rw [nesting, if_pos rfl] at hclosed
    rw [List.cons_append, splitOr, if_pos rfl, ih hclosed (not_suffix_of_cons hsuffix),
      extendFirst_append _ (splitOr_ne_nil _ _)]
  | case3 depth s hopen ih =>
    rw [nesting, if_neg hopen, if_pos rfl] at hclosed
    rw [List.cons_append, splitOr, if_neg hopen, if_pos rfl,
      ih hclosed (not_suffix_of_cons hsuffix), extendFirst_append _ (splitOr_ne_nil _ _)]
  | case4 c s hopen hclose rest hrest ih =>
    have hs := after?_eq_some_iff.1 hrest
    rw [hs] at hclosed hsuffix ⊢
    have hrest : ¬" or".toList <:+ rest := fun h => hsuffix (h.trans (List.suffix_append _ _))
    rw [List.append_assoc, splitOr_or, ih hclosed hrest, List.cons_append]
  | case5 depth c s hopen hclose rest hrest hdepth ih =>
    rw [nesting, if_neg hopen, if_neg hclose] at hclosed
    rw [List.cons_append, splitOr_cons hopen hclose (fun _ => Nat.pos_of_ne_zero hdepth),
      ih hclosed (not_suffix_of_cons hsuffix), extendFirst_append _ (splitOr_ne_nil _ _)]
  | case6 depth c s hopen hclose hnone ih =>
    rw [nesting, if_neg hopen, if_neg hclose] at hclosed
    have hbehind := after?_or_append hnone hsuffix t
    rw [List.cons_append] at hbehind ⊢
    rw [splitOr_cons_of_none hopen hclose hbehind, ih hclosed (not_suffix_of_cons hsuffix),
      extendFirst_append _ (splitOr_ne_nil _ _)]

/-- Behind a character that is in no name, the last name of a text is one and the same. -/
theorem eq_of_append_name {front before name word : Text} (h : front ++ name = before ++ word)
    (hname : ∀ c ∈ name, continuesName c = true) (hword : ∀ c ∈ word, continuesName c = true)
    (hfront : ∀ c, front.getLast? = some c → continuesName c = false)
    (hbefore : ∀ c, before.getLast? = some c → continuesName c = false) : name = word := by
  have hrun {front name : Text} (hname : ∀ c ∈ name, continuesName c = true)
      (hfront : ∀ c, front.getLast? = some c → continuesName c = false) :
      (front ++ name).reverse.takeWhile continuesName = name.reverse := by
    rw [List.reverse_append, (span_append_of_head? (by simpa using hfront) _).1,
      List.takeWhile_eq_self_iff.2 (by simpa using hname)]
  rw [← List.reverse_inj, ← hrun hname hfront, h, hrun hword hbefore]

/-- A text ends in the word behind a blank only when that word is one of the arms. -/
theorem EndsIn.named_mem {arms : List Hint} {rest t : Text} (h : EndsIn arms rest t)
    (hblank : blank rest = true) (hsuffix : " or".toList <:+ t) : .named "or".toList ∈ arms := by
  have hlast : t.getLast? = some 'r' := by
    obtain ⟨before, rfl⟩ := hsuffix
    simp
  -- the last character is no blank, so nothing is left behind what was read
  obtain rfl : rest = [] := by
    obtain ⟨front, rfl⟩ := h.suffix
    rcases List.eq_nil_or_concat' rest with rfl | ⟨rest, d, rfl⟩
    · rfl
    · rw [← List.append_assoc, List.getLast?_concat] at hlast
      obtain rfl := Option.some.inj hlast
      exact absurd (List.all_eq_true.1 hblank 'r' (by simp)) (by decide)
  cases h with
  | bracket front =>
    rw [List.getLast?_concat] at hlast
    cases hlast
  | @word front name nonempty continues apart arm =>
    rw [List.append_nil] at hsuffix
    obtain ⟨before, hbefore⟩ := hsuffix
    have hsplit : front ++ name = (before ++ [' ']) ++ "or".toList := by simp [← hbefore]
    have hname : name = "or".toList := eq_of_append_name hsplit continues
      (forall_mem_of_all (by decide +kernel)) apart fun c hc => by
        obtain rfl : ' ' = c := by simpa using hc
        exact continuesName_of_mem_delimiters (by decide)
    obtain (hnone | hnone) | harm := arm
    · rw [hname] at hnone
      cases hnone
    · rw [hname] at hnone
      cases hnone
    · exact hname ▸ harm

end Spelling

namespace Hint

/-- The word `or` between two spellings joins what they denote. The members of the first come
first, each of all members stands where it does first, and a member left alone stands for
itself. -/
theorem ofSpelling_or {s t : Text} {a b : Hint} (hs : ofSpelling s = .ok a)
    (ht : ofSpelling t = .ok b) (hquoteless : Spelling.Quoteless s)
    (hor : .named "or".toList ∉ a.arms) :
    ofSpelling (s ++ " or ".toList ++ t) = .ok (unionOf [a, b]) ∧
      unionOf [a, b] = match (a.arms ++ b.arms).eraseDups with
        | [single] => single
        | members => .union members := by
  obtain ⟨rest, hends, hblank⟩ := exists_endsIn_of_ofSpelling hs
  have hsuffix : ¬" or".toList <:+ s := fun h => hor (hends.named_mem hblank h)
  have hclosed := Spelling.nesting_of_ofSpelling hs hquoteless 0
  have hcut := Spelling.splitOr_append hclosed hsuffix t
  have harms : distinct ([a, b].flatMap arms) = (a.arms ++ b.arms).eraseDups := by
    rw [distinct_eq_eraseDups]
    simp
  have hunion : unionOf [a, b] = match (a.arms ++ b.arms).eraseDups with
      | [single] => single
      | members => .union members := by
    change (match distinct ([a, b].flatMap arms) with
      | [single] => single
      | members => .union members) = _
    rw [harms]
  refine ⟨?_, hunion⟩
  obtain ⟨as, has, rfl⟩ := ofSpelling_eq_ok_iff.1 hs
  obtain ⟨bs, hbs, rfl⟩ := ofSpelling_eq_ok_iff.1 ht
  refine ofSpelling_eq_ok_iff.2 ⟨as ++ bs, ?_, (unionOf_unionOf
    (Spelling.grammatical_of_mapM has) (Spelling.grammatical_of_mapM hbs)).symm⟩
  rw [List.append_assoc, hcut, List.mapM_append, has, hbs]
  rfl

/-- Members of unions of four spellings, three of which stand on both sides or twice on one. -/
theorem ofSpelling_or_optional :
    let a := Hint.union [.named "int".toList, .none, .varTuple (.named "str".toList)]
    let b := Hint.union [.none, .named "Path".toList, .named "int".toList]
    (ofSpelling "Optional[int] | tuple[str, ...] or int".toList = .ok a ∧
      ofSpelling "Union[None, Path] or int".toList = .ok b) ∧
    (Spelling.Quoteless "Optional[int] | tuple[str, ...] or int".toList ∧
      .named "or".toList ∉ a.arms) ∧
    ofSpelling "Optional[int] | tuple[str, ...] or int or Union[None, Path] or int".toList =
      .ok (.union [.named "int".toList, .none, .varTuple (.named "str".toList),
        .named "Path".toList]) := by
  intro a b
  have ha : ofSpelling "Optional[int] | tuple[str, ...] or int".toList = .ok a := by
    decide +kernel
  have hb : ofSpelling "Union[None, Path] or int".toList = .ok b := by decide +kernel
  have hquoteless : Spelling.Quoteless "Optional[int] | tuple[str, ...] or int".toList :=
    ⟨by decide, by decide⟩
  have hor : .named "or".toList ∉ a.arms := by decide +kernel
  obtain ⟨hjoined, hunion⟩ := ofSpelling_or ha hb hquoteless hor
  have htext : "Optional[int] | tuple[str, ...] or int or Union[None, Path] or int".toList =
      "Optional[int] | tuple[str, ...] or int".toList ++ " or ".toList ++
        "Union[None, Path] or int".toList := by decide +kernel
  have hmembers : (a.arms ++ b.arms).eraseDups = [.named "int".toList, .none,
      .varTuple (.named "str".toList), .named "Path".toList] := by decide +kernel
  refine ⟨⟨ha, hb⟩, ⟨hquoteless, hor⟩, ?_⟩
  rw [htext, hjoined, hunion, hmembers]

end Hint

end CallDoc
