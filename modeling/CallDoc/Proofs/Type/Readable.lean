import CallDoc.Proofs.Type.Union
import CallDoc.Proofs.Type.Word

/-!
Texts that stand for a hint. The reader takes such a text off the front of what it is given and
leaves what follows, as long as that is nothing, a comma or a closing bracket, so the arguments
between brackets are read one after the other by the same argument. The word `or` stands
outside of brackets in none of them, and the whole of it is one piece.
-/
namespace CallDoc

open Text

namespace Spelling

/-! ## Blanks in front -/

theorem primary_blank (depth : Nat) (t : Text) : primary depth (' ' :: t) = primary depth t := by
  cases depth <;> rfl

theorem union_blank (depth : Nat) (t : Text) : union depth (' ' :: t) = union depth t := by
  cases depth with
  | zero => rfl
  | succ depth => rw [union, union, primary_blank]

theorem argument_blank (depth : Nat) (t : Text) : argument depth (' ' :: t) = argument depth t := by
  cases depth with
  | zero => rfl
  | succ depth =>
    rw [argument, argument, union_blank]
    rfl

/-! ## Pieces around the word `or` -/

/-- Inside `low` brackets and deeper, no word `or` of the text stands outside of brackets,
nor does a bracket that it closes leave fewer of them open. -/
def Unsplit (low : Nat) (t : Text) : Prop :=
  ∀ depth rest, low ≤ depth → ∃ deeper, depth ≤ deeper ∧
    splitOr depth (t ++ rest) = t.foldr extendFirst (splitOr deeper rest)

theorem splitOr_cons {c : Char} (hopen : c ≠ '[') (hclose : c ≠ ']') {depth : Nat}
    (hinside : c = ' ' → 0 < depth) (t : Text) :
    splitOr depth (c :: t) = extendFirst c (splitOr depth t) := by
  rw [splitOr, if_neg hopen, if_neg hclose]
  split
  · rename_i rest hor
    have hc : c = ' ' := (List.cons.inj (after?_eq_some_iff.1 hor)).1
    rw [if_neg (Nat.ne_zero_of_lt (hinside hc))]
  · rfl

theorem unsplit_nil (low : Nat) : Unsplit low [] := fun depth _ _ => ⟨depth, Nat.le_refl _, rfl⟩

theorem Unsplit.append {low : Nat} {s t : Text} (hs : Unsplit low s) (ht : Unsplit low t) :
    Unsplit low (s ++ t) := by
  intro depth rest hlow
  obtain ⟨deeper, hdeeper, hsplit⟩ := hs depth (t ++ rest) hlow
  obtain ⟨deepest, hdeepest, hsplit'⟩ := ht deeper rest (hlow.trans hdeeper)
  refine ⟨deepest, hdeeper.trans hdeepest, ?_⟩
  rw [List.append_assoc, hsplit, hsplit', List.foldr_append]

theorem Unsplit.mono {low high : Nat} {t : Text} (h : Unsplit low t) (hle : low ≤ high) :
    Unsplit high t :=
  fun depth rest hhigh => h depth rest (hle.trans hhigh)

theorem unsplit_of_not_mem {t : Text} (h : ']' ∉ t) : Unsplit 1 t := by
  induction t with
  | nil => exact unsplit_nil 1
  | cons c t ih =>
    rw [List.mem_cons, not_or] at h
    intro depth rest hdepth
    by_cases hopen : c = '['
    · obtain ⟨deeper, hdeeper, hsplit⟩ := ih h.2 (depth + 1) rest (by omega)
      refine ⟨deeper, by omega, ?_⟩
      rw [List.cons_append, splitOr, if_pos hopen, hsplit, List.foldr_cons]
    · obtain ⟨deeper, hdeeper, hsplit⟩ := ih h.2 depth rest hdepth
      refine ⟨deeper, hdeeper, ?_⟩
      rw [List.cons_append, splitOr_cons hopen (Ne.symm h.1) (fun _ => hdepth), hsplit,
        List.foldr_cons]

theorem unsplit_word {t : Text} (h : ∀ c ∈ t, continuesName c = true) : Unsplit 0 t := by
  induction t with
  | nil => exact unsplit_nil 0
  | cons c t ih =>
    intro depth rest hdepth
    obtain ⟨deeper, hdeeper, hsplit⟩ := ih (fun d hd => h d (List.mem_cons_of_mem c hd)) depth rest
      hdepth
    have hne : ∀ d ∈ delimiters, c ≠ d := fun d => ne_of_mem_delimiters (h c List.mem_cons_self)
    refine ⟨deeper, hdeeper, ?_⟩
    rw [List.cons_append, splitOr_cons (hne _ (by decide)) (hne _ (by decide))
      (fun hc => absurd hc (hne _ (by decide))), hsplit, List.foldr_cons]

theorem Unsplit.bracket {t : Text} (h : Unsplit 1 t) : Unsplit 0 ('[' :: (t ++ [']'])) := by
  intro depth rest _
  obtain ⟨deeper, hdeeper, hsplit⟩ := h (depth + 1) (']' :: rest) (by omega)
  refine ⟨deeper - 1, by omega, ?_⟩
  have hclose : splitOr deeper (']' :: rest) = extendFirst ']' (splitOr (deeper - 1) rest) := by
    rw [splitOr, if_neg (by decide), if_pos rfl]
  rw [List.cons_append, splitOr, if_pos rfl, List.append_assoc, List.singleton_append, hsplit,
    hclose, List.foldr_cons, List.foldr_append, List.foldr_cons, List.foldr_nil]

theorem unsplit_literal {value : Literal} (h : value.Spellable) : Unsplit 1 value.spelling := by
  refine unsplit_of_not_mem fun hmem => ?_
  cases h with
  | str hunquoted hunbracketed =>
    exact hunbracketed (by simpa [Literal.spelling] using hmem)
  | @int i hlow hhigh =>
    have hdigits : ∃ n, ']' ∈ ofNat n := by
      cases i with
      | ofNat n => exact ⟨n, hmem⟩
      | negSucc n => exact ⟨n + 1, by simpa [Literal.spelling, ofInt] using hmem⟩
    obtain ⟨n, hn⟩ := hdigits
    exact absurd (isDigit_of_mem_ofNat hn) (by decide)
  | bool value =>
    revert hmem
    cases value <;> decide

theorem splitOr_of_unsplit {t : Text} (h : Unsplit 0 t) : splitOr 0 t = [t] := by
  obtain ⟨deeper, -, hsplit⟩ := h 0 [] (Nat.le_refl 0)
  have hpiece (t : Text) : t.foldr extendFirst [[]] = [t] := by
    induction t with
    | nil => rfl
    | cons c t ih => rw [List.foldr_cons, ih, extendFirst]
  rw [List.append_nil] at hsplit
  rw [hsplit, splitOr, hpiece]

/-! ## Arguments -/

/-- An argument as it is written between the brackets of a generic, with what it stands for. -/
structure Written where
  text : Text
  entry : Argument

/-- Read off the front of a text, the written argument gives what it stands for. Reading it
takes two calls before its first character is consumed, hence the two levels above its length. -/
def Written.IsRead (a : Written) : Prop :=
  ∀ depth rest, a.text.length + 2 ≤ depth → Ends rest →
    argument depth (a.text ++ rest) = .ok (a.entry, rest)

/-- The written argument is read as what it stands for, and no word `or` splits it. -/
structure Written.Reads (a : Written) : Prop where
  argument : a.IsRead
  unsplit : Unsplit 1 a.text

theorem reads_ellipsis : Written.Reads ⟨"...".toList, .ellipsis⟩ where
  argument := by
    intro depth rest hdepth _
    cases depth with
    | zero => simp at hdepth
    | succ depth =>
      have heat : eat? "...".toList ("...".toList ++ rest) = some rest :=
        eat?_append (by decide) _ rest
      rw [Spelling.argument, heat]
  unsplit := unsplit_of_not_mem (by decide)

/-- An argument that is read as a literal is one. -/
theorem isRead_literal {value : Literal}
    (h : ∀ rest, Ends rest → literal? (value.spelling ++ rest) = .ok (some (value, rest))) :
    Written.IsRead ⟨value.spelling, .literal value⟩ := by
  intro depth rest hdepth hrest
  obtain ⟨depth, rfl⟩ := Nat.exists_eq_add_one_of_ne_zero (show depth ≠ 0 by omega)
  obtain ⟨c, more, hcons, hblank, hdot⟩ := exists_literal_spelling_eq_cons value
  have hellipsis : eat? "...".toList (value.spelling ++ rest) = none := by
    rw [hcons]
    exact eat?_of_ne hblank hdot _ _
  have htrim : trimStart (value.spelling ++ rest) = value.spelling ++ rest := by
    rw [hcons, List.cons_append, trimStart_cons hblank]
  rw [argument, hellipsis]
  simp only [htrim, h rest hrest]

theorem reads_literal {value : Literal} (hplain : value.Spellable) :
    Written.Reads ⟨value.spelling, .literal value⟩ where
  argument := isRead_literal fun _ => literal?_spelling hplain
  unsplit := unsplit_literal hplain

/-- Arguments as they stand behind the first of them. -/
def moreTexts (arguments : List Written) : Text :=
  arguments.flatMap fun a => ", ".toList ++ a.text

theorem commaJoin_cons (first : Written) (more : List Written) :
    commaJoin ((first :: more).map Written.text) = first.text ++ moreTexts more := by
  induction more generalizing first with
  | nil => simp [commaJoin, joinWith, moreTexts]
  | cons next more ih =>
    have htail := ih next
    rw [commaJoin, joinWith] at htail ⊢
    rw [List.map_cons, List.map_cons, List.intercalate_cons_cons, ← List.map_cons, htail]
    simp [moreTexts]

theorem ends_moreTexts (arguments : List Written) (rest : Text) :
    Ends (moreTexts arguments ++ ']' :: rest) := by
  cases arguments with
  | nil => exact ends_bracket rest
  | cons a more => exact ends_comma _

theorem moreArguments_texts {arguments : List Written} (h : ∀ a ∈ arguments, a.IsRead)
    (rest : Text) {depth : Nat} (hdepth : (moreTexts arguments).length < depth) :
    moreArguments depth (moreTexts arguments ++ ']' :: rest) =
      .ok (arguments.map Written.entry, ']' :: rest) := by
  induction arguments generalizing depth with
  | nil =>
    obtain ⟨depth, rfl⟩ := Nat.exists_eq_add_one_of_ne_zero (Nat.ne_zero_of_lt hdepth)
    have heat : eat? ",".toList (']' :: rest) = none := eat?_of_ne (by decide) (by decide) [] rest
    rw [moreArguments, moreTexts, List.flatMap_nil, List.nil_append, heat]
    rfl
  | cons a more ih =>
    have hcons : moreTexts (a :: more) = ',' :: ' ' :: (a.text ++ moreTexts more) := rfl
    rw [hcons] at hdepth ⊢
    simp only [List.length_cons, List.length_append] at hdepth
    obtain ⟨depth, rfl⟩ := Nat.exists_eq_add_one_of_ne_zero (Nat.ne_zero_of_lt hdepth)
    have heat : eat? ",".toList (',' :: ' ' :: (a.text ++ moreTexts more) ++ ']' :: rest) =
        some (' ' :: (a.text ++ (moreTexts more ++ ']' :: rest))) := by
      rw [List.cons_append, List.cons_append, List.append_assoc]
      exact eat?_append (by decide) [] _
    have hnext := h a List.mem_cons_self depth _ (by omega) (ends_moreTexts more rest)
    have hmore := ih (fun b hb => h b (List.mem_cons_of_mem a hb))
      (show (moreTexts more).length < depth by omega)
    rw [moreArguments, heat]
    simp only [argument_blank, hnext, hmore, bind, Except.bind, pure, Except.pure, List.map_cons]

theorem unsplit_moreTexts {arguments : List Written} (h : ∀ a ∈ arguments, a.Reads) :
    Unsplit 1 (moreTexts arguments) := by
  induction arguments with
  | nil => exact unsplit_nil 1
  | cons a more ih =>
    have hcomma : Unsplit 1 ", ".toList := unsplit_of_not_mem (by decide)
    refine (hcomma.append (h a List.mem_cons_self).unsplit).append (ih ?_)
    exact fun b hb => h b (List.mem_cons_of_mem a hb)

/-! ## Generics -/

/-- The text of a generic with its arguments. -/
def genericText (name : Text) (arguments : List Written) : Text :=
  name ++ '[' :: (commaJoin (arguments.map Written.text) ++ [']'])

/-- Behind a name and a bracket come the arguments of a generic. -/
theorem primary_bracket {name : Text} (hname : IsTypeWord name)
    (hnone : ¬(name = "None".toList ∨ name = "NoneType".toList)) (depth : Nat) (t : Text) :
    primary (depth + 1) (name ++ '[' :: t) = (do
      let (first, rest) ← argument depth t
      let (more, rest) ← moreArguments depth rest
      match eat? "]".toList rest with
      | none => .error .missingBracket
      | some rest => do
        let hint ← generic name (first :: more)
        return (hint, rest)) := by
  have hbracket : ∀ c, ('[' :: t).head? = some c → continuesName c = false := by
    rintro c ⟨⟩
    exact continuesName_of_mem_delimiters (by decide)
  have hopen : eat? "[".toList ('[' :: t) = some t := eat?_append (by decide) [] t
  rw [primary, hname.name?_append hbracket]
  dsimp only
  exact (if_neg hnone).trans (hopen ▸ rfl)

theorem primary_generic {name : Text} (hname : IsTypeWord name)
    (hnone : ¬(name = "None".toList ∨ name = "NoneType".toList)) {arguments : List Written}
    (hnonempty : arguments ≠ []) (hread : ∀ a ∈ arguments, a.IsRead) {h : Hint}
    (hgeneric : generic name (arguments.map Written.entry) = .ok h) (rest : Text) {depth : Nat}
    (hdepth : (genericText name arguments).length ≤ depth) :
    primary depth (genericText name arguments ++ rest) = .ok (h, rest) := by
  obtain ⟨first, more, rfl⟩ := List.exists_cons_of_ne_nil hnonempty
  have htext : genericText name (first :: more) ++ rest =
      name ++ '[' :: (first.text ++ (moreTexts more ++ ']' :: rest)) := by
    rw [genericText, commaJoin_cons]
    simp
  have hlen : 0 < name.length := by
    obtain ⟨c, tail, rfl, -⟩ := hname.exists_cons
    simp
  simp only [genericText, commaJoin_cons, List.length_append, List.length_cons,
    List.length_nil] at hdepth
  obtain ⟨depth, rfl⟩ := Nat.exists_eq_add_one_of_ne_zero (show depth ≠ 0 by omega)
  have hfirst := hread first List.mem_cons_self depth _ (by omega) (ends_moreTexts more rest)
  have hmore := moreArguments_texts (fun a ha => hread a (List.mem_cons_of_mem first ha)) rest
    (show (moreTexts more).length < depth by omega)
  have hclose : eat? "]".toList (']' :: rest) = some rest := eat?_append (by decide) [] rest
  rw [List.map_cons] at hgeneric
  rw [htext, primary_bracket hname hnone]
  simp only [hfirst, hmore, hclose, hgeneric, bind, Except.bind, pure, Except.pure]

theorem unsplit_genericText {name : Text} (hname : IsTypeWord name) {arguments : List Written}
    (h : ∀ a ∈ arguments, a.Reads) : Unsplit 0 (genericText name arguments) := by
  refine (unsplit_word hname.continuesName).append (Unsplit.bracket ?_)
  cases arguments with
  | nil => exact unsplit_nil 1
  | cons first more =>
    rw [commaJoin_cons]
    refine (h first List.mem_cons_self).unsplit.append (unsplit_moreTexts ?_)
    exact fun a ha => h a (List.mem_cons_of_mem first ha)

theorem typesOf_map_type (hints : List Hint) : typesOf (hints.map .type) = .ok hints := by
  induction hints with
  | nil => rfl
  | cons hint hints ih =>
    rw [List.map_cons, typesOf, ih]
    rfl

theorem literalsOf_map_literal (values : List Literal) :
    literalsOf (values.map .literal) = .ok values := by
  induction values with
  | nil => rfl
  | cons value values ih =>
    rw [List.map_cons, literalsOf, ih]
    rfl

/-- Of types alone, a tuple is one of fixed length. -/
theorem generic_tuple (elems : List Hint) :
    generic "tuple".toList (elems.map .type) = .ok (.tuple elems) := by
  have hbranch : generic "tuple".toList (elems.map .type) =
      (typesOf (elems.map .type)).map .tuple := by
    -- only two arguments could be a type and an ellipsis
    rcases elems with _ | ⟨first, _ | ⟨second, _ | ⟨third, more⟩⟩⟩ <;> rfl
  rw [hbranch, typesOf_map_type]
  rfl

theorem generic_union (members : List Hint) :
    generic "Union".toList (members.map .type) = .ok (.unionOf members) := by
  have hbranch (arguments : List Argument) : generic "Union".toList arguments =
      (typesOf arguments).map .unionOf := by
    unfold generic
    cases typesOf arguments <;> rfl
  rw [hbranch, typesOf_map_type]
  rfl

theorem generic_literal (values : List Literal) :
    generic "Literal".toList (values.map .literal) = .ok (.literal values) := by
  have hbranch : generic "Literal".toList (values.map .literal) =
      (literalsOf (values.map .literal)).map .literal := rfl
  rw [hbranch, literalsOf_map_literal]
  rfl

/-! ## Hints -/

/-- The text stands for the hint: read off the front of a text it gives the hint, which as a
union of one is itself. The text starts with a word that ends where the text does, or at a
bracket, and no word `or` splits it. -/
structure Readable (t : Text) (h : Hint) : Prop where
  primary : ∀ depth rest, t.length ≤ depth → Ends rest → primary depth (t ++ rest) = .ok (h, rest)
  settled : Hint.unionOf [h] = h
  word : ∃ name tail, t = name ++ tail ∧ IsTypeWord name ∧ (tail = [] ∨ tail.head? = some '[')
  unsplit : Unsplit 0 t

variable {t : Text} {h : Hint}

/-- A hint with nothing behind it that a union goes on with is the whole union. -/
theorem union_of_primary {depth : Nat} {rest : Text} (hprimary : primary depth t = .ok (h, rest))
    (hsettled : Hint.unionOf [h] = h) (hrest : Ends rest) :
    union (depth + 1) t = .ok (h, rest) := by
  -- no bar can follow, even where no level is left to look for one
  have hmore : moreAlternatives depth rest = .ok ([], rest) := by
    cases depth with
    | zero => rfl
    | succ depth =>
      have hbar : eat? "|".toList rest = none := hrest.eat? (by decide) (by decide) []
      rw [moreAlternatives, hbar]
  rw [union, hprimary]
  simp only [hmore, hsettled, bind, Except.bind, pure, Except.pure]

theorem Readable.union (hreads : Readable t h) {depth : Nat} {rest : Text}
    (hdepth : t.length < depth) (hrest : Ends rest) : union depth (t ++ rest) = .ok (h, rest) := by
  obtain ⟨depth, rfl⟩ := Nat.exists_eq_add_one_of_ne_zero (Nat.ne_zero_of_lt hdepth)
  exact union_of_primary (hreads.primary depth rest (by omega) hrest) hreads.settled hrest

/-- Neither an ellipsis nor a literal starts as a word does. -/
theorem Readable.reads (hreads : Readable t h) : Written.Reads ⟨t, .type h⟩ where
  argument := by
    intro depth rest hdepth hrest
    obtain ⟨depth, rfl⟩ := Nat.exists_eq_add_one_of_ne_zero (show depth ≠ 0 by omega)
    obtain ⟨name, tail, htext, hword, htail⟩ := hreads.word
    have hend : ∀ c, (tail ++ rest).head? = some c → continuesName c = false := by
      intro c hc
      rcases htail with rfl | htail
      · exact hrest.continuesName hc
      · rw [List.head?_append, htail] at hc
        obtain rfl := Option.some.inj hc
        exact continuesName_of_mem_delimiters (by decide)
    obtain ⟨c, more, hcons, hc⟩ := hword.exists_cons
    have hblank : isBlank c = false := isBlank_of_continuesName (continuesName_of_startsName hc)
    have hfront : t ++ rest = c :: (more ++ (tail ++ rest)) := by
      rw [htext, hcons, List.append_assoc, List.cons_append]
    have hellipsis : eat? "...".toList (t ++ rest) = none := by
      rw [hfront]
      exact eat?_of_ne hblank (ne_of_class hc (by decide +kernel)) _ _
    have htrim : trimStart (t ++ rest) = t ++ rest := by
      rw [hfront, trimStart_cons hblank]
    have hliteral : literal? (t ++ rest) = .ok none := by
      rw [htext, List.append_assoc]
      exact hword.literal?_append hend
    have hunion := hreads.union (show t.length < depth from Nat.le_of_succ_le_succ hdepth) hrest
    rw [Spelling.argument, hellipsis]
    simp only [htrim, hliteral, hunion, bind, Except.bind, pure, Except.pure]
  unsplit := hreads.unsplit.mono (Nat.zero_le 1)

/-- A text that stands for a hint is a spelling of it. -/
theorem Readable.ofSpelling (hreads : Readable t h) : Hint.ofSpelling t = .ok h := by
  have hunion := hreads.union (show t.length < 2 * t.length + 4 by omega) ends_nil
  rw [List.append_nil] at hunion
  have hwhole : whole t = .ok h := by
    rw [whole, hunion]
    rfl
  have hmapM : (splitOr 0 t).mapM whole = .ok [h] := by
    rw [splitOr_of_unsplit hreads.unsplit, List.mapM_cons, List.mapM_nil, hwhole]
    rfl
  rw [Hint.ofSpelling, hmapM]
  exact congrArg _ hreads.settled

/-! ## What texts are made of -/

theorem readable_named {name : Text} (hword : IsTypeWord name) (hnone : name ≠ "None".toList)
    (hnoneType : name ≠ "NoneType".toList) : Readable name (.named name) where
  primary := by
    intro depth rest hdepth hrest
    obtain ⟨c, more, hcons, -⟩ := hword.exists_cons
    rw [hcons, List.length_cons] at hdepth
    obtain ⟨depth, rfl⟩ := Nat.exists_eq_add_one_of_ne_zero (show depth ≠ 0 by omega)
    have hbracket : eat? "[".toList rest = none := hrest.eat? (by decide) (by decide) []
    rw [primary, hword.name?_append fun c => hrest.continuesName]
    dsimp only
    rw [if_neg (not_or.2 ⟨hnone, hnoneType⟩), hbracket]
  settled := rfl
  word := ⟨name, [], (List.append_nil name).symm, hword, Or.inl rfl⟩
  unsplit := unsplit_word hword.continuesName

theorem readable_none {name : Text} (hname : name = "None".toList ∨ name = "NoneType".toList) :
    Readable name .none := by
  have hword : IsTypeWord name := by
    rcases hname with rfl | rfl <;> exact isTypeWord_of_mem_keywords (by decide)
  refine ⟨?_, rfl, ⟨name, [], (List.append_nil name).symm, hword, Or.inl rfl⟩,
    unsplit_word hword.continuesName⟩
  intro depth rest hdepth hrest
  obtain ⟨c, more, hcons, -⟩ := hword.exists_cons
  rw [hcons, List.length_cons] at hdepth
  obtain ⟨depth, rfl⟩ := Nat.exists_eq_add_one_of_ne_zero (show depth ≠ 0 by omega)
  rw [primary, hword.name?_append fun c => hrest.continuesName]
  exact if_pos hname

/-- A generic whose arguments are read stands for what it denotes. -/
theorem readable_generic {name : Text} (hname : name ∈ keywords)
    (hnone : ¬(name = "None".toList ∨ name = "NoneType".toList)) {arguments : List Written}
    (hnonempty : arguments ≠ []) (hreads : ∀ a ∈ arguments, a.Reads)
    (hgeneric : generic name (arguments.map Written.entry) = .ok h)
    (hsettled : Hint.unionOf [h] = h) : Readable (genericText name arguments) h where
  primary _ rest hdepth _ :=
    primary_generic (isTypeWord_of_mem_keywords hname) hnone hnonempty
      (fun a ha => (hreads a ha).argument) hgeneric rest hdepth
  settled := hsettled
  word := ⟨name, _, rfl, isTypeWord_of_mem_keywords hname, Or.inr rfl⟩
  unsplit := unsplit_genericText (isTypeWord_of_mem_keywords hname) hreads

theorem readable_list (hreads : Readable t h) :
    Readable ("list[".toList ++ t ++ "]".toList) (.list h) := by
  have htext : "list[".toList ++ t ++ "]".toList = genericText "list".toList [⟨t, .type h⟩] := by
    simp [genericText, commaJoin, joinWith]
  rw [htext]
  exact readable_generic (by decide) (by decide) (List.cons_ne_nil _ _)
    (List.forall_mem_singleton.2 hreads.reads) rfl rfl

theorem readable_varTuple (hreads : Readable t h) :
    Readable ("tuple[".toList ++ t ++ ", ...]".toList) (.varTuple h) := by
  have htext : "tuple[".toList ++ t ++ ", ...]".toList =
      genericText "tuple".toList [⟨t, .type h⟩, ⟨"...".toList, .ellipsis⟩] := by
    simp [genericText, commaJoin, joinWith]
  rw [htext]
  exact readable_generic (by decide) (by decide) (List.cons_ne_nil _ _)
    (List.forall_mem_cons.2 ⟨hreads.reads, List.forall_mem_singleton.2 reads_ellipsis⟩) rfl rfl

/-- Literals are written as the arguments of a generic. -/
theorem genericText_literal (values : List Literal) :
    genericText "Literal".toList (values.map fun value => ⟨value.spelling, .literal value⟩) =
      "Literal[".toList ++ commaJoin (values.map Literal.spelling) ++ "]".toList := by
  simp [genericText, Function.comp_def]

theorem readable_literal {values : List Literal} (hnonempty : values ≠ [])
    (hplain : ∀ value ∈ values, value.Spellable) :
    Readable ("Literal[".toList ++ commaJoin (values.map Literal.spelling) ++ "]".toList)
      (.literal values) := by
  rw [← genericText_literal]
  refine readable_generic (by decide) (by decide) (by simpa using hnonempty) ?_ ?_ rfl
  · intro a ha
    obtain ⟨value, hmem, rfl⟩ := List.mem_map.1 ha
    exact reads_literal (hplain value hmem)
  · rw [List.map_map]
    exact generic_literal values

section Several

variable {α : Type} {items : List α} {text : α → Text} {hint : α → Hint}
  (hreads : ∀ item ∈ items, Readable (text item) (hint item))
include hreads

theorem reads_of_readable :
    ∀ a ∈ items.map fun item => Written.mk (text item) (.type (hint item)), a.Reads := by
  intro a ha
  obtain ⟨item, hmem, rfl⟩ := List.mem_map.1 ha
  exact (hreads item hmem).reads

theorem readable_tuple (hnonempty : items ≠ []) :
    Readable ("tuple[".toList ++ commaJoin (items.map text) ++ "]".toList)
      (.tuple (items.map hint)) := by
  have htext : "tuple[".toList ++ commaJoin (items.map text) ++ "]".toList =
      genericText "tuple".toList (items.map fun item => ⟨text item, .type (hint item)⟩) := by
    simp [genericText, Function.comp_def]
  rw [htext]
  refine readable_generic (by decide) (by decide) (by simpa using hnonempty)
    (reads_of_readable hreads) ?_ rfl
  rw [List.map_map, ← generic_tuple, List.map_map]
  rfl

theorem readable_union (hseveral : 2 ≤ items.length) (hdistinct : (items.map hint).Nodup)
    (hflat : ∀ item ∈ items, ∀ arms, hint item ≠ .union arms) :
    Readable ("Union[".toList ++ commaJoin (items.map text) ++ "]".toList)
      (.union (items.map hint)) := by
  have htext : "Union[".toList ++ commaJoin (items.map text) ++ "]".toList =
      genericText "Union".toList (items.map fun item => ⟨text item, .type (hint item)⟩) := by
    simp [genericText, Function.comp_def]
  have hlength : 2 ≤ (items.map hint).length := by rwa [List.length_map]
  have hunion : Hint.unionOf (items.map hint) = .union (items.map hint) :=
    Hint.unionOf_members hlength hdistinct (List.forall_mem_map.2 hflat)
  have hnonempty : items ≠ [] := by
    rintro rfl
    cases hseveral
  rw [htext]
  refine readable_generic (by decide) (by decide) (by simpa using hnonempty)
    (reads_of_readable hreads) ?_ (Hint.unionOf_union hlength hdistinct)
  rw [← hunion, ← generic_union, List.map_map, List.map_map]
  rfl

end Several

end Spelling
end CallDoc
