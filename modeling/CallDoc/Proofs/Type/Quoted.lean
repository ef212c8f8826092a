import CallDoc.Proofs.Type.Alternatives

/-!
Strings in type spellings. Between its quotes a string may hold anything, and read as one piece
a list of strings is what it says. But a spelling is cut at the word `or` first, by a count of
brackets that takes those inside quotes along. Where a string closes the bracket around it, the
next word `or` cuts the list inside of that string or a later one, and leaves it unterminated.
-/
namespace CallDoc

open Text

namespace Spelling

/-! ## The first cut -/

/-- The word `or` stands somewhere in the text where no bracket is counted as open, when
`depth` are in front of the text. -/
def Torn (depth : Nat) (t : Text) : Prop :=
  ∃ before after, t = before ++ (" or ".toList ++ after) ∧ nesting depth before = 0

theorem torn_cons_iff {depth : Nat} {c : Char} {t : Text} :
    Torn depth (c :: t) ↔
      (depth = 0 ∧ ∃ after, c :: t = " or ".toList ++ after) ∨ Torn (nesting depth [c]) t := by
  constructor
  · rintro ⟨_ | ⟨b, before⟩, after, htext, hclosed⟩
    · exact Or.inl ⟨hclosed, after, htext⟩
    · obtain ⟨rfl, rfl⟩ := List.cons.inj htext
      exact Or.inr ⟨before, after, rfl, (nesting_append depth [c] before).symm.trans hclosed⟩
  · rintro (⟨hdepth, after, htext⟩ | ⟨before, after, rfl, hclosed⟩)
    · exact ⟨[], after, htext, hdepth⟩
    · exact ⟨c :: before, after, rfl, (nesting_append depth [c] before).trans hclosed⟩

/-- The pieces are the text as a whole, or what stands before a word `or` outside of brackets
and the pieces of what stands behind it. -/
def FirstCut (depth : Nat) (t : Text) (pieces : List Text) : Prop :=
  (¬Torn depth t ∧ pieces = [t]) ∨
    ∃ before after, (t = before ++ (" or ".toList ++ after) ∧ nesting depth before = 0) ∧
      pieces = before :: splitOr 0 after

theorem FirstCut.cons {depth deeper : Nat} {c : Char} {t : Text} {pieces : List Text}
    (hdeeper : nesting depth [c] = deeper) (h : FirstCut deeper t pieces)
    (hfront : depth = 0 → ∀ after, c :: t ≠ " or ".toList ++ after) :
    FirstCut depth (c :: t) (extendFirst c pieces) := by
  subst hdeeper
  rcases h with ⟨hwhole, rfl⟩ | ⟨before, after, ⟨rfl, hclosed⟩, rfl⟩
  · refine Or.inl ⟨fun htorn => ?_, rfl⟩
    rcases torn_cons_iff.1 htorn with ⟨hdepth, after, htext⟩ | htorn
    · exact hfront hdepth after htext
    · exact hwhole htorn
  · have hclosed := (nesting_append depth [c] before).trans hclosed
    exact Or.inr ⟨c :: before, after, ⟨rfl, hclosed⟩, rfl⟩

theorem firstCut_splitOr (depth : Nat) (t : Text) : FirstCut depth t (splitOr depth t) := by
  fun_induction splitOr depth t with
  | case1 depth =>
    refine Or.inl ⟨?_, rfl⟩
    rintro ⟨before, after, htext, -⟩
    simp at htext
  | case2 depth t ih => exact ih.cons rfl fun _ _ => by simp
  | case3 depth t hopen ih => exact ih.cons rfl fun _ _ => by simp
  | case4 c t hopen hclose rest hrest ih =>
    have htext := after?_eq_some_iff.1 hrest
    exact Or.inr ⟨[], rest, ⟨htext, rfl⟩, rfl⟩
  | case5 depth c t hopen hclose rest hrest hdepth ih =>
    have hdeeper : nesting depth [c] = depth := by simp [nesting, hopen, hclose]
    exact ih.cons hdeeper fun hzero => absurd hzero hdepth
  | case6 depth c t hopen hclose hnone ih =>
    have hdeeper : nesting depth [c] = depth := by simp [nesting, hopen, hclose]
    refine ih.cons hdeeper fun _ after htext => ?_
    rw [after?_eq_some_iff.2 htext] at hnone
    cases hnone

theorem torn_iff_splitOr {depth : Nat} {t : Text} : Torn depth t ↔ splitOr depth t ≠ [t] := by
  rcases firstCut_splitOr depth t with ⟨hwhole, hsplit⟩ | ⟨before, after, hbefore, hsplit⟩
  · exact iff_of_false hwhole (not_not_intro hsplit)
  · refine iff_of_true ⟨before, after, hbefore⟩ fun hone => ?_
    rw [hsplit] at hone
    exact splitOr_ne_nil 0 after (List.cons.inj hone).2

instance (depth : Nat) (t : Text) : Decidable (Torn depth t) :=
  decidable_of_iff _ torn_iff_splitOr.symm

/-! ## Strings between brackets -/

/-- A string as it is written between the brackets of a generic. -/
def Written.str (s : Text) : Written := ⟨(Literal.str s).spelling, .literal (.str s)⟩

theorem isRead_str {s : Text} (h : '\x27' ∉ s) : (Written.str s).IsRead :=
  isRead_literal fun rest _ => literal?_str h rest

/-- Strings, each with quotes around it and a comma behind it, and a last one that nothing
closes. -/
inductive Unclosed : Text → Prop
  | last {s : Text} (unquoted : '\x27' ∉ s) : Unclosed ('\x27' :: s)
  | cons {s t : Text} (unquoted : '\x27' ∉ s) (more : Unclosed t) :
    Unclosed ((Written.str s).text ++ (',' :: ' ' :: t))

/-- Reading arguments off the front of a text, the first or one of those behind it is a string
that nothing closes. -/
def Unterminated (depth : Nat) (t : Text) : Prop :=
  argument depth t = .error .unterminatedString ∨ ∃ first rest,
    argument depth t = .ok (first, rest) ∧ moreArguments depth rest = .error .unterminatedString

theorem argument_unclosed {s : Text} (h : '\x27' ∉ s) (depth : Nat) :
    argument (depth + 1) ('\x27' :: s) = .error .unterminatedString := by
  have hellipsis : eat? "...".toList ('\x27' :: s) = none :=
    eat?_of_ne (by decide) (by decide) _ _
  have htrim : trimStart ('\x27' :: s) = '\x27' :: s := trimStart_cons (by decide) s
  have hliteral : literal? ('\x27' :: s) = .error .unterminatedString := by
    simp [literal?, Option.filter, splitFirst?_of_not_mem h]
  rw [argument, hellipsis]
  simp only [htrim, hliteral]

theorem Unterminated.comma {depth : Nat} {t : Text} (h : Unterminated depth t) :
    moreArguments (depth + 1) (',' :: ' ' :: t) = .error .unterminatedString := by
  have heat : eat? ",".toList (',' :: ' ' :: t) = some (' ' :: t) := eat?_append (by decide) [] _
  rw [moreArguments, heat]
  rcases h with hfirst | ⟨first, rest, hfirst, hmore⟩
  · simp only [argument_blank, hfirst, bind, Except.bind]
  · simp only [argument_blank, hfirst, hmore, bind, Except.bind]

/-- By induction on the strings: those in front of the last are read, and it is not. -/
theorem Unclosed.unterminated {t : Text} (h : Unclosed t) {depth : Nat}
    (hdepth : t.length < depth) : Unterminated depth t := by
  induction h generalizing depth with
  | last unquoted =>
    obtain ⟨depth, rfl⟩ := Nat.exists_eq_add_one_of_ne_zero (Nat.ne_zero_of_lt hdepth)
    exact Or.inl (argument_unclosed unquoted depth)
  | @cons s t unquoted more ih =>
    obtain ⟨depth, rfl⟩ := Nat.exists_eq_add_one_of_ne_zero (Nat.ne_zero_of_lt hdepth)
    rw [List.length_append, List.length_cons, List.length_cons] at hdepth
    have hread := isRead_str unquoted (depth + 1) _ (by omega) (ends_comma (' ' :: t))
    exact Or.inr ⟨_, _, hread, (ih (by omega)).comma⟩

theorem primary_unclosed {t : Text} (h : Unclosed t) {depth : Nat} (hdepth : t.length < depth) :
    primary (depth + 1) ("Literal[".toList ++ t) = .error .unterminatedString := by
  change primary (depth + 1) ("Literal".toList ++ '[' :: t) = _
  rw [primary_bracket (isTypeWord_of_mem_keywords (by decide)) (by decide)]
  rcases h.unterminated hdepth with hfirst | ⟨first, rest, hfirst, hmore⟩
  · simp only [hfirst, bind, Except.bind]
  · simp only [hfirst, hmore, bind, Except.bind]

theorem whole_unclosed {t : Text} (h : Unclosed t) :
    whole ("Literal[".toList ++ t) = .error .unterminatedString := by
  have hdepth : t.length < 2 * ("Literal[".toList ++ t).length + 2 := by
    rw [List.length_append]
    omega
  rw [whole, union, primary_unclosed h hdepth]
  rfl

/-! ## Where the word `or` falls -/

/-- A word `or` behind a text without blanks is a word `or` in what follows. -/
theorem exists_of_append_or {front rest before after : Text} (hfront : ' ' ∉ front)
    (h : front ++ rest = before ++ (" or ".toList ++ after)) :
    ∃ inner, before = front ++ inner ∧ rest = inner ++ (" or ".toList ++ after) := by
  rcases List.append_eq_append_iff.1 h with ⟨inner, rfl, hrest⟩ | ⟨_ | ⟨c, across⟩, rfl, hor⟩
  · exact ⟨inner, rfl, hrest⟩
  · exact ⟨[], by simp, hor.symm⟩
  · obtain rfl : ' ' = c := (List.cons.inj hor).1
    exact absurd (List.mem_append_right before List.mem_cons_self) hfront

/-- A word `or` in a text that begins with a string leaves the string unclosed in front of it, or
stands behind the string. -/
theorem unclosed_or_exists_of_append_or {s rest before after : Text} (hs : '\x27' ∉ s)
    (h : (Written.str s).text ++ rest = before ++ (" or ".toList ++ after)) :
    Unclosed before ∨ ∃ inner,
      before = (Written.str s).text ++ inner ∧ rest = inner ++ (" or ".toList ++ after) := by
  have htext : (Written.str s).text ++ rest = ['\x27'] ++ (s ++ (['\x27'] ++ rest)) := by
    simp [Written.str, Literal.spelling]
  obtain ⟨inner, rfl, hinner⟩ := exists_of_append_or (by decide) (htext.symm.trans h)
  rcases List.append_eq_append_iff.1 hinner with ⟨closed, rfl, hclosed⟩ | ⟨more, rfl, -⟩
  · obtain ⟨behind, rfl, hrest⟩ := exists_of_append_or (by decide) hclosed
    exact Or.inr ⟨behind, by simp [Written.str, Literal.spelling], hrest⟩
  · exact Or.inl (.last fun hmem => hs (List.mem_append_left more hmem))

/-- By induction on the strings: a word `or` in a list of them stands inside of one. -/
theorem unclosed_of_append_or {s : Text} {more : List Text} {before after : Text}
    (hs : '\x27' ∉ s) (hmore : ∀ s ∈ more, '\x27' ∉ s)
    (h : (Written.str s).text ++ (moreTexts (more.map Written.str) ++ "]".toList) =
      before ++ (" or ".toList ++ after)) : Unclosed before := by
  induction more generalizing s before with
  | nil =>
    refine (unclosed_or_exists_of_append_or hs h).resolve_right ?_
    rintro ⟨inner, -, hbracket⟩
    have hlen := congrArg List.length hbracket
    simp [moreTexts] at hlen
    omega
  | cons next more ih =>
    rcases unclosed_or_exists_of_append_or hs h with hunclosed | ⟨inner, rfl, hrest⟩
    · exact hunclosed
    have hcomma : moreTexts ((next :: more).map Written.str) ++ "]".toList =
        [','] ++ ' ' ::
          ((Written.str next).text ++ (moreTexts (more.map Written.str) ++ "]".toList)) := by
      simp [moreTexts]
    obtain ⟨_ | ⟨c, inner⟩, rfl, hblank⟩ :=
      exists_of_append_or (by decide) (hcomma.symm.trans hrest)
    · cases hblank
    · obtain ⟨rfl, hinner⟩ := List.cons.inj hblank
      obtain ⟨hnext, hmore⟩ := List.forall_mem_cons.1 hmore
      exact .cons hs (ih hnext hmore hinner)

end Spelling

namespace Hint

open Spelling

variable {strings : List Text}

/-- A list of strings is written as a generic of them. -/
theorem spelling_strings (strings : List Text) :
    spelling (.literal (strings.map .str)) =
      genericText "Literal".toList (strings.map Written.str) := by
  have htext := genericText_literal (strings.map .str)
  rw [List.map_map] at htext
  exact htext.symm

/-- Taken as one piece, a list of strings is read whatever they hold. -/
theorem whole_strings (hne : strings ≠ []) (hunquoted : ∀ s ∈ strings, '\x27' ∉ s) :
    whole (spelling (.literal (strings.map .str))) = .ok (.literal (strings.map .str)) := by
  have hread : ∀ a ∈ strings.map Written.str, a.IsRead := by
    intro a ha
    obtain ⟨s, hs, rfl⟩ := List.mem_map.1 ha
    exact isRead_str (hunquoted s hs)
  have hgeneric : generic "Literal".toList ((strings.map Written.str).map Written.entry) =
      .ok (.literal (strings.map .str)) := by
    have hliteral := generic_literal (strings.map .str)
    rw [List.map_map] at hliteral ⊢
    exact hliteral
  rw [spelling_strings]
  let text := genericText "Literal".toList (strings.map Written.str)
  have hdepth : text.length ≤ 2 * text.length + 3 := by omega
  have hprimary := primary_generic (isTypeWord_of_mem_keywords (by decide)) (by decide)
    (by simpa using hne) hread hgeneric [] hdepth
  have hunion := union_of_primary hprimary rfl ends_nil
  rw [List.append_nil] at hunion
  rw [whole, hunion]
  rfl

/-- What stands before a word `or` in a list of strings ends inside of one of them. -/
theorem exists_unclosed_of_spelling (hne : strings ≠ [])
    (hunquoted : ∀ s ∈ strings, '\x27' ∉ s) {before after : Text}
    (h : spelling (.literal (strings.map .str)) = before ++ (" or ".toList ++ after)) :
    ∃ inner, before = "Literal[".toList ++ inner ∧ Unclosed inner := by
  obtain ⟨s, more, rfl⟩ := List.exists_cons_of_ne_nil hne
  obtain ⟨hs, hmore⟩ := List.forall_mem_cons.1 hunquoted
  have htext : spelling (.literal ((s :: more).map .str)) = "Literal[".toList ++
      ((Written.str s).text ++ (moreTexts (more.map Written.str) ++ "]".toList)) := by
    rw [spelling_strings, genericText, List.map_cons, commaJoin_cons]
    simp
  obtain ⟨inner, rfl, hinner⟩ := exists_of_append_or (by decide) (htext.symm.trans h)
  exact ⟨inner, rfl, unclosed_of_append_or hs hmore hinner⟩

/-- A list of strings is read as it was written, unless it is torn at a word `or`. It is torn
inside of a string, which is then not closed. -/
theorem ofSpelling_strings (hne : strings ≠ []) (hunquoted : ∀ s ∈ strings, '\x27' ∉ s) :
    let text := spelling (.literal (strings.map .str))
    (ofSpelling text = .ok (.literal (strings.map .str)) ↔ ¬Torn 0 text) ∧
      (Torn 0 text → ofSpelling text = .error (.invalidSpelling text .unterminatedString)) := by
  intro text
  rcases firstCut_splitOr 0 text with ⟨hwhole, hsplit⟩ | ⟨before, after, hbefore, hsplit⟩
  · have hread : ofSpelling text = .ok (.literal (strings.map .str)) := by
      rw [ofSpelling, hsplit, List.mapM_cons, whole_strings hne hunquoted]
      rfl
    exact ⟨iff_of_true hread hwhole, fun htorn => absurd htorn hwhole⟩
  · have htorn : Torn 0 text := ⟨before, after, hbefore⟩
    have herror : ofSpelling text = .error (.invalidSpelling text .unterminatedString) := by
      obtain ⟨inner, rfl, hunclosed⟩ := exists_unclosed_of_spelling hne hunquoted hbefore.1
      rw [ofSpelling, hsplit, List.mapM_cons, whole_unclosed hunclosed]
      rfl
    refine ⟨iff_of_false (fun hread => ?_) (not_not_intro htorn), fun _ => herror⟩
    rw [herror] at hread
    cases hread

/-- Brackets, commas, bars, colons and double quotes, and a word `or` behind a bracket that a
string opens again. -/
theorem ofSpelling_strings_untorn :
    let strings := ["a] | b, [c or \"d".toList, ": or ".toList]
    (strings ≠ [] ∧ ∀ s ∈ strings, '\x27' ∉ s) ∧
      ofSpelling "Literal['a] | b, [c or \"d', ': or ']".toList =
        .ok (.literal (strings.map .str)) := by
  intro strings
  have hne : strings ≠ [] := by decide
  have hunquoted : ∀ s ∈ strings, '\x27' ∉ s := by decide
  exact ⟨⟨hne, hunquoted⟩, (ofSpelling_strings hne hunquoted).1.2 (by decide +kernel)⟩

/-- A string that closes the bracket in front of the word `or` is not read. -/
theorem not_ofSpelling_strings_torn :
    let strings := ["] or [".toList]
    (strings ≠ [] ∧ ∀ s ∈ strings, '\x27' ∉ s) ∧
      spelling (.literal (strings.map .str)) = "Literal['] or [']".toList ∧
      ofSpelling "Literal['] or [']".toList =
        .error (.invalidSpelling "Literal['] or [']".toList .unterminatedString) ∧
      ofSpelling "Literal['] or [']".toList ≠ .ok (.literal (strings.map .str)) := by
  intro strings
  have herror : ofSpelling "Literal['] or [']".toList =
      .error (.invalidSpelling "Literal['] or [']".toList .unterminatedString) := by
    decide +kernel
  refine ⟨by decide, rfl, herror, fun hread => ?_⟩
  rw [herror] at hread
  cases hread

end Hint
end CallDoc
