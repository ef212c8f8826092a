import CallDoc.Proofs.Section.ReferenceLanguage

/-!
The colon at which the first line of an item is split. A line is cut at the leftmost references, one
behind the other, and the colon is the first of the segments between them that has no other colon
beside it in its own segment. The two sides with that colon between them are the line.
-/
namespace CallDoc.Section

open Text

/-! ## Cutting a line at its references -/

inductive Segment where
  | plain (t : Text)
  | reference (t : Text)

def Segment.text : Segment → Text
  | .plain t => t
  | .reference t => t

def joined (segments : List Segment) : Text := segments.flatMap Segment.text

/-- No reference starts in the text before `tail`. -/
def Plain (t tail : Text) : Prop :=
  ∀ u, u <:+ t → u ≠ [] → ∀ r ∈ references, ¬ r <+: u ++ tail

/-- The leftmost reference ends a segment, and behind it the search begins anew. -/
inductive Cut : Text → List Segment → Prop
  | last {t} (plain : Plain t []) : Cut t [.plain t]
  | next {t lead found rest segments} (eq : t = lead ++ (found ++ rest))
      (plain : Plain lead (found ++ rest)) (matched : Matched (found ++ rest) found)
      (cut : Cut rest segments) : Cut t (.plain lead :: .reference found :: segments)

theorem Cut.joined_eq {line : Text} {segments : List Segment} (h : Cut line segments) :
    joined segments = line := by
  induction h with
  | last plain => exact List.append_nil _
  | next eq plain matched cut ih =>
    rw [eq, ← ih]
    rfl

theorem plain_nil (tail : Text) : Plain [] tail :=
  fun _ hsuffix hne => absurd (List.suffix_nil.1 hsuffix) hne

theorem plain_cons_iff {c : Char} {t tail : Text} :
    Plain (c :: t) tail ↔ crossReference? (c :: (t ++ tail)) = none ∧ Plain t tail := by
  rw [crossReference?_eq_none_iff]
  constructor
  · exact fun h => ⟨h _ List.suffix_rfl (List.cons_ne_nil c t),
      fun u hsuffix => h u (hsuffix.trans (List.suffix_cons c t))⟩
  · rintro ⟨hstart, hmore⟩ u hsuffix hne
    rcases List.suffix_cons_iff.1 hsuffix with rfl | hsuffix
    · exact hstart
    · exact hmore u hsuffix hne

theorem Plain.of_append {u v tail : Text} (h : Plain (u ++ v) tail) : Plain v tail :=
  fun w hsuffix => h w (hsuffix.trans (List.suffix_append u v))

theorem Plain.of_append_left {u v tail : Text} (h : Plain (u ++ v) tail) :
    Plain u (v ++ tail) := by
  intro w hsuffix hne r hr
  obtain ⟨lead, rfl⟩ := hsuffix
  rw [← List.append_assoc]
  exact h (w ++ v) ⟨lead, by rw [List.append_assoc]⟩ (List.append_ne_nil_of_left_ne_nil hne v) r hr

/-- A reference does not start before its segment is over. -/
theorem Plain.eq_nil {u v tail r : Text} (h : Plain (u ++ v) tail) (hr : r ∈ references)
    (hstarts : r <+: v ++ tail) : v = [] := by
  by_contra hne
  exact h v (List.suffix_append u v) hne r hr hstarts

/-! ### There is one cut of each line -/

theorem exists_matched_or_plain (t : Text) :
    (∃ lead found rest, t = lead ++ (found ++ rest) ∧ Plain lead (found ++ rest) ∧
      Matched (found ++ rest) found) ∨ Plain t [] := by
  induction t with
  | nil => exact .inr (plain_nil [])
  | cons c t ih =>
    cases hstart : crossReference? (c :: t) with
    | some sides =>
      obtain ⟨heq, hmatched⟩ := crossReference?_eq_some_iff.1 hstart
      exact .inl ⟨[], sides.1, sides.2, heq, plain_nil _, heq ▸ hmatched⟩
    | none =>
      rcases ih with ⟨lead, found, rest, rfl, hplain, hmatched⟩ | hplain
      · exact .inl ⟨c :: lead, found, rest, rfl, plain_cons_iff.2 ⟨hstart, hplain⟩, hmatched⟩
      · exact .inr (plain_cons_iff.2 ⟨by rwa [List.append_nil], hplain⟩)

theorem exists_cut (line : Text) : ∃ segments, Cut line segments := by
  induction hn : line.length using Nat.strong_induction_on generalizing line with
  | _ n ih =>
    rcases exists_matched_or_plain line with ⟨lead, found, rest, heq, hplain, hmatched⟩ | hplain
    · have hpos := List.length_pos_iff.2 (ne_nil_of_mem_references hmatched.mem)
      have hlen := congrArg List.length heq
      rw [List.length_append, List.length_append] at hlen
      obtain ⟨segments, hcut⟩ := ih rest.length (by omega) rest rfl
      exact ⟨_, .next heq hplain hmatched hcut⟩
    · exact ⟨_, .last hplain⟩

/-- Two searches that find a reference find the same one. -/
theorem Matched.unique_behind {lead lead' found found' rest rest' : Text}
    (heq : lead ++ (found ++ rest) = lead' ++ (found' ++ rest'))
    (hplain : Plain lead (found ++ rest)) (hplain' : Plain lead' (found' ++ rest'))
    (h : Matched (found ++ rest) found) (h' : Matched (found' ++ rest') found') :
    lead = lead' ∧ found = found' ∧ rest = rest' := by
  obtain ⟨rfl, htail⟩ : lead = lead' ∧ found ++ rest = found' ++ rest' := by
    rcases List.append_eq_append_iff.1 heq with ⟨more, rfl, htail⟩ | ⟨more, rfl, htail⟩
    · obtain rfl := hplain'.eq_nil h.mem (htail ▸ h.starts)
      exact ⟨(List.append_nil lead).symm, htail⟩
    · obtain rfl := hplain.eq_nil h'.mem (htail ▸ h'.starts)
      exact ⟨List.append_nil lead', htail.symm⟩
  obtain rfl := h.unique (htail ▸ h')
  exact ⟨rfl, rfl, List.append_cancel_left htail⟩

theorem Cut.unique {line : Text} {segments other : List Segment} (h : Cut line segments)
    (h' : Cut line other) : segments = other := by
  have hnot {lead found rest : Text} (hplain : Plain (lead ++ (found ++ rest)) [])
      (hmatched : Matched (found ++ rest) found) : False := by
    have hnil := hplain.eq_nil hmatched.mem (by rw [List.append_nil]; exact hmatched.starts)
    exact ne_nil_of_mem_references hmatched.mem (List.append_eq_nil_iff.1 hnil).1
  induction h generalizing other with
  | last plain =>
    cases h' with
    | last => rfl
    | next eq _ matched => exact (hnot (eq ▸ plain) matched).elim
  | next eq plain matched cut ih =>
    cases h' with
    | last plain' => exact (hnot (eq ▸ plain') matched).elim
    | next eq' plain' matched' cut' =>
      obtain ⟨rfl, rfl, rfl⟩ := matched.unique_behind (eq.symm.trans eq') plain plain' matched'
      rw [ih cut']

/-! ## Lone colons -/

/-- The two sides of a colon in a segment have no other colon next to it. -/
structure IsLone (before after : Text) : Prop where
  left : before.getLast? ≠ some ':'
  right : after.head? ≠ some ':'

/-- The two sides of a lone colon outside the references of a line. -/
inductive LoneColon : List Segment → Text → Text → Prop
  | here {t u v segments} (eq : t = u ++ ':' :: v) (lone : IsLone u v) :
      LoneColon (.plain t :: segments) u (v ++ joined segments)
  | behind {segment segments before after} (colon : LoneColon segments before after) :
      LoneColon (segment :: segments) (segment.text ++ before) after

structure FirstLone (segments : List Segment) (before after : Text) : Prop where
  colon : LoneColon segments before after
  first : ∀ before' after', LoneColon segments before' after' → before.length ≤ before'.length

theorem LoneColon.joined_eq {segments : List Segment} {before after : Text}
    (h : LoneColon segments before after) : joined segments = before ++ ':' :: after := by
  induction h with
  | @here t u v segments eq lone =>
    rw [joined, List.flatMap_cons, Segment.text, eq, List.append_assoc]
    rfl
  | behind colon ih =>
    rw [joined, List.flatMap_cons, List.append_assoc]
    exact congrArg _ ih

/-! ### One segment -/

/-- Behind the segment the search goes on with another reference, or with nothing. -/
theorem nextPlain?_append {t tail : Text} (hplain : Plain t tail)
    (htail : nextPlain? tail = none) : nextPlain? (t ++ tail) = t.head? := by
  cases t with
  | nil => exact htail
  | cons c t =>
    rw [nextPlain?, List.cons_append, (plain_cons_iff.1 hplain).1]
    rfl

theorem isLone_iff {u v tail : Text} (hplain : Plain (u ++ ':' :: v) tail)
    (htail : nextPlain? tail = none) :
    IsLone u v ↔ u.getLast? ≠ some ':' ∧ nextPlain? (v ++ tail) ≠ some ':' := by
  rw [nextPlain?_append (plain_cons_iff.1 hplain.of_append).2 htail]
  exact ⟨fun h => ⟨h.left, h.right⟩, fun h => ⟨h.1, h.2⟩⟩

/-- The scan passes what holds no lone colon; `lead` is what it has passed of the segment. -/
theorem splitLoneColon?_passed {t tail : Text} (hplain : Plain t tail) (lead : Text)
    (hpassed : ∀ u v, t = u ++ ':' :: v →
      ¬ ((lead ++ u).getLast? ≠ some ':' ∧ nextPlain? (v ++ tail) ≠ some ':')) :
    splitLoneColon? lead.getLast? (t ++ tail) =
      (splitLoneColon? (lead ++ t).getLast? tail).map fun (before, after) => (t ++ before, after) := by
  induction t generalizing lead with
  | nil =>
    rw [List.append_nil]
    exact Option.map_id'.symm
  | cons c t ih =>
    obtain ⟨hstart, hmore⟩ := plain_cons_iff.1 hplain
    have hcolon : ¬ (c = ':' ∧ lead.getLast? ≠ some ':' ∧ nextPlain? (t ++ tail) ≠ some ':') := by
      rintro ⟨rfl, hlone⟩
      exact hpassed [] t rfl (by rwa [List.append_nil])
    have hrest := ih hmore (lead ++ [c]) fun u v he => by
      rw [List.append_assoc]
      exact hpassed (c :: u) v (congrArg (c :: ·) he)
    rw [List.getLast?_concat, List.append_assoc] at hrest
    rw [List.cons_append, splitLoneColon?_cons hstart, if_neg hcolon, hrest, Option.map_map]
    rfl

theorem splitLoneColon?_plain {t tail : Text} (hplain : Plain t tail)
    (htail : nextPlain? tail = none) (hnone : ∀ u v, t = u ++ ':' :: v → ¬ IsLone u v) :
    splitLoneColon? none (t ++ tail) =
      (splitLoneColon? t.getLast? tail).map fun (before, after) => (t ++ before, after) := by
  refine splitLoneColon?_passed hplain [] fun u v he hlone => hnone u v he ?_
  rw [he] at hplain
  exact (isLone_iff hplain htail).2 hlone

theorem splitLoneColon?_lone {u v tail : Text} (hplain : Plain (u ++ ':' :: v) tail)
    (htail : nextPlain? tail = none) (hlone : IsLone u v)
    (hfirst : ∀ u' v', u ++ ':' :: v = u' ++ ':' :: v' → IsLone u' v' → u.length ≤ u'.length) :
    splitLoneColon? none (u ++ ':' :: v ++ tail) = some (u, v ++ tail) := by
  have hhere : splitLoneColon? u.getLast? (':' :: (v ++ tail)) = some ([], v ++ tail) := by
    have hcolon := (isLone_iff hplain htail).1 hlone
    rw [splitLoneColon?_cons (plain_cons_iff.1 hplain.of_append).1, if_pos ⟨rfl, hcolon⟩]
  -- a lone colon before this one would be the first
  have hpassed : ∀ u' v', u = u' ++ ':' :: v' →
      ¬ (u'.getLast? ≠ some ':' ∧ nextPlain? (v' ++ (':' :: v ++ tail)) ≠ some ':') := by
    rintro u' v' rfl hcolon
    have hshape : u' ++ ':' :: v' ++ ':' :: v = u' ++ ':' :: (v' ++ ':' :: v) := by simp
    rw [hshape] at hplain hfirst
    rw [← List.append_assoc] at hcolon
    have := hfirst u' _ rfl ((isLone_iff hplain htail).2 hcolon)
    rw [List.length_append, List.length_cons] at this
    omega
  have hscan := splitLoneColon?_passed hplain.of_append_left [] hpassed
  rw [List.nil_append, List.cons_append, hhere] at hscan
  simpa using hscan

/-- A text holds no lone colon, or a first one. -/
theorem exists_first_lone (t : Text) :
    (∀ u v, t = u ++ ':' :: v → ¬ IsLone u v) ∨
      ∃ u v, t = u ++ ':' :: v ∧ IsLone u v ∧
        ∀ u' v', t = u' ++ ':' :: v' → IsLone u' v' → u.length ≤ u'.length := by
  classical
  by_cases h : ∃ n u v, u.length = n ∧ t = u ++ ':' :: v ∧ IsLone u v
  · obtain ⟨u, v, hlen, heq, hlone⟩ := Nat.find_spec h
    refine .inr ⟨u, v, heq, hlone, fun u' v' heq' hlone' => ?_⟩
    rw [hlen]
    exact Nat.find_min' h ⟨u', v', rfl, heq', hlone'⟩
  · exact .inl fun u v heq hlone => h ⟨_, u, v, rfl, heq, hlone⟩

/-! ### All segments of a line -/

theorem loneColon_plain_iff {t : Text} {segments : List Segment} {before after : Text} :
    LoneColon (.plain t :: segments) before after ↔
      (∃ v, t = before ++ ':' :: v ∧ IsLone before v ∧ after = v ++ joined segments) ∨
        ∃ more, before = t ++ more ∧ LoneColon segments more after := by
  constructor
  · rintro (⟨eq, lone⟩ | ⟨colon⟩)
    · exact .inl ⟨_, eq, lone, rfl⟩
    · exact .inr ⟨_, rfl, colon⟩
  · rintro (⟨v, eq, lone, rfl⟩ | ⟨more, rfl, colon⟩)
    · exact .here eq lone
    · exact .behind colon

theorem loneColon_reference_iff {r : Text} {segments : List Segment} {before after : Text} :
    LoneColon (.reference r :: segments) before after ↔
      ∃ more, before = r ++ more ∧ LoneColon segments more after := by
  constructor
  · rintro ⟨⟩
    exact ⟨_, rfl, ‹_›⟩
  · rintro ⟨more, rfl, colon⟩
    exact .behind colon

theorem not_loneColon_nil {before after : Text} : ¬ LoneColon [] before after := nofun

theorem FirstLone.behind {segment : Segment} {segments : List Segment} {before after : Text}
    (h : FirstLone segments before after)
    (hskip : ∀ before after, LoneColon (segment :: segments) before after →
      ∃ more, before = segment.text ++ more ∧ LoneColon segments more after) :
    FirstLone (segment :: segments) (segment.text ++ before) after := by
  refine ⟨.behind h.colon, fun before' after' hcolon => ?_⟩
  obtain ⟨more, rfl, hmore⟩ := hskip before' after' hcolon
  rw [List.length_append, List.length_append]
  exact Nat.add_le_add_left (h.first more after' hmore) _

/-- The scan passes a segment as a whole, or it ends at the first lone colon of it. -/
theorem splitLoneColon?_segment {t tail : Text} (hplain : Plain t tail)
    (htail : nextPlain? tail = none) (segments : List Segment) :
    (splitLoneColon? none (t ++ tail) =
        (splitLoneColon? t.getLast? tail).map (fun (before, after) => (t ++ before, after)) ∧
      ∀ before after, LoneColon (.plain t :: segments) before after →
        ∃ more, before = t ++ more ∧ LoneColon segments more after) ∨
    ∃ before v, splitLoneColon? none (t ++ tail) = some (before, v ++ tail) ∧
      FirstLone (.plain t :: segments) before (v ++ joined segments) := by
  rcases exists_first_lone t with hnone | ⟨u, v, rfl, hlone, hfirst⟩
  · refine .inl ⟨splitLoneColon?_plain hplain htail hnone, fun before after hcolon => ?_⟩
    rcases loneColon_plain_iff.1 hcolon with ⟨v, heq, hlone, -⟩ | hmore
    · exact absurd hlone (hnone before v heq)
    · exact hmore
  · refine .inr ⟨u, v, splitLoneColon?_lone hplain htail hlone hfirst, .here rfl hlone, ?_⟩
    intro before after hcolon
    rcases loneColon_plain_iff.1 hcolon with ⟨w, heq, hlone', -⟩ | ⟨more, rfl, -⟩
    · exact hfirst before w heq hlone'
    · rw [List.length_append, List.length_append]
      omega

/-- The scan ends at the first lone colon of the cut line, if there is one. -/
theorem splitLoneColon?_cut {line : Text} {segments : List Segment} (h : Cut line segments) :
    (splitLoneColon? none line = none ∧ ∀ before after, ¬ LoneColon segments before after) ∨
      ∃ before after, splitLoneColon? none line = some (before, after) ∧
        FirstLone segments before after := by
  induction h with
  | @last t plain =>
    rcases splitLoneColon?_segment plain rfl [] with ⟨hscan, hmore⟩ | ⟨before, v, hscan, hfirst⟩
    · refine .inl ⟨?_, fun before after hcolon => ?_⟩
      · rwa [List.append_nil, splitLoneColon?, Option.map_none] at hscan
      · obtain ⟨more, -, hcolon⟩ := hmore before after hcolon
        exact not_loneColon_nil hcolon
    · rw [List.append_nil] at hscan
      exact .inr ⟨before, _, hscan, hfirst⟩
  | @next t lead found rest segments eq plain matched cut ih =>
    have href := crossReference?_eq_some_iff.2 ⟨rfl, matched⟩
    have htail : nextPlain? (found ++ rest) = none := by
      rw [nextPlain?, href]
      rfl
    rcases splitLoneColon?_segment plain htail (.reference found :: segments) with
      ⟨hscan, hmore⟩ | ⟨before, v, hscan, hfirst⟩
    · -- the scan goes on behind the reference, from where the line is cut anew
      rw [splitLoneColon?_of_crossReference? href, Option.map_map, ← eq] at hscan
      rcases ih with ⟨hnone, hno⟩ | ⟨before, after, hsome, hfirst⟩
      · refine .inl ⟨by rw [hscan, hnone, Option.map_none], fun before after hcolon => ?_⟩
        obtain ⟨_, -, hreference⟩ := hmore before after hcolon
        obtain ⟨more, -, hrest⟩ := loneColon_reference_iff.1 hreference
        exact hno more after hrest
      · exact .inr ⟨lead ++ (found ++ before), after, by rw [hscan, hsome]; rfl,
          (hfirst.behind fun _ _ => loneColon_reference_iff.1).behind hmore⟩
    · refine .inr ⟨before, v ++ (found ++ rest), eq ▸ hscan, ?_⟩
      rwa [← cut.joined_eq]

/-- A line is split at its first lone colon outside of references, or not at all where it has none;
of the line only that colon and the blanks around either side are left out. -/
theorem partition_firstLone (line : Text) :
    ∃ segments, (∀ other, Cut line other ↔ other = segments) ∧
      ((partition line = (trim line, none) ∧
          ∀ before after, ¬ LoneColon segments before after) ∨
        ∃ before after, partition line = (trim before, some (trim after)) ∧
          line = before ++ ':' :: after ∧ FirstLone segments before after) := by
  obtain ⟨segments, hcut⟩ := exists_cut line
  refine ⟨segments, fun other => ⟨fun h => h.unique hcut, fun h => h ▸ hcut⟩, ?_⟩
  rcases splitLoneColon?_cut hcut with ⟨hnone, hno⟩ | ⟨before, after, hsome, hfirst⟩
  · exact .inl ⟨by rw [partition, hnone], hno⟩
  · have hline := hcut.joined_eq.symm.trans hfirst.colon.joined_eq
    exact .inr ⟨before, after, by rw [partition, hsome], hline, hfirst⟩

/-- A colon before a reference is a lone one, although the reference starts with another. -/
example : partition "a::class:\x60B\x60 b".toList =
    ("a".toList, some ":class:\x60B\x60 b".toList) := by cbv

end CallDoc.Section
