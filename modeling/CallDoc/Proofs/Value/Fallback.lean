import CallDoc.Proofs.Value.Conformance

/-!
A union asks its members one after the other, the absent value first. Building nothing
behind a member that accepts every token cannot be seen from outside: the parser of the
union behaves like the plain ordered fallback over the parsers of all its members, and
exists even where those behind such a member do not.
-/
namespace CallDoc

namespace ValueParser

def Refuses (p : ValueParser) (token : Text) : Prop := ∃ e, p.parse [token] = .error e

/-- `v` is what the first of the parsers that accepts the token makes of it. -/
def FirstValue (ps : List ValueParser) (token : Text) (v : Value) : Prop :=
  ∃ before p after, ps = before ++ p :: after ∧ (∀ q ∈ before, q.Refuses token) ∧
    p.parse [token] = .ok v

/-- The parsers that claim to accept every token do. -/
def Honest (p : ValueParser) : Prop := p.isTotal = true → ∀ token, ∃ v, p.parse [token] = .ok v

theorem firstAccepted?_of_refuses {before after : List ValueParser} {token : Text}
    (h : ∀ q ∈ before, q.Refuses token) :
    firstAccepted? (before ++ after) token = firstAccepted? after token := by
  induction before with
  | nil => rfl
  | cons q before ih =>
    obtain ⟨e, he⟩ := h q List.mem_cons_self
    rw [List.cons_append, firstAccepted?, he]
    exact ih fun r hr => h r (List.mem_cons_of_mem _ hr)

theorem firstAccepted?_eq_none {ps : List ValueParser} {token : Text}
    (h : ∀ p ∈ ps, p.Refuses token) : firstAccepted? ps token = none := by
  rw [← List.append_nil ps, firstAccepted?_of_refuses h, firstAccepted?]

theorem firstAccepted?_of_firstValue {ps : List ValueParser} {token : Text} {v : Value}
    (h : FirstValue ps token v) : firstAccepted? ps token = some v := by
  obtain ⟨before, p, after, rfl, hbefore, hp⟩ := h
  rw [firstAccepted?_of_refuses hbefore, firstAccepted?, hp]

/-- Nothing behind an honest parser that accepts every token is asked. -/
theorem firstAccepted?_total {p : ValueParser} (hp : p.Honest) (htotal : p.isTotal = true)
    (more : List ValueParser) (token : Text) :
    firstAccepted? (p :: more) token = firstAccepted? [p] token := by
  obtain ⟨v, hv⟩ := hp htotal token
  rw [firstAccepted?, firstAccepted?, hv]

end ValueParser

namespace Synthesis

open ValueParser

/-- The members of a union in the order they are asked. -/
def asked (members : List Descriptor) : List Descriptor :=
  members.filter (fun d => d.isNone) ++ members.filter fun d => !d.isNone

theorem askingOrder_attemptAll (ns : Namespace) (overrides : Overrides)
    (members : List Descriptor) :
    askingOrder (attemptAll ns overrides members) =
      (asked members).map (synthesize ns overrides) := by
  rw [askingOrder, attemptAll_eq, asked, List.filter_map, List.filter_map, ← List.map_append,
    List.map_map]
  rfl

/-- The type is read as it stands: `str` or a path, for which the caller supplies nothing. -/
def Verbatim (overrides : Overrides) (d : Descriptor) : Prop :=
  ∃ b : Builtin, (b = .str ∨ b = .path) ∧ d = .scalar b.name ∧ overrides.find? b.name = none

theorem synthesize_verbatim {overrides : Overrides} {d : Descriptor}
    (h : Verbatim overrides d) (ns : Namespace) :
    ∃ p, synthesize ns overrides d = .ok p ∧ p.isTotal = true := by
  obtain ⟨b, hb, rfl, hnone⟩ := h
  rw [synthesize_scalar, hnone]
  rcases hb with rfl | rfl
  · exact ⟨_, rfl, rfl⟩
  · exact ⟨_, rfl, rfl⟩

/-- A synthesized parser claims to accept every token only if it does. -/
theorem honest_of_synthesize {ns : Namespace} {overrides : Overrides} {d : Descriptor}
    {p : ValueParser} (h : synthesize ns overrides d = .ok p) : p.Honest := by
  intro htotal token
  cases builds_of_synthesize h with
  | @builtin name b convert total hname hconvert =>
    cases b with
    | str | path =>
      obtain ⟨rfl, -⟩ := Prod.mk.inj (Option.some.inj hconvert)
      exact ⟨_, rfl⟩
    | list => cases hconvert
    | int | float | bool | slice | none =>
      obtain ⟨-, rfl⟩ := Prod.mk.inj (Option.some.inj hconvert)
      cases htotal
  | _ => cases htotal

/-- Where every member has a parser, stopping at one that accepts everything leaves the
fallback as it is. -/
theorem untilTotal_ok {ps : List ValueParser} (h : ∀ p ∈ ps, p.Honest) :
    ∃ qs, untilTotal (ps.map .ok) = .ok qs ∧
      ∀ token, firstAccepted? qs token = firstAccepted? ps token := by
  induction ps with
  | nil => exact ⟨[], rfl, fun _ => rfl⟩
  | cons p more ih =>
    rw [List.map_cons, untilTotal]
    split
    · rename_i htotal
      exact ⟨[p], rfl, fun token =>
        (firstAccepted?_total (h p List.mem_cons_self) htotal more token).symm⟩
    · obtain ⟨qs, hqs, heq⟩ := ih fun q hq => h q (List.mem_cons_of_mem _ hq)
      refine ⟨p :: qs, by rw [hqs]; rfl, fun token => ?_⟩
      simp only [firstAccepted?, heq]

/-- Behind a parser that accepts everything, attempts may fail: they are not made. -/
theorem untilTotal_append {front : List ValueParser} {p : ValueParser}
    (h : ∀ q ∈ front ++ [p], q.Honest) (htotal : p.isTotal = true)
    (back : List (Except Error ValueParser)) :
    ∃ qs, untilTotal (front.map .ok ++ .ok p :: back) = .ok qs ∧
      ∀ more token, firstAccepted? qs token = firstAccepted? (front ++ p :: more) token := by
  induction front with
  | nil =>
    refine ⟨[p], by simp [untilTotal, htotal], fun more token => ?_⟩
    exact (firstAccepted?_total (h p (by simp)) htotal more token).symm
  | cons q front ih =>
    rw [List.map_cons, List.cons_append, untilTotal]
    split
    · rename_i hq
      exact ⟨[q], rfl, fun more token =>
        (firstAccepted?_total (h q (by simp)) hq _ token).symm⟩
    · obtain ⟨qs, hqs, heq⟩ := ih fun r hr => h r (List.mem_cons_of_mem _ hr)
      refine ⟨q :: qs, by rw [hqs]; rfl, fun more token => ?_⟩
      simp only [List.cons_append, firstAccepted?, heq more]

/-- The union has a parser, and it gives what the first of `ps` that accepts a token gives,
or refuses the token in the union's own name. -/
def FallsBack (ns : Namespace) (overrides : Overrides) (members : List Descriptor)
    (ps : List ValueParser) : Prop :=
  ∃ p, synthesize ns overrides (.union members) = .ok p ∧ ∀ token,
    (∀ v, FirstValue ps token v → p.parse [token] = .ok v) ∧
    ((∀ q ∈ ps, q.Refuses token) →
      p.parse [token] = .error (.invalid (Descriptor.union members).spelling token))

theorem fallsBack_of_untilTotal {ns : Namespace} {overrides : Overrides}
    {members : List Descriptor} {ps qs : List ValueParser}
    (hqs : untilTotal ((asked members).map (synthesize ns overrides)) = .ok qs)
    (h : ∀ token, firstAccepted? qs token = firstAccepted? ps token) :
    FallsBack ns overrides members ps := by
  refine ⟨.union (Descriptor.union members).spelling qs, ?_,
    fun token => ⟨fun v hv => ?_, fun hps => ?_⟩⟩
  · change (untilTotal (askingOrder (attemptAll ns overrides members))).map _ = _
    rw [askingOrder_attemptAll, hqs]
    rfl
  · rw [parse, single, h, firstAccepted?_of_firstValue hv]
  · rw [parse, single, h, firstAccepted?_eq_none hps]

/-- The parser of a union is the ordered fallback over its members' own parsers, the absent
value first. When one of them reads every token as it stands, those asked after it need have
no parser, and whatever is taken in their place makes no difference. -/
theorem union_fallsBack (ns : Namespace) (overrides : Overrides) (members : List Descriptor)
    (own : Descriptor → ValueParser) :
    ((∀ d ∈ members, synthesize ns overrides d = .ok (own d)) →
      FallsBack ns overrides members ((asked members).map own)) ∧
    ∀ front d back, asked members = front ++ d :: back → Verbatim overrides d →
      (∀ m ∈ front ++ [d], synthesize ns overrides m = .ok (own m)) →
      ∀ more, FallsBack ns overrides members (front.map own ++ own d :: more) := by
  constructor
  · intro hown
    have hall : ∀ d ∈ asked members, synthesize ns overrides d = .ok (own d) := by
      intro d hd
      rcases List.mem_append.1 hd with hd | hd
      · exact hown d (List.mem_filter.1 hd).1
      · exact hown d (List.mem_filter.1 hd).1
    have hhonest : ∀ p ∈ (asked members).map own, p.Honest := by
      intro p hp
      obtain ⟨d, hd, rfl⟩ := List.mem_map.1 hp
      exact honest_of_synthesize (hall d hd)
    obtain ⟨qs, hqs, heq⟩ := untilTotal_ok hhonest
    refine fallsBack_of_untilTotal ?_ heq
    rw [List.map_congr_left hall, ← hqs, List.map_map]
    rfl
  · intro front d back hasked hverbatim hown more
    obtain ⟨p, hp, htotal⟩ := synthesize_verbatim hverbatim ns
    obtain rfl := Except.ok.inj (hp.symm.trans (hown d (by simp)))
    have hhonest : ∀ q ∈ front.map own ++ [own d], q.Honest := by
      intro q hq
      rw [← List.map_singleton, ← List.map_append] at hq
      obtain ⟨m, hm, rfl⟩ := List.mem_map.1 hq
      exact honest_of_synthesize (hown m hm)
    obtain ⟨qs, hqs, heq⟩ :=
      untilTotal_append hhonest htotal (back.map (synthesize ns overrides))
    refine fallsBack_of_untilTotal ?_ (heq more)
    rw [hasked, List.map_append, List.map_cons, hp, ← hqs, List.map_map,
      List.map_congr_left fun m hm => hown m (List.mem_append_left _ hm)]
    rfl

/-- With `str` overridden a union goes on behind it; without, what follows `str` may be a
type that nothing is read as. -/
theorem union_fallsBack_str :
    let ns := (Registry.standard.register "Handle".toList
      (.classType "Handle".toList none)).namespaceOf
    let refusing := Overrides.empty.insert "str".toList fun _ => none
    let own overrides d := match synthesize ns overrides d with
      | .ok p => p
      | .error _ => .enumerated [] []
    let str := Descriptor.scalar "str".toList
    let int := Descriptor.scalar "int".toList
    let handle := Descriptor.scalar "Handle".toList
    FallsBack ns refusing [str, .none, int] [own refusing .none, own refusing str, own refusing int] ∧
    synthesize ns .empty handle = .error (.noParser "Handle".toList) ∧
    FallsBack ns .empty [int, str, handle, .none] [own .empty .none, own .empty int, own .empty str] := by
  intro ns refusing own str int handle
  refine ⟨(union_fallsBack ns refusing [str, .none, int] (own refusing)).1 ?_, rfl,
    (union_fallsBack ns .empty [int, str, handle, .none] (own .empty)).2 [.none, int] str [handle]
      (by decide) ⟨.str, .inl rfl, rfl, rfl⟩ ?_ []⟩
  · simp only [List.forall_mem_cons]
    exact ⟨rfl, rfl, rfl, List.forall_mem_nil _⟩
  · simp only [List.cons_append, List.nil_append, List.forall_mem_cons]
    exact ⟨rfl, rfl, rfl, List.forall_mem_nil _⟩

end Synthesis
end CallDoc
