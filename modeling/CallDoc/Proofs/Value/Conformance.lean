import CallDoc.Proofs.Numeral.Integer
import CallDoc.Proofs.Value.Building

/-!
Parsers are sound for the types they are built from. `Conforms` says, by recursion on a
descriptor, which values may come out for which tokens; without parsers supplied by the
caller, every value that a synthesized parser gives conforms. A parser inside another one
sees exactly one token.
-/
namespace CallDoc

namespace Descriptor

/-- The value of a scalar type for a token: that of the built-in type with the name, or an
object made from the token. An object carries the name of its definition, which need not be
the name in the descriptor. -/
def ScalarValue (ns : Namespace) (name token : Text) (v : Value) : Prop :=
  match Builtin.ofName? name with
  | some .str => v = .str token
  | some .path => v = .path token
  | some .int => ∃ n, v = .int n ∧ -0x8000000000000000 ≤ n ∧ n < 0x8000000000000000
  | some .float => ∃ x, v = .float x
  | some .bool => ∃ b, v = .bool b
  | some .slice => ∃ s, v = .slice s
  | some .none => v = .none
  | some .list => False
  | .none => ∃ definition, ns.find? name = some definition ∧ v = .object definition.name token

mutual

/-- The value has the type, as what the tokens stand for. -/
def Conforms (ns : Namespace) : Descriptor → List Text → Value → Prop
  | .scalar name, tokens, v => ∃ token, tokens = [token] ∧ ScalarValue ns name token v
  | .enumerated name members, tokens, v =>
    ∃ member ∈ members, tokens = [member] ∧ v = .enumMember name member
  | .choice values, tokens, v => tokens.length = 1 ∧ ∃ literal ∈ values, v = .ofLiteral literal
  | .union members, tokens, v => tokens.length = 1 ∧ ConformsToOne ns members tokens v
  | .fixedTuple elems, tokens, v => ∃ values, v = .tuple values ∧ ConformsEach ns elems tokens values
  | .variadicTuple elem, tokens, v =>
    ∃ values, v = .tuple values ∧
      List.Forall₂ (fun token value => Conforms ns elem [token] value) tokens values
  | .container elem, tokens, v =>
    ∃ values, v = .list values ∧
      List.Forall₂ (fun token value => Conforms ns elem [token] value) tokens values
  | .record name fields, tokens, v =>
    ∃ values, v = .record name values ∧ ConformsFields ns fields tokens values

/-- The value has the type of one of the members. -/
def ConformsToOne (ns : Namespace) : List Descriptor → List Text → Value → Prop
  | [], _, _ => False
  | d :: more, tokens, v => Conforms ns d tokens v ∨ ConformsToOne ns more tokens v

/-- As many types, tokens and values, each value of the type in its place. -/
def ConformsEach (ns : Namespace) : List Descriptor → List Text → List Value → Prop
  | [], [], [] => True
  | d :: more, token :: tokens, v :: values =>
    Conforms ns d [token] v ∧ ConformsEach ns more tokens values
  | _, _, _ => False

/-- As `ConformsEach`, where each value carries the name of its field. -/
def ConformsFields (ns : Namespace) :
    List (Text × Descriptor) → List Text → List (Text × Value) → Prop
  | [], [], [] => True
  | (name, d) :: more, token :: tokens, (name', v) :: values =>
    name' = name ∧ Conforms ns d [token] v ∧ ConformsFields ns more tokens values
  | _, _, _ => False

end

theorem conformsToOne_of_mem {ns : Namespace} {d : Descriptor} {members : List Descriptor}
    {tokens : List Text} {v : Value} (hd : d ∈ members) (hv : Conforms ns d tokens v) :
    ConformsToOne ns members tokens v := by
  induction members with
  | nil => cases hd
  | cons m more ih =>
    rcases List.mem_cons.1 hd with rfl | hd
    · exact Or.inl hv
    · exact Or.inr (ih hd)

end Descriptor

namespace ValueParser

/-- What a parser of one token accepts is a single token. -/
theorem single_eq_ok {name : Text} {read : Text → Except ValueError Value} {tokens : List Text}
    {v : Value} (h : single name read tokens = .ok v) :
    ∃ token, tokens = [token] ∧ read token = .ok v := by
  unfold single at h
  split at h
  · exact ⟨_, rfl, h⟩
  · cases h

/-- The first accepted value comes from one of the parsers. -/
theorem firstAccepted?_eq_some {members : List ValueParser} {token : Text} {v : Value}
    (h : firstAccepted? members token = some v) : ∃ p ∈ members, p.parse [token] = .ok v := by
  induction members with
  | nil => simp [firstAccepted?] at h
  | cons p more ih =>
    rw [firstAccepted?] at h
    split at h
    · rename_i value hp
      obtain rfl := Option.some.inj h
      exact ⟨p, List.mem_cons_self, hp⟩
    · obtain ⟨q, hq, hv⟩ := ih h
      exact ⟨q, List.mem_cons_of_mem _ hq, hv⟩

/-- The literal that a choice gives is one of its options. -/
theorem firstLiteral?_eq_some {options : List (Literal × Converter)} {token : Text}
    {literal : Literal} (h : firstLiteral? options token = some literal) :
    literal ∈ options.map Prod.fst := by
  obtain ⟨option, hoption, rfl⟩ := Option.map_eq_some_iff.1 h
  exact List.mem_map_of_mem (List.mem_of_find?_eq_some hoption)

end ValueParser

namespace Synthesis

/-- The parsers of a union are among those of its members. -/
theorem mem_of_untilTotal {attempts : List (Except Error ValueParser)} {ps : List ValueParser}
    (h : untilTotal attempts = .ok ps) : ∀ p ∈ ps, .ok p ∈ attempts := by
  fun_induction untilTotal attempts generalizing ps with
  | case1 =>
    obtain rfl := Except.ok.inj h
    simp
  | case2 => cases h
  | case3 q more htotal =>
    obtain rfl := Except.ok.inj h
    simp
  | case4 q more htotal ih =>
    obtain ⟨qs, hqs, rfl⟩ := map_eq_ok_iff.1 h
    intro p hp
    rcases List.mem_cons.1 hp with rfl | hp
    · exact List.mem_cons_self
    · exact List.mem_cons_of_mem _ (ih hqs p hp)

theorem mem_askingOrder {ns : Namespace} {overrides : Overrides} {members : List Descriptor}
    {attempt : Except Error ValueParser}
    (h : attempt ∈ askingOrder (attemptAll ns overrides members)) :
    ∃ d ∈ members, synthesize ns overrides d = attempt := by
  obtain ⟨⟨d, r⟩, hmem, rfl⟩ := List.mem_map.1 h
  have hall : (d, r) ∈ attemptAll ns overrides members := by
    rcases List.mem_append.1 hmem with hmem | hmem
    · exact (List.mem_filter.1 hmem).1
    · exact (List.mem_filter.1 hmem).1
  rw [attemptAll_eq] at hall
  obtain ⟨m, hm, he⟩ := List.mem_map.1 hall
  obtain ⟨rfl, rfl⟩ := Prod.mk.inj he
  exact ⟨m, hm, rfl⟩

/-- What a parser built for a type, none supplied by the caller, accepts has that type. -/
def Sound (ns : Namespace) (d : Descriptor) : Prop :=
  ∀ p tokens v, synthesize ns .empty d = .ok p → p.parse tokens = .ok v → d.Conforms ns tokens v

/-- The conversion of a built-in type gives values of that type. -/
theorem scalarValue_of_converter {ns : Namespace} {name token : Text} {b : Builtin}
    {convert : Converter} {total : Bool} {v : Value} (hname : Builtin.ofName? name = some b)
    (hconvert : b.converter? = some (convert, total)) (hv : convert token = some v) :
    Descriptor.ScalarValue ns name token v := by
  unfold Descriptor.ScalarValue
  rw [hname]
  cases b with
  | list => cases hconvert
  | none =>
    obtain ⟨rfl, -⟩ := Prod.mk.inj (Option.some.inj hconvert)
    cases hv
  | str | path =>
    obtain ⟨rfl, -⟩ := Prod.mk.inj (Option.some.inj hconvert)
    exact (Option.some.inj hv).symm
  | int =>
    obtain ⟨rfl, -⟩ := Prod.mk.inj (Option.some.inj hconvert)
    obtain ⟨n, hn, rfl⟩ := Option.map_eq_some_iff.1 hv
    exact ⟨n, rfl, Numeral.int64?_bounds hn⟩
  | float | bool | slice =>
    obtain ⟨rfl, -⟩ := Prod.mk.inj (Option.some.inj hconvert)
    obtain ⟨x, -, rfl⟩ := Option.map_eq_some_iff.1 hv
    exact ⟨x, rfl⟩

/-- A scalar parser refuses what its conversion refuses. -/
theorem parse_scalar_eq_ok {name : Text} {convert : Converter} {total : Bool}
    {tokens : List Text} {v : Value}
    (h : (ValueParser.scalar name convert total).parse tokens = .ok v) :
    ∃ token, tokens = [token] ∧ convert token = some v := by
  change ValueParser.single name _ tokens = .ok v at h
  obtain ⟨token, rfl, hread⟩ := ValueParser.single_eq_ok h
  refine ⟨token, rfl, ?_⟩
  split at hread
  · rename_i value hvalue
    rw [hvalue, Except.ok.inj hread]
  · cases hread

theorem sound_scalar (ns : Namespace) (name : Text) : Sound ns (.scalar name) := by
  intro p tokens v hp hv
  cases builds_of_synthesize hp with
  | supplied _ found => cases found
  | builtin hname hconvert =>
    obtain ⟨token, rfl, hread⟩ := parse_scalar_eq_ok hv
    exact ⟨token, rfl, scalarValue_of_converter hname hconvert hread⟩
  | object hname hdefinition =>
    obtain ⟨token, rfl, hread⟩ := parse_scalar_eq_ok hv
    refine ⟨token, rfl, ?_⟩
    unfold Descriptor.ScalarValue
    rw [hname]
    exact ⟨_, hdefinition, (Option.some.inj hread).symm⟩

theorem sound_enumerated (ns : Namespace) (name : Text) (members : List Text) :
    Sound ns (.enumerated name members) := by
  intro p tokens v hp hv
  obtain rfl := Except.ok.inj (hp : Except.ok (ValueParser.enumerated name members) = .ok p)
  change ValueParser.single name _ tokens = .ok v at hv
  obtain ⟨token, rfl, hread⟩ := ValueParser.single_eq_ok hv
  split at hread
  · rename_i hmem
    exact ⟨token, List.contains_iff_mem.1 hmem, rfl, (Except.ok.inj hread).symm⟩
  · cases hread

theorem sound_choice (ns : Namespace) (values : List Literal) : Sound ns (.choice values) := by
  intro p tokens v hp hv
  obtain rfl := Except.ok.inj (hp : Except.ok (ValueParser.choice _ _) = .ok p)
  change ValueParser.single _ _ tokens = .ok v at hv
  obtain ⟨token, rfl, hread⟩ := ValueParser.single_eq_ok hv
  split at hread
  · rename_i literal hliteral
    have hmem := ValueParser.firstLiteral?_eq_some hliteral
    rw [List.map_map] at hmem
    exact ⟨rfl, literal, by simpa using hmem, (Except.ok.inj hread).symm⟩
  · cases hread

theorem sound_union {ns : Namespace} {members : List Descriptor}
    (h : ∀ d ∈ members, Sound ns d) : Sound ns (.union members) := by
  intro p tokens v hp hv
  cases builds_of_synthesize hp with
  | supplied own => cases own
  | union built =>
    change ValueParser.single _ _ tokens = .ok v at hv
    obtain ⟨token, rfl, hread⟩ := ValueParser.single_eq_ok hv
    split at hread
    · rename_i value hvalue
      obtain rfl := Except.ok.inj hread
      obtain ⟨q, hq, hparse⟩ := ValueParser.firstAccepted?_eq_some hvalue
      obtain ⟨d, hd, hsynth⟩ := mem_askingOrder (mem_of_untilTotal built q hq)
      exact ⟨rfl, Descriptor.conformsToOne_of_mem hd (h d hd q _ _ hsynth hparse)⟩
    · cases hread

/-- Values read one by one, each by the parser of its own type. -/
theorem conformsEach_of_parseEach {ns : Namespace} {ds : List Descriptor}
    {ps : List ValueParser} {tokens : List Text} {values : List Value}
    (h : ∀ d ∈ ds, Sound ns d)
    (hps : List.Forall₂ (fun d p => synthesize ns .empty d = .ok p) ds ps)
    (hlen : tokens.length = ps.length) (hv : ValueParser.parseEach ps tokens = .ok values) :
    Descriptor.ConformsEach ns ds tokens values := by
  induction hps generalizing tokens values with
  | nil =>
    obtain rfl := List.length_eq_zero_iff.1 hlen
    obtain rfl := Except.ok.inj hv
    trivial
  | @cons d p ds ps hd hrest ih =>
    cases tokens with
    | nil => cases hlen
    | cons token tokens =>
      rw [ValueParser.parseEach] at hv
      cases hvalue : p.parse [token] with
      | error e => rw [hvalue] at hv; cases hv
      | ok value =>
        cases hmore : ValueParser.parseEach ps tokens with
        | error e => rw [hvalue, hmore] at hv; cases hv
        | ok more =>
          rw [hvalue, hmore] at hv
          obtain rfl := Except.ok.inj hv
          exact ⟨h d List.mem_cons_self p [token] value hd hvalue,
            ih (fun d hd => h d (List.mem_cons_of_mem _ hd)) (Nat.succ.inj hlen) hmore⟩

/-- Naming the values of a record puts each under the name of its field. -/
theorem conformsFields_zip {ns : Namespace} {fields : List (Text × Descriptor)}
    {tokens : List Text} {values : List Value}
    (h : Descriptor.ConformsEach ns (fields.map Prod.snd) tokens values) :
    Descriptor.ConformsFields ns fields tokens ((fields.map Prod.fst).zip values) := by
  induction fields generalizing tokens values with
  | nil =>
    cases tokens <;> cases values <;> trivial
  | cons field more ih =>
    obtain ⟨name, d⟩ := field
    cases tokens with
    | nil => cases values <;> exact h
    | cons token tokens =>
      cases values with
      | nil => exact h
      | cons v values => exact ⟨rfl, h.1, ih h.2⟩

theorem sound_fixedTuple {ns : Namespace} {elems : List Descriptor}
    (h : ∀ d ∈ elems, Sound ns d) : Sound ns (.fixedTuple elems) := by
  intro p tokens v hp hv
  cases builds_of_synthesize hp with
  | supplied own => cases own
  | @fixedTuple elems ps built =>
    change (if tokens.length = ps.length then _ else _) = _ at hv
    split at hv
    · rename_i hlen
      obtain ⟨values, hvalues, rfl⟩ := map_eq_ok_iff.1 hv
      exact ⟨values, rfl, conformsEach_of_parseEach h built hlen hvalues⟩
    · cases hv

theorem sound_record {ns : Namespace} {name : Text} {fields : List (Text × Descriptor)}
    (h : ∀ field ∈ fields, Sound ns field.2) : Sound ns (.record name fields) := by
  intro p tokens v hp hv
  cases builds_of_synthesize hp with
  | supplied _ found => cases found
  | @record name fields ps built =>
    change (if tokens.length = ps.length then _ else _) = _ at hv
    split at hv
    · rename_i hlen
      obtain ⟨values, hvalues, rfl⟩ := map_eq_ok_iff.1 hv
      have hds : ∀ d ∈ fields.map Prod.snd, Sound ns d := fun d hd => by
        obtain ⟨field, hfield, rfl⟩ := List.mem_map.1 hd
        exact h field hfield
      exact ⟨_, rfl, conformsFields_zip (conformsEach_of_parseEach hds built hlen hvalues)⟩
    · cases hv

theorem sound_variadicTuple {ns : Namespace} {elem : Descriptor} (h : Sound ns elem) :
    Sound ns (.variadicTuple elem) := by
  intro p tokens v hp hv
  cases builds_of_synthesize hp with
  | supplied own => cases own
  | @variadicTuple elem q built =>
    change (tokens.mapM fun token => q.parse [token]).map _ = .ok v at hv
    obtain ⟨values, hvalues, rfl⟩ := map_eq_ok_iff.1 hv
    exact ⟨values, rfl, (mapM_eq_ok_iff.1 hvalues).imp fun _ _ hv => h q _ _ built hv⟩

theorem sound_container {ns : Namespace} {elem : Descriptor} (h : Sound ns elem) :
    Sound ns (.container elem) := by
  intro p tokens v hp hv
  cases builds_of_synthesize hp with
  | supplied own => cases own
  | @container elem q built =>
    change (tokens.mapM fun token => q.parse [token]).map _ = .ok v at hv
    obtain ⟨values, hvalues, rfl⟩ := map_eq_ok_iff.1 hv
    exact ⟨values, rfl, (mapM_eq_ok_iff.1 hvalues).imp fun _ _ hv => h q _ _ built hv⟩

mutual

/-- Every type has sound parsers. -/
theorem sound (ns : Namespace) : ∀ d : Descriptor, Sound ns d
  | .scalar name => sound_scalar ns name
  | .enumerated name members => sound_enumerated ns name members
  | .choice values => sound_choice ns values
  | .union members => sound_union (sound_all ns members)
  | .fixedTuple elems => sound_fixedTuple (sound_all ns elems)
  | .record _ fields => sound_record (sound_fields ns fields)
  | .variadicTuple elem => sound_variadicTuple (sound ns elem)
  | .container elem => sound_container (sound ns elem)

theorem sound_all (ns : Namespace) : ∀ ds : List Descriptor, ∀ d ∈ ds, Sound ns d
  | [] => List.forall_mem_nil _
  | d :: more => List.forall_mem_cons.2 ⟨sound ns d, sound_all ns more⟩

theorem sound_fields (ns : Namespace) :
    ∀ fields : List (Text × Descriptor), ∀ field ∈ fields, Sound ns field.2
  | [] => List.forall_mem_nil _
  | (_, d) :: more => List.forall_mem_cons.2 ⟨sound ns d, sound_fields ns more⟩

end

/-- A value that a synthesized parser gives for tokens is a value of the type it was built
from, for these tokens. -/
theorem conforms_of_parse {ns : Namespace} {d : Descriptor} {p : ValueParser}
    {tokens : List Text} {v : Value} (hp : synthesize ns .empty d = .ok p)
    (hv : p.parse tokens = .ok v) : d.Conforms ns tokens v :=
  sound ns d p tokens v hp hv

/-- A record whose second field may be absent or an object, found as `web.Url` but called
`Url` by its definition. -/
theorem conforms_of_parse_record :
    let ns := (Registry.standard.register "web.Url".toList
      (.classType "Url".toList (some (.named "str".toList)))).namespaceOf
    let d := Descriptor.record "Visit".toList
      [("count".toList, .scalar "int".toList),
        ("site".toList, .union [.scalar "web.Url".toList, .none]),
        ("kind".toList, .choice [.bool true, .str "new".toList])]
    let tokens := [" -12".toList, "x.org".toList, "new".toList]
    let v := Value.record "Visit".toList
      [("count".toList, .int (-12)), ("site".toList, .object "Url".toList "x.org".toList),
        ("kind".toList, .str "new".toList)]
    ∃ p, synthesize ns .empty d = .ok p ∧ p.parse tokens = .ok v ∧ d.Conforms ns tokens v := by
  refine ⟨_, rfl, ?_, conforms_of_parse rfl ?_⟩
  · rfl
  · rfl

end Synthesis
end CallDoc
