import CallDoc.Proofs.Type.Canonical
import CallDoc.Proofs.Value.Fallback

/-!
Parsers of several tokens. A container, a tuple or a record hands each token to the parser in
its place and makes its value of what these give, or says what the first of them that refuses
its token says. Since no element of a reduced type is itself such a type, a wrong number of
tokens is a matter of the whole parser alone, and exactly then it is what the parser
complains of.
-/
namespace CallDoc

/-- The number of tokens that the arity asks for, where it asks for one. -/
def Arity.required? : Arity → Option Nat
  | .one => some 1
  | .exactly n => some n
  | .any => none

/-- The types of `count` elements of a container, a tuple or a record. -/
def Descriptor.elementTypes (count : Nat) : Descriptor → List Descriptor
  | .container elem | .variadicTuple elem => List.replicate count elem
  | .fixedTuple elems => elems
  | .record _ fields => fields.map Prod.snd
  | _ => []

theorem Descriptor.Canonical.flat_elementTypes {d : Descriptor} (h : d.Canonical) {count : Nat} :
    ∀ elem ∈ d.elementTypes count, elem.isContainer = false := by
  intro elem helem
  cases h with
  | container _ flat | variadicTuple _ flat => exact List.eq_of_mem_replicate helem ▸ flat
  | fixedTuple _ flat => exact flat elem helem
  | record _ _ flat =>
    obtain ⟨field, hfield, rfl⟩ := List.mem_map.1 helem
    exact flat field hfield
  | scalar | enumerated | choice | union => cases helem

/-- The values that a list, a tuple or a record holds, in order. -/
def Value.parts : Value → List Value
  | .list values | .tuple values => values
  | .record _ fields => fields.map Prod.snd
  | _ => []

namespace ValueParser

/-- The parsers that `count` tokens are handed to, for a parser of several tokens. -/
def readers? (count : Nat) : ValueParser → Option (List ValueParser)
  | container _ elem | variadic _ elem => some (List.replicate count elem)
  | tuple _ elems | record _ _ elems => some elems
  | _ => none

/-- What a parser of several tokens makes of their values. -/
def gather : ValueParser → List Value → Value
  | container _ _, values => .list values
  | record name fields _, values => .record name (fields.zip values)
  | _, values => .tuple values

/-- The result of a parser for the one token that it is handed. -/
def answer (read : ValueParser × Text) : Except ValueError Value := read.1.parse [read.2]

/-- Each parser gives the value in its place for its token. -/
def EachGives (reads : List (ValueParser × Text)) (values : List Value) : Prop :=
  List.Forall₂ (fun read value => answer read = .ok value) reads values

/-- The first of the parsers that refuses its token does so with this error. -/
def FirstRefusal (reads : List (ValueParser × Text)) (e : ValueError) : Prop :=
  ∃ before read after, reads = before ++ read :: after ∧
    (∀ earlier ∈ before, ∃ v, answer earlier = .ok v) ∧ answer read = .error e

variable {p : ValueParser} {tokens : List Text} {readers : List ValueParser}

theorem parseEach_eq (ps : List ValueParser) (tokens : List Text) :
    parseEach ps tokens = (ps.zip tokens).mapM answer := by
  induction ps generalizing tokens with
  | nil => rfl
  | cons p ps ih =>
    cases tokens with
    | nil => rfl
    | cons token tokens => rw [parseEach, List.zip_cons_cons, List.mapM_cons, ih, answer]

theorem parseEach_replicate (q : ValueParser) (tokens : List Text) :
    parseEach (List.replicate tokens.length q) tokens =
      tokens.mapM fun token => q.parse [token] := by
  induction tokens with
  | nil => rfl
  | cons token tokens ih =>
    rw [List.length_cons, List.replicate_succ, parseEach, List.mapM_cons, ih]

/-- A parser of several tokens asks for one token for each of its readers. -/
theorem parse_of_readers? (h : p.readers? tokens.length = some readers) :
    p.parse tokens = if tokens.length = readers.length then
        ((readers.zip tokens).mapM answer).map p.gather
      else .error (.arity p.name readers.length tokens.length) := by
  rw [← parseEach_eq]
  cases p with
  | container name elem | variadic name elem =>
    obtain rfl := Option.some.inj h
    rw [parse, parseEach_replicate, List.length_replicate, if_pos rfl]
    rfl
  | tuple name elems | record name fields elems =>
    obtain rfl := Option.some.inj h
    rw [parse]
    rfl
  | scalar | enumerated | choice | union => cases h

theorem required?_of_readers? {count : Nat} (h : p.readers? count = some readers) :
    p.arity.required? = some readers.length ∨
      p.arity.required? = none ∧ readers.length = count := by
  cases p with
  | container | variadic =>
    obtain rfl := Option.some.inj h
    exact Or.inr ⟨rfl, List.length_replicate⟩
  | tuple | record =>
    obtain rfl := Option.some.inj h
    exact Or.inl rfl
  | scalar | enumerated | choice | union => cases h

theorem arity_of_readers? {count : Nat} (h : p.readers? count = none) : p.arity = .one := by
  cases p with
  | container | variadic | tuple | record => cases h
  | scalar | enumerated | choice | union => rfl

theorem single_of_length_ne_one {name : Text} {read : Text → Except ValueError Value}
    (h : tokens.length ≠ 1) : single name read tokens = .error (.arity name 1 tokens.length) := by
  unfold single
  split
  · exact absurd rfl h
  · rfl

theorem parse_of_length_ne_one (h : p.arity = .one) (hlen : tokens.length ≠ 1) :
    p.parse tokens = .error (.arity p.name 1 tokens.length) := by
  cases p with
  | container | variadic | tuple | record => cases h
  | scalar | enumerated | choice | union => rw [parse, single_of_length_ne_one hlen, name]

/-- A parser of one token finds fault with the token only. -/
theorem parse_ne_arity (h : p.arity = .one) (token name : Text) (expected got : Nat) :
    p.parse [token] ≠ .error (.arity name expected got) := by
  intro herror
  cases p with
  | container | variadic | tuple | record => cases h
  | scalar | enumerated | choice | union =>
    rw [parse, single] at herror
    split at herror <;> cases herror

/-- A parser of one token complains of the number of tokens whenever it is handed none or
several. -/
theorem parse_arity_iff_of_one (h : p.arity = .one) (name : Text) (expected got : Nat) :
    p.parse tokens = .error (.arity name expected got) ↔
      (p.arity.required? = some expected ∧ tokens.length ≠ expected) ∧
        name = p.name ∧ got = tokens.length := by
  rw [h]
  by_cases hlen : tokens.length = 1
  · obtain ⟨token, rfl⟩ := List.length_eq_one_iff.1 hlen
    constructor
    · intro herror
      exact absurd herror (parse_ne_arity h token name expected got)
    · rintro ⟨⟨hexpected, hne⟩, -, -⟩
      exact absurd (Option.some.inj hexpected) hne
  · rw [parse_of_length_ne_one h hlen]
    constructor
    · rintro ⟨⟩
      exact ⟨⟨rfl, hlen⟩, rfl, rfl⟩
    · rintro ⟨⟨hexpected, -⟩, rfl, rfl⟩
      obtain rfl := Option.some.inj hexpected
      rfl

theorem length_readers (h : p.readers? tokens.length = some readers)
    (hfits : ∀ expected, p.arity.required? = some expected → tokens.length = expected) :
    tokens.length = readers.length := by
  rcases required?_of_readers? h with hrequired | ⟨-, hcount⟩
  · exact hfits _ hrequired
  · exact hcount.symm

theorem ne_length_readers_iff (h : p.readers? tokens.length = some readers) (expected : Nat) :
    (p.arity.required? = some expected ∧ tokens.length ≠ expected) ↔
      tokens.length ≠ readers.length ∧ expected = readers.length := by
  rcases required?_of_readers? h with hrequired | ⟨hrequired, hcount⟩
  · rw [hrequired, Option.some.injEq]
    constructor
    · rintro ⟨rfl, hne⟩
      exact ⟨hne, rfl⟩
    · rintro ⟨hne, rfl⟩
      exact ⟨rfl, hne⟩
  · rw [hrequired, hcount]
    simp

/-- Where the readers take one token each, a parser of several tokens complains of their number
only where it cannot hand one to each reader. -/
theorem parse_arity_iff_of_readers? (h : p.readers? tokens.length = some readers)
    (hone : ∀ q ∈ readers, q.arity = .one) (name : Text) (expected got : Nat) :
    p.parse tokens = .error (.arity name expected got) ↔
      (p.arity.required? = some expected ∧ tokens.length ≠ expected) ∧
        name = p.name ∧ got = tokens.length := by
  rw [ne_length_readers_iff h, parse_of_readers? h]
  split
  next hlen =>
    rw [map_eq_error_iff, mapM_eq_error_iff]
    constructor
    · rintro ⟨before, read, after, hsplit, -, herror⟩
      have hmem : read ∈ readers.zip tokens := hsplit ▸ List.mem_append_cons_self
      have harity := hone read.1 (List.of_mem_zip hmem).1
      exact absurd herror (parse_ne_arity harity read.2 name expected got)
    · rintro ⟨⟨hne, -⟩, -⟩
      exact absurd hlen hne
  next hlen =>
    constructor
    · rintro ⟨⟩
      exact ⟨⟨hlen, rfl⟩, rfl, rfl⟩
    · rintro ⟨⟨-, rfl⟩, rfl, rfl⟩
      rfl

theorem parse_eq_ok_iff_eachGives (h : p.readers? tokens.length = some readers)
    (hlen : tokens.length = readers.length) (v : Value) :
    p.parse tokens = .ok v ↔
      ∃ values, EachGives (readers.zip tokens) values ∧ v = p.gather values := by
  rw [parse_of_readers? h, if_pos hlen, map_eq_ok_iff]
  constructor
  · rintro ⟨values, hvalues, rfl⟩
    exact ⟨values, mapM_eq_ok_iff.1 hvalues, rfl⟩
  · rintro ⟨values, hvalues, rfl⟩
    exact ⟨values, mapM_eq_ok_iff.2 hvalues, rfl⟩

theorem parse_eq_error_iff_firstRefusal (h : p.readers? tokens.length = some readers)
    (hlen : tokens.length = readers.length) (e : ValueError) :
    p.parse tokens = .error e ↔ FirstRefusal (readers.zip tokens) e := by
  rw [parse_of_readers? h, if_pos hlen, map_eq_error_iff, mapM_eq_error_iff]
  rfl

end ValueParser

namespace Synthesis

open ValueParser

variable {ns : Namespace} {overrides : Overrides} {d : Descriptor} {p : ValueParser}

/-- Only a container, a tuple or a record has a parser of several tokens. -/
theorem arity_of_synthesize (hflat : d.isContainer = false)
    (h : synthesize ns overrides d = .ok p) : p.arity = .one := by
  cases builds_of_synthesize h with
  | container | variadicTuple | fixedTuple | record => cases hflat
  | _ => rfl

/-- The parsers that tokens are handed to are those of the types of the elements. -/
theorem readers_of_synthesize {count : Nat} {readers : List ValueParser}
    (h : synthesize ns overrides d = .ok p) (hreaders : p.readers? count = some readers) :
    List.Forall₂ (fun elem q => synthesize ns overrides elem = .ok q) (d.elementTypes count)
      readers := by
  cases builds_of_synthesize h with
  | @container elem q built | @variadicTuple elem q built =>
    obtain rfl := Option.some.inj hreaders
    change List.Forall₂ _ (List.replicate count elem) _
    induction count with
    | zero => exact .nil
    | succ count ih => exact .cons built (ih rfl)
  | fixedTuple built | record _ built =>
    obtain rfl := Option.some.inj hreaders
    exact built
  | _ => cases hreaders

/-- A value gathered of as many values as there are readers holds all of them. -/
theorem parts_gather {count : Nat} {readers : List ValueParser}
    (h : synthesize ns overrides d = .ok p) (hreaders : p.readers? count = some readers)
    {values : List Value} (hlen : values.length = readers.length) :
    (p.gather values).parts = values := by
  cases builds_of_synthesize h with
  | container | variadicTuple | fixedTuple => rfl
  | @record name fields ps built =>
    obtain rfl := Option.some.inj hreaders
    have hfields := built.length_eq
    rw [List.length_map] at hfields
    exact List.map_snd_zip (by rw [List.length_map, hfields, hlen])
  | _ => cases hreaders

end Synthesis

namespace Namespace

open Synthesis ValueParser

variable {ns ns' : Namespace} {hint : Hint} {d : Descriptor} {overrides : Overrides}
  {p : ValueParser}

/-- No element of a reduced type takes several tokens. -/
theorem arity_reader_of_reduce (hreduce : ns.reduce hint = .ok d)
    (hp : synthesize ns' overrides d = .ok p) {count : Nat} {readers : List ValueParser}
    (hreaders : p.readers? count = some readers) : ∀ q ∈ readers, q.arity = .one := by
  intro q hq
  obtain ⟨elem, helem, hbuilt⟩ := exists_of_mem_forall₂ (readers_of_synthesize hp hreaders) hq
  exact arity_of_synthesize ((canonical_of_reduce hreduce).flat_elementTypes elem helem) hbuilt

/-- The parser of a reduced type complains of the number of tokens exactly when it asks for
another one. Otherwise a container, a tuple or a record gathers all that the parsers of its
elements give for the tokens in their places, and fails with the first of them that fails. -/
theorem parse_elementwise (hreduce : ns.reduce hint = .ok d)
    (hp : synthesize ns' overrides d = .ok p) (tokens : List Text) :
    (∀ name expected got, p.parse tokens = .error (.arity name expected got) ↔
      (p.arity.required? = some expected ∧ tokens.length ≠ expected) ∧
        name = p.name ∧ got = tokens.length) ∧
    ∀ readers, p.readers? tokens.length = some readers →
      List.Forall₂ (fun elem q => synthesize ns' overrides elem = .ok q)
        (d.elementTypes tokens.length) readers ∧
      ((∀ expected, p.arity.required? = some expected → tokens.length = expected) →
        readers.length = tokens.length ∧
        (∀ v, p.parse tokens = .ok v ↔
          ∃ values, EachGives (readers.zip tokens) values ∧ v = p.gather values) ∧
        (∀ values, EachGives (readers.zip tokens) values → (p.gather values).parts = values) ∧
        ∀ e, p.parse tokens = .error e ↔ FirstRefusal (readers.zip tokens) e) := by
  constructor
  · intro name expected got
    cases hreaders : p.readers? tokens.length with
    | none => exact parse_arity_iff_of_one (arity_of_readers? hreaders) name expected got
    | some readers =>
      have hone := arity_reader_of_reduce hreduce hp hreaders
      exact parse_arity_iff_of_readers? hreaders hone name expected got
  · intro readers hreaders
    refine ⟨readers_of_synthesize hp hreaders, fun hfits => ?_⟩
    have hlen := length_readers hreaders hfits
    have hparts (values : List Value) (hgives : EachGives (readers.zip tokens) values) :
        (p.gather values).parts = values := by
      have hcount := List.Forall₂.length_eq hgives
      rw [List.length_zip, hlen, Nat.min_self] at hcount
      exact parts_gather hp hreaders hcount.symm
    exact ⟨hlen.symm, parse_eq_ok_iff_eachGives hreaders hlen, hparts,
      parse_eq_error_iff_firstRefusal hreaders hlen⟩

/-- A record with a conversion supplied for its first field: three tokens that fit, then two of
three that do not, then one too few. -/
theorem parse_elementwise_record :
    let settings := TypeDef.record "Settings".toList [("mode".toList, .named "Mode".toList),
      ("size".toList, .union [.named "bool".toList, .named "int".toList]),
      ("level".toList, .literal [.int 1, .str "top".toList])]
    let ns := ((Registry.standard.register "Mode".toList (.enumeration "Mode".toList [])).register
      "Settings".toList settings).namespaceOf
    let overrides := Overrides.empty.insert "Mode".toList fun token =>
      if token = "yes".toList then some (.bool true) else none
    ∃ d p, (ns.reduce (.named "Settings".toList) = .ok d ∧ synthesize ns overrides d = .ok p) ∧
      p.parse ["yes".toList, "7".toList, "top".toList] =
        .ok (.record "Settings".toList [("mode".toList, .bool true), ("size".toList, .int 7),
          ("level".toList, .str "top".toList)]) ∧
      p.parse ["yes".toList, "x".toList, "2".toList] =
        .error (.invalid "Union[bool, int]".toList "x".toList) ∧
      p.parse ["yes".toList, "7".toList] = .error (.arity "Settings".toList 3 2) := by
  intro settings ns overrides
  let d := Descriptor.record "Settings".toList [("mode".toList, .enumerated "Mode".toList []),
    ("size".toList, .union [.scalar "bool".toList, .scalar "int".toList]),
    ("level".toList, .choice [.int 1, .str "top".toList])]
  have hd : ns.reduce (.named "Settings".toList) = .ok d := rfl
  have hp : synthesize ns overrides d = .ok (.record "Settings".toList
    ["mode".toList, "size".toList, "level".toList] [_, _, _]) := rfl
  have hfits : ∀ expected, Arity.required? (.exactly 3) = some expected → 3 = expected :=
    fun _ => Option.some.inj
  refine ⟨d, _, ⟨hd, hp⟩, ?_, ?_, ?_⟩
  · have hparse := ((parse_elementwise hd hp ["yes".toList, "7".toList, "top".toList]).2 _ rfl).2
    exact ((hparse hfits).2.1 _).2 ⟨_, .cons rfl (.cons rfl (.cons rfl .nil)), rfl⟩
  · have hparse := ((parse_elementwise hd hp ["yes".toList, "x".toList, "2".toList]).2 _ rfl).2
    exact ((hparse hfits).2.2.2 _).2 ⟨[_], _, [_], rfl, List.forall_mem_singleton.2 ⟨_, rfl⟩, rfl⟩
  · have hparse := (parse_elementwise hd hp ["yes".toList, "7".toList]).1 "Settings".toList 3 2
    exact hparse.2 ⟨⟨rfl, by decide⟩, rfl, rfl⟩

end Namespace
end CallDoc
