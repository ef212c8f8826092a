import CallDoc.Proofs.Type.Grammar
import CallDoc.Proofs.Value.Fallback

/-!
A choice reads a token as the first of its literals that the built-in parser of the literal's
own type makes of it, and every spelling that its error offers is one that it accepts.
-/
namespace CallDoc

open Text

/-! ## Literals as users type them -/

theorem Text.isSolid_of_not_isBlank {t : Text} (hne : t ≠ []) (h : ∀ c ∈ t, isBlank c = false) :
    IsSolid t := by
  obtain ⟨c, u, hhead⟩ := List.exists_cons_of_ne_nil hne
  refine ⟨⟨c, u, hhead, h c (by simp [hhead])⟩, ?_⟩
  exact ⟨t.dropLast, t.getLast hne, (List.dropLast_concat_getLast hne).symm,
    h _ (List.getLast_mem hne)⟩

theorem Text.isSolid_ofInt (i : Int) : IsSolid (ofInt i) := by
  have hdigits (n : Nat) : ∀ c ∈ ofNat n, isBlank c = false := fun c hc =>
    isBlank_of_isProseCharacter (isProseCharacter_of_isLetterOrDigit
      (by rw [isLetterOrDigit, isDigit_of_mem_ofNat hc, Bool.or_true]))
  cases i with
  | ofNat n => exact isSolid_of_not_isBlank (ofNat_ne_nil n) (hdigits n)
  | negSucc n =>
    exact isSolid_of_not_isBlank (List.cons_ne_nil _ _)
      (List.forall_mem_cons.2 ⟨by decide, hdigits (n + 1)⟩)

namespace Scalar

theorem int?_ofInt {i : Int} (hlow : -0x8000000000000000 ≤ i) (hhigh : i < 0x8000000000000000) :
    int? (ofInt i) = some i := by
  rw [int?, (isSolid_ofInt i).trim, Numeral.int64?_ofInt hlow hhigh]

theorem bool?_choice (b : Bool) : bool? (Literal.bool b).choice = some b := by
  cases b <;> decide +kernel

end Scalar

theorem Value.isLiteral_iff {v : Value} {literal : Literal} :
    v.isLiteral literal = true ↔ v = .ofLiteral literal := by
  cases literal <;> cases v <;> simp [isLiteral, ofLiteral]

/-! ## The literal that a token is read as -/

namespace ValueParser

theorem parse_scalar_iff {name token : Text} {convert : Converter} {total : Bool} {v : Value} :
    (scalar name convert total).parse [token] = .ok v ↔ convert token = some v := by
  rw [parse, single]
  cases convert token <;> simp

/-- The literals of a choice are tried in order. -/
theorem firstLiteral?_map (values : List Literal) (convert : Literal → Converter) (token : Text) :
    firstLiteral? (values.map fun literal => (literal, convert literal)) token =
      values.find? fun literal => (convert literal token).any (·.isLiteral literal) := by
  rw [firstLiteral?, List.find?_map, Option.map_map]
  exact Option.map_id_apply

end ValueParser

namespace Synthesis

variable {ns : Namespace} {overrides : Overrides} {values : List Literal} {token : Text}

/-- What a choice asks of a token for one of its literals. -/
def offers (overrides : Overrides) (token : Text) (literal : Literal) : Bool :=
  (literalConverter overrides literal token).any (·.isLiteral literal)

theorem exists_parse_choice (ns : Namespace) (overrides : Overrides) (values : List Literal) :
    ∃ p, synthesize ns overrides (.choice values) = .ok p ∧ ∀ token,
      p.parse [token] = match values.find? (offers overrides token) with
        | some literal => .ok (.ofLiteral literal)
        | none => .error (.choice token (values.map Literal.choice)) := by
  refine ⟨_, rfl, fun token => ?_⟩
  rw [ValueParser.parse, ValueParser.single, ValueParser.firstLiteral?_map, List.map_map]
  rfl

/-- The built-in parser of the literal's own type makes the literal of the token. -/
def ReadsAs (ns : Namespace) (token : Text) (literal : Literal) : Prop :=
  ∃ p, synthesize ns .empty (.scalar literal.typeName) = .ok p ∧
    p.parse [token] = .ok (.ofLiteral literal)

/-- The token is read as this literal, and as none before it. -/
def FirstRead (ns : Namespace) (values : List Literal) (token : Text) (literal : Literal) : Prop :=
  ReadsAs ns token literal ∧ ∃ before after, values = before ++ literal :: after ∧
    ∀ other ∈ before, ¬ReadsAs ns token other

/-- A literal is compared through the built-in parser of its type, unless the caller supplies
another. -/
theorem offers_iff {literal : Literal} (h : overrides.find? literal.typeName = none) :
    offers overrides token literal = true ↔ ReadsAs ns token literal := by
  have hparser : ∃ total, synthesize ns .empty (.scalar literal.typeName) =
      .ok (.scalar literal.typeName (literalConverter overrides literal) total) := by
    rw [literalConverter, h]
    cases literal with
    | str value => exact ⟨true, rfl⟩
    | int value => exact ⟨false, rfl⟩
    | bool value => exact ⟨false, rfl⟩
  obtain ⟨total, hparser⟩ := hparser
  rw [ReadsAs, hparser]
  simp [offers, ValueParser.parse_scalar_iff, Value.isLiteral_iff, Option.any_eq_true]

/-- Every literal is read from the spelling that a choice offers for it. -/
theorem readsAs_choice {literal : Literal} (h : literal.InRange) :
    ReadsAs ns literal.choice literal := by
  cases literal with
  | str value => exact ⟨_, rfl, rfl⟩
  | int value =>
    refine ⟨_, rfl, ValueParser.parse_scalar_iff.2 ?_⟩
    rw [Literal.choice, Scalar.int?_ofInt h.1 h.2]
    rfl
  | bool value =>
    refine ⟨_, rfl, ValueParser.parse_scalar_iff.2 ?_⟩
    rw [Scalar.bool?_choice]
    rfl

theorem find?_offers_eq_some_iff
    (h : ∀ literal, offers overrides token literal = true ↔ ReadsAs ns token literal)
    {literal : Literal} :
    values.find? (offers overrides token) = some literal ↔ FirstRead ns values token literal := by
  rw [List.find?_eq_some_iff_append, FirstRead]
  simp only [h, Bool.not_eq_true', Bool.eq_false_iff, ne_eq]

/-- Without conversions of the caller, a choice accepts what the built-in parser of the type of
one of its literals makes that literal of, and gives the first such literal. What it refuses it
refuses with the list of all its literals, each of which it accepts as it is listed. -/
theorem parse_choice_offered (ns : Namespace) (hstr : overrides.find? "str".toList = none)
    (hint : overrides.find? "int".toList = none) (hbool : overrides.find? "bool".toList = none)
    (hrange : ∀ literal ∈ values, literal.InRange) :
    ∃ p, synthesize ns overrides (.choice values) = .ok p ∧
      (∀ token,
        ((∃ v, p.parse [token] = .ok v) ↔ ∃ literal ∈ values, ReadsAs ns token literal) ∧
        (∀ v, p.parse [token] = .ok v ↔
          ∃ literal, FirstRead ns values token literal ∧ v = .ofLiteral literal) ∧
        ((¬∃ literal ∈ values, ReadsAs ns token literal) →
          p.parse [token] = .error (.choice token (values.map Literal.choice)))) ∧
      ∀ literal ∈ values, ∃ v, p.parse [literal.choice] = .ok v := by
  have hoffers (token : Text) (literal : Literal) :
      offers overrides token literal = true ↔ ReadsAs ns token literal := by
    cases literal
    · exact offers_iff hstr
    · exact offers_iff hint
    · exact offers_iff hbool
  obtain ⟨p, hp, hparse⟩ := exists_parse_choice ns overrides values
  have haccepts (token : Text) : (∃ v, p.parse [token] = .ok v) ↔
      ∃ literal ∈ values, ReadsAs ns token literal := by
    simp only [← hoffers, ← List.find?_isSome, hparse]
    cases values.find? (offers overrides token) <;> simp
  refine ⟨p, hp, fun token => ⟨haccepts token, fun v => ?_, fun hnone => ?_⟩,
    fun literal hmem => ?_⟩
  · simp only [← find?_offers_eq_some_iff (hoffers token), hparse]
    cases values.find? (offers overrides token) <;> simp [eq_comm]
  · have hfind : values.find? (offers overrides token) = none := by
      simpa [hoffers] using hnone
    rw [hparse, hfind]
  · exact (haccepts _).2 ⟨literal, hmem, readsAs_choice (hrange literal hmem)⟩

/-- A token that is an integer, a string and a truth value is read as what stands first. -/
theorem parse_choice_offered_mixed :
    let ns := Registry.standard.namespaceOf
    let overrides := Overrides.empty.insert "float".toList fun _ => none
    let values := [.int 1, .str "01".toList, .bool true, .int (-0x8000000000000000)]
    ((overrides.find? "str".toList = none ∧ overrides.find? "int".toList = none ∧
      overrides.find? "bool".toList = none) ∧ ∀ literal ∈ values, literal.InRange) ∧
    ∃ p, synthesize ns overrides (.choice values) = .ok p ∧
      p.parse ["01".toList] = .ok (.int 1) ∧ p.parse ["T".toList] = .ok (.bool true) ∧
      p.parse ["2".toList] = .error (.choice "2".toList
        ["1".toList, "01".toList, "true".toList, "-9223372036854775808".toList]) ∧
      ∃ v, p.parse ["-9223372036854775808".toList] = .ok v := by
  intro ns overrides values
  have hrange : ∀ literal ∈ values, literal.InRange := by
    simp only [values, List.forall_mem_cons, List.not_mem_nil, false_imp_iff, implies_true,
      and_true]
    exact ⟨⟨by decide, by decide⟩, trivial, trivial, by decide, by decide⟩
  have hnever : overrides.find? "str".toList = none ∧ overrides.find? "int".toList = none ∧
      overrides.find? "bool".toList = none := ⟨rfl, rfl, rfl⟩
  have hoffers (token : Text) (literal : Literal) : offers overrides token literal = true ↔
      ReadsAs ns token literal := by
    cases literal <;> exact offers_iff rfl
  obtain ⟨p, hp, hreads, hlisted⟩ :=
    parse_choice_offered ns hnever.1 hnever.2.1 hnever.2.2 hrange
  have hfirst (token : Text) (literal : Literal)
      (h : values.find? (offers overrides token) = some literal) :
      p.parse [token] = .ok (.ofLiteral literal) :=
    ((hreads token).2.1 _).2 ⟨literal, (find?_offers_eq_some_iff (hoffers token)).1 h, rfl⟩
  have hnone : ¬∃ literal ∈ values, ReadsAs ns "2".toList literal := by
    simp only [← hoffers]
    decide +kernel
  have hlowest : (Literal.int (-0x8000000000000000)).choice = "-9223372036854775808".toList := by
    decide +kernel
  exact ⟨⟨hnever, hrange⟩, p, hp, hfirst _ (.int 1) (by decide +kernel),
    hfirst _ (.bool true) (by decide +kernel), (hreads _).2.2 hnone,
    hlowest ▸ hlisted (.int (-0x8000000000000000)) (by decide)⟩

end Synthesis
end CallDoc
