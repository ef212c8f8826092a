import CallDoc.Proofs.Value.Conformance
import CallDoc.Type.Reduce

/-!
Classes whose objects are made from a text. Reducing a name keeps only the name that its
definition carries, and the parser is looked up under that name again, among the built-in
types first. A class found under some other name is therefore read exactly when its own name
leads back to it: a name that nothing is found under leaves it without a parser, and the name
of a built-in type gives it the parser of that type.
-/
namespace CallDoc

/-- A class that takes one text. -/
def TypeDef.textClass (own : Text) : TypeDef := .classType own (some (.named "str".toList))

theorem TypeDef.eq_textClass_of_fromText {definition : TypeDef}
    (h : definition.fromText = true) : definition = textClass definition.name := by
  unfold fromText at h
  split at h
  · rw [eq_of_beq h]
    rfl
  · cases h

/-- A class reduces to the scalar of its own name, whatever name it is found under. -/
theorem Namespace.reduce_classType {registry : Registry} {key own : Text} {argument : Option Hint}
    (h : registry.find? key = some (.classType own argument)) :
    registry.namespaceOf.reduce (.named key) = .ok (.scalar own) := by
  change reduceName registry.find? (registry.definitions.length + 1) key = _
  rw [reduceName, h]

namespace Synthesis

variable {ns : Namespace} {name : Text}

/-- No built-in type makes objects. -/
theorem not_object_of_converter {b : Builtin} {convert : Converter} {total : Bool}
    (hconvert : b.converter? = some (convert, total)) (token own argument : Text) :
    convert token ≠ some (.object own argument) := by
  intro hv
  cases b with
  | list => cases hconvert
  | str | path | none =>
    obtain ⟨rfl, -⟩ := Prod.mk.inj (Option.some.inj hconvert)
    cases hv
  | int | float | bool | slice =>
    obtain ⟨rfl, -⟩ := Prod.mk.inj (Option.some.inj hconvert)
    obtain ⟨_, -, hv⟩ := Option.map_eq_some_iff.1 hv
    cases hv

theorem scalar_textClass (hname : Builtin.ofName? name = none)
    (hfind : ns.find? name = some (.textClass name)) :
    scalar ns name = .ok (.scalar name (fun token => some (.object name token)) false) := by
  rw [scalar, hname, hfind]
  rfl

/-- A parser that makes an object of a token, where the caller supplies none, is the constructor
of a class. -/
theorem textClass_of_synthesize {overrides : Overrides} {p : ValueParser} {own token : Text}
    (hnone : overrides.find? name = none) (h : synthesize ns overrides (.scalar name) = .ok p)
    (hv : p.parse [token] = .ok (.object own token)) :
    Builtin.ofName? name = none ∧ ns.find? name = some (.textClass own) := by
  cases builds_of_synthesize h with
  | supplied hname found =>
    obtain rfl := Option.some.inj hname
    rw [hnone] at found
    cases found
  | builtin _ hconvert =>
    obtain ⟨_, -, hread⟩ := parse_scalar_eq_ok hv
    exact absurd hread (not_object_of_converter hconvert _ _ _)
  | object hname hfind hfromText =>
    obtain ⟨_, -, hread⟩ := parse_scalar_eq_ok hv
    obtain ⟨hown, -⟩ := Value.object.inj (Option.some.inj hread)
    rw [TypeDef.eq_textClass_of_fromText hfromText, hown] at hfind
    exact ⟨hname, hfind⟩

/-- The type found under `key` has a parser, which makes an object of `own` of every token. -/
def MakesObjects (ns : Namespace) (overrides : Overrides) (key own : Text) : Prop :=
  ∃ d p, ns.reduce (.named key) = .ok d ∧ synthesize ns overrides d = .ok p ∧
    ∀ token, p.parse [token] = .ok (.object own token)

/-- A class of one text, found under `key`, makes objects of tokens exactly when its own name
belongs to no built-in type and a class of one text with that name is found under it. -/
theorem makesObjects_iff {registry : Registry} {overrides : Overrides} {key own : Text}
    (hkey : registry.find? key = some (.textClass own)) (hown : overrides.find? own = none) :
    MakesObjects registry.namespaceOf overrides key own ↔
      Builtin.ofName? own = none ∧ registry.find? own = some (.textClass own) := by
  have hreduce := Namespace.reduce_classType hkey
  constructor
  · rintro ⟨d, p, hd, hp, hparse⟩
    obtain rfl := Except.ok.inj (hreduce.symm.trans hd)
    exact textClass_of_synthesize hown hp (hparse [])
  · rintro ⟨hname, hfind⟩
    have hp : synthesize registry.namespaceOf overrides (.scalar own) =
        .ok (.scalar own (fun token => some (.object own token)) false) := by
      rw [synthesize_scalar, hown]
      exact scalar_textClass hname hfind
    exact ⟨_, _, hreduce, hp, fun token => rfl⟩

/-- Found under a second name as well as its own, a class makes objects under both. -/
theorem makesObjects_iff_alias :
    let registry := (Registry.standard.register "Url".toList
      (.textClass "Url".toList)).register "web.Url".toList (.textClass "Url".toList)
    registry.find? "web.Url".toList = some (.textClass "Url".toList) ∧
      Overrides.empty.find? "Url".toList = none ∧
      MakesObjects registry.namespaceOf .empty "web.Url".toList "Url".toList :=
  ⟨rfl, rfl, (makesObjects_iff rfl rfl).2 ⟨rfl, rfl⟩⟩

/-- Found under another name only, the class reduces to its own name, for which there is no
parser. -/
theorem not_makesObjects_alias :
    let registry := Registry.standard.register "web.Url".toList (.textClass "Url".toList)
    registry.find? "web.Url".toList = some (.textClass "Url".toList) ∧
      Overrides.empty.find? "Url".toList = none ∧
      registry.namespaceOf.reduce (.named "web.Url".toList) = .ok (.scalar "Url".toList) ∧
      synthesize registry.namespaceOf .empty (.scalar "Url".toList) =
        .error (.noParser "Url".toList) ∧
      ¬MakesObjects registry.namespaceOf .empty "web.Url".toList "Url".toList := by
  intro registry
  have hreduce : registry.namespaceOf.reduce (.named "web.Url".toList) =
      .ok (.scalar "Url".toList) := rfl
  have hparser : synthesize registry.namespaceOf .empty (.scalar "Url".toList) =
      .error (.noParser "Url".toList) := rfl
  refine ⟨rfl, rfl, hreduce, hparser, ?_⟩
  rintro ⟨d, p, hd, hp, -⟩
  obtain rfl := Except.ok.inj (hreduce.symm.trans hd)
  rw [hparser] at hp
  cases hp

end Synthesis
end CallDoc
