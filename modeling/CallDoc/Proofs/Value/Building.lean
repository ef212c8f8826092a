import CallDoc.Proofs.Results
import CallDoc.Value.Synthesis

/-!
The ways in which the parser of a type is built, one for each kind of type and one for a
conversion that the caller supplies. Whatever holds of all synthesized parsers is shown by a
case for each of them.
-/
namespace CallDoc.Synthesis

theorem attemptAll_eq (ns : Namespace) (overrides : Overrides) (ds : List Descriptor) :
    attemptAll ns overrides ds = ds.map fun d => (d, synthesize ns overrides d) := by
  induction ds with
  | nil => rfl
  | cons d more ih => rw [attemptAll, ih, List.map_cons]

theorem attemptFields_eq (ns : Namespace) (overrides : Overrides)
    (fields : List (Text × Descriptor)) :
    attemptFields ns overrides fields =
      fields.map fun field => (field.2, synthesize ns overrides field.2) := by
  induction fields with
  | nil => rfl
  | cons field more ih => rw [attemptFields, ih, List.map_cons]

theorem sequence_attemptAll (ns : Namespace) (overrides : Overrides) (ds : List Descriptor) :
    sequence (attemptAll ns overrides ds) = ds.mapM (synthesize ns overrides) := by
  rw [sequence, attemptAll_eq, List.mapM_map]
  rfl

theorem sequence_attemptFields (ns : Namespace) (overrides : Overrides)
    (fields : List (Text × Descriptor)) :
    sequence (attemptFields ns overrides fields) =
      fields.mapM fun field => synthesize ns overrides field.2 := by
  rw [sequence, attemptFields_eq, List.mapM_map]
  rfl

/-- The parser is one that is built for the type. -/
inductive Builds (ns : Namespace) (overrides : Overrides) : Descriptor → ValueParser → Prop
  | supplied {d : Descriptor} {name : Text} {convert : Converter} (own : d.identity? = some name)
      (found : overrides.find? name = some convert) :
    Builds ns overrides d (.scalar name convert false)
  | builtin {name : Text} {b : Builtin} {convert : Converter} {total : Bool}
      (named : Builtin.ofName? name = some b) (reads : b.converter? = some (convert, total)) :
    Builds ns overrides (.scalar name) (.scalar name convert total)
  | object {name : Text} {definition : TypeDef} (unnamed : Builtin.ofName? name = none)
      (found : ns.find? name = some definition) (fromText : definition.fromText = true) :
    Builds ns overrides (.scalar name)
      (.scalar name (fun token => some (.object definition.name token)) false)
  | enumerated (name : Text) (members : List Text) :
    Builds ns overrides (.enumerated name members) (.enumerated name members)
  | choice (values : List Literal) :
    Builds ns overrides (.choice values) (.choice (Descriptor.choice values).spelling
      (values.map fun literal => (literal, literalConverter overrides literal)))
  | union {members : List Descriptor} {ps : List ValueParser}
      (built : untilTotal (askingOrder (attemptAll ns overrides members)) = .ok ps) :
    Builds ns overrides (.union members) (.union (Descriptor.union members).spelling ps)
  | fixedTuple {elems : List Descriptor} {ps : List ValueParser}
      (built : List.Forall₂ (fun elem p => synthesize ns overrides elem = .ok p) elems ps) :
    Builds ns overrides (.fixedTuple elems) (.tuple (Descriptor.fixedTuple elems).spelling ps)
  | record (name : Text) {fields : List (Text × Descriptor)} {ps : List ValueParser}
      (built : List.Forall₂ (fun elem p => synthesize ns overrides elem = .ok p)
        (fields.map Prod.snd) ps) :
    Builds ns overrides (.record name fields) (.record name (fields.map Prod.fst) ps)
  | variadicTuple {elem : Descriptor} {p : ValueParser}
      (built : synthesize ns overrides elem = .ok p) :
    Builds ns overrides (.variadicTuple elem)
      (.variadic (Descriptor.variadicTuple elem).spelling p)
  | container {elem : Descriptor} {p : ValueParser}
      (built : synthesize ns overrides elem = .ok p) :
    Builds ns overrides (.container elem) (.container (Descriptor.container elem).spelling p)

variable {ns : Namespace} {overrides : Overrides} {d : Descriptor} {p : ValueParser}

theorem builds_of_scalar {name : Text} (h : scalar ns name = .ok p) :
    Builds ns overrides (.scalar name) p := by
  unfold scalar at h
  split at h
  · rename_i b hname
    split at h
    · rename_i convert total hconvert
      obtain rfl := Except.ok.inj h
      exact .builtin hname hconvert
    · cases h
  · rename_i hname
    split at h
    · rename_i definition hfind
      split at h
      · rename_i hfromText
        obtain rfl := Except.ok.inj h
        exact .object hname hfind hfromText
      · cases h
    · cases h

theorem synthesize_scalar (ns : Namespace) (overrides : Overrides) (name : Text) :
    synthesize ns overrides (.scalar name) = match overrides.find? name with
      | some convert => .ok (.scalar name convert false)
      | none => scalar ns name := rfl

/-- Nothing else is ever synthesized. -/
theorem builds_of_synthesize (h : synthesize ns overrides d = .ok p) :
    Builds ns overrides d p := by
  cases d with
  | scalar name =>
    rw [synthesize_scalar] at h
    split at h
    · rename_i convert hfind
      obtain rfl := Except.ok.inj h
      exact .supplied rfl hfind
    · exact builds_of_scalar h
  | enumerated name members =>
    change (match overrides.find? name with | some _ => _ | none => _) = _ at h
    split at h
    · rename_i convert hfind
      obtain rfl := Except.ok.inj h
      exact .supplied rfl hfind
    · obtain rfl := Except.ok.inj h
      exact .enumerated name members
  | record name fields =>
    change (match overrides.find? name with | some _ => _ | none => _) = _ at h
    split at h
    · rename_i convert hfind
      obtain rfl := Except.ok.inj h
      exact .supplied rfl hfind
    · obtain ⟨ps, hps, rfl⟩ := map_eq_ok_iff.1 h
      rw [sequence_attemptFields] at hps
      exact .record name (List.forall₂_map_left_iff.2 (mapM_eq_ok_iff.1 hps))
  | choice values =>
    obtain rfl := Except.ok.inj (h : Except.ok (ValueParser.choice _ _) = .ok p)
    exact .choice values
  | union members =>
    obtain ⟨ps, hps, rfl⟩ := map_eq_ok_iff.1 (h : Except.map _ _ = .ok p)
    exact .union hps
  | fixedTuple elems =>
    obtain ⟨ps, hps, rfl⟩ := map_eq_ok_iff.1 (h : Except.map _ _ = .ok p)
    rw [sequence_attemptAll] at hps
    exact .fixedTuple (mapM_eq_ok_iff.1 hps)
  | variadicTuple elem =>
    obtain ⟨q, hq, rfl⟩ := map_eq_ok_iff.1 (h : Except.map _ _ = .ok p)
    exact .variadicTuple hq
  | container elem =>
    obtain ⟨q, hq, rfl⟩ := map_eq_ok_iff.1 (h : Except.map _ _ = .ok p)
    exact .container hq

end CallDoc.Synthesis
