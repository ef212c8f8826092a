import CallDoc.Proofs.Results
import CallDoc.Proofs.Type.Union
import CallDoc.Type.Reduce

/-!
Reduction gives canonical types only. A container, a tuple or a record holds neither of
them, however deep its elements are hidden in unions, and a union is never a plain type
written in a longer way. Reducing a hint keeps this for whatever types its names stand for,
so it holds for names by the number of records inside one another.
-/
namespace CallDoc

namespace Descriptor

/-- A union that stands for itself: it has no container among its members, repeats none of
them, and is neither one type alone nor one type besides the absent value. -/
structure IsUnion (members : List Descriptor) : Prop where
  flat : ∀ member ∈ members, member.isContainer = false
  nodup : members.Nodup
  single : members.length ≠ 1
  optional : none ∈ members → (members.filter fun member => !member.isNone).length ≠ 1

/-- Containers, tuples and records are one level deep, and every union in the type stands
for itself. -/
inductive Canonical : Descriptor → Prop
  | scalar (name : Text) : Canonical (.scalar name)
  | enumerated (name : Text) (members : List Text) : Canonical (.enumerated name members)
  | choice (values : List Literal) : Canonical (.choice values)
  | container {elem : Descriptor} (inner : Canonical elem) (flat : elem.isContainer = false) :
    Canonical (.container elem)
  | variadicTuple {elem : Descriptor} (inner : Canonical elem)
      (flat : elem.isContainer = false) : Canonical (.variadicTuple elem)
  | fixedTuple {elems : List Descriptor} (inner : ∀ elem ∈ elems, Canonical elem)
      (flat : ∀ elem ∈ elems, elem.isContainer = false) : Canonical (.fixedTuple elems)
  | record (name : Text) {fields : List (Text × Descriptor)}
      (inner : ∀ field ∈ fields, Canonical field.2)
      (flat : ∀ field ∈ fields, field.2.isContainer = false) : Canonical (.record name fields)
  | union {members : List Descriptor} (inner : ∀ member ∈ members, Canonical member)
      (whole : IsUnion members) : Canonical (.union members)

end Descriptor

namespace Hint

open Descriptor (Canonical)

theorem asElement_eq_ok {outer : Hint} {type d : Descriptor}
    (h : asElement outer type = .ok d) : d = type ∧ d.isContainer = false := by
  unfold asElement at h
  split at h
  · cases h
  · rename_i hflat
    obtain rfl := Except.ok.inj h
    exact ⟨rfl, Bool.eq_false_iff.2 hflat⟩

/-- The arms of a union that are left when repeats are dropped are either one type, or the
members of a union that stands for itself. -/
theorem canonical_joinArms {whole : Hint} {arms : List Descriptor} {d : Descriptor}
    (harms : ∀ arm ∈ arms, Canonical arm) (h : joinArms whole arms = .ok d) : Canonical d := by
  have hdistinct : ∀ arm ∈ arms.eraseDups, Canonical arm := fun arm harm =>
    harms arm (List.mem_eraseDups.1 harm)
  unfold joinArms at h
  dsimp only at h
  split at h
  · rename_i single hsingle
    obtain rfl := Except.ok.inj h
    have hmem : single ∈ arms.eraseDups.filter fun arm => !arm.isNone := by simp [hsingle]
    exact hdistinct single (List.mem_filter.1 hmem).1
  · rename_i hnone
    split at h
    · cases h
    · rename_i hflat
      split at h
      · rename_i single hsingle
        obtain rfl := Except.ok.inj h
        exact hdistinct single (by simp [hsingle])
      · rename_i hmany
        obtain rfl := Except.ok.inj h
        refine .union hdistinct ⟨fun arm harm => ?_, nodup_eraseDups _, ?_, fun _ => ?_⟩
        · exact Bool.eq_false_iff.2 fun hcontainer =>
            hflat (List.any_eq_true.2 ⟨arm, harm, hcontainer⟩)
        · intro hlen
          obtain ⟨single, hsingle⟩ := List.length_eq_one_iff.1 hlen
          exact hmany single hsingle
        · intro hlen
          obtain ⟨single, hsingle⟩ := List.length_eq_one_iff.1 hlen
          exact hnone single hsingle

section Reduce

variable {lookup : Text → Except Error Descriptor}

mutual

/-- A reduced hint is canonical if the types of the names in it are. -/
theorem canonical_reduceWith (hlookup : ∀ name d, lookup name = .ok d → Canonical d) :
    ∀ (hint : Hint) (d : Descriptor), hint.reduceWith lookup = .ok d → Canonical d
  | .named name, d, h => hlookup name d h
  | .none, d, h => by
    obtain rfl := Except.ok.inj h
    exact .scalar _
  | .list elem, d, h => by
    obtain ⟨type, htype, h⟩ := bind_eq_ok_iff.1 h
    obtain ⟨inner, hinner, h⟩ := bind_eq_ok_iff.1 h
    obtain rfl := Except.ok.inj h
    obtain ⟨rfl, hflat⟩ := asElement_eq_ok hinner
    exact .container (canonical_reduceWith hlookup elem _ htype) hflat
  | .tuple elems, d, h => by
    obtain ⟨types, htypes, h⟩ := bind_eq_ok_iff.1 h
    obtain rfl := Except.ok.inj h
    have hall := canonical_reduceElements hlookup elems _ types htypes
    exact .fixedTuple (fun elem helem => (hall elem helem).1) fun elem helem => (hall elem helem).2
  | .varTuple elem, d, h => by
    obtain ⟨type, htype, h⟩ := bind_eq_ok_iff.1 h
    obtain ⟨inner, hinner, h⟩ := bind_eq_ok_iff.1 h
    obtain rfl := Except.ok.inj h
    obtain ⟨rfl, hflat⟩ := asElement_eq_ok hinner
    exact .variadicTuple (canonical_reduceWith hlookup elem _ htype) hflat
  | .union arms, d, h => by
    obtain ⟨types, htypes, h⟩ := bind_eq_ok_iff.1 h
    exact canonical_joinArms (canonical_reduceAll hlookup arms types htypes) h
  | .literal values, d, h => by
    obtain rfl := Except.ok.inj h
    exact .choice values

theorem canonical_reduceElements (hlookup : ∀ name d, lookup name = .ok d → Canonical d) :
    ∀ (elems : List Hint) (outer : Hint) (types : List Descriptor),
      reduceElements lookup outer elems = .ok types →
      ∀ type ∈ types, Canonical type ∧ type.isContainer = false
  | [], outer, types, h => by
    obtain rfl := Except.ok.inj h
    exact List.forall_mem_nil _
  | elem :: more, outer, types, h => by
    obtain ⟨type, htype, h⟩ := bind_eq_ok_iff.1 h
    obtain ⟨inner, hinner, h⟩ := bind_eq_ok_iff.1 h
    obtain ⟨rest, hrest, h⟩ := bind_eq_ok_iff.1 h
    obtain rfl := Except.ok.inj h
    obtain ⟨rfl, hflat⟩ := asElement_eq_ok hinner
    exact List.forall_mem_cons.2 ⟨⟨canonical_reduceWith hlookup elem _ htype, hflat⟩,
      canonical_reduceElements hlookup more outer rest hrest⟩

theorem canonical_reduceAll (hlookup : ∀ name d, lookup name = .ok d → Canonical d) :
    ∀ (arms : List Hint) (types : List Descriptor),
      reduceAll lookup arms = .ok types → ∀ type ∈ types, Canonical type
  | [], types, h => by
    obtain rfl := Except.ok.inj h
    exact List.forall_mem_nil _
  | arm :: more, types, h => by
    obtain ⟨type, htype, h⟩ := bind_eq_ok_iff.1 h
    obtain ⟨rest, hrest, h⟩ := bind_eq_ok_iff.1 h
    obtain rfl := Except.ok.inj h
    exact List.forall_mem_cons.2 ⟨canonical_reduceWith hlookup arm type htype,
      canonical_reduceAll hlookup more rest hrest⟩

end

end Reduce

end Hint

namespace Namespace

open Descriptor (Canonical)

theorem canonical_reduceFields {lookup : Text → Except Error Descriptor}
    (hlookup : ∀ name d, lookup name = .ok d → Canonical d) {fields : List (Text × Hint)}
    {types : List (Text × Descriptor)} (h : reduceFields lookup fields = .ok types) :
    ∀ field ∈ types, Canonical field.2 ∧ field.2.isContainer = false := by
  induction fields generalizing types with
  | nil =>
    obtain rfl := Except.ok.inj h
    exact List.forall_mem_nil _
  | cons field more ih =>
    obtain ⟨type, htype, h⟩ := bind_eq_ok_iff.1 h
    obtain ⟨inner, hinner, h⟩ := bind_eq_ok_iff.1 h
    obtain ⟨rest, hrest, h⟩ := bind_eq_ok_iff.1 h
    obtain rfl := Except.ok.inj h
    obtain ⟨rfl, hflat⟩ := Hint.asElement_eq_ok hinner
    exact List.forall_mem_cons.2
      ⟨⟨Hint.canonical_reduceWith hlookup field.2 _ htype, hflat⟩, ih hrest⟩

/-- Names stand for canonical types, by induction on the records that a name may lead
through. -/
theorem canonical_reduceName {find? : Text → Option TypeDef} {depth : Nat} :
    ∀ (name : Text) (d : Descriptor), reduceName find? depth name = .ok d → Canonical d := by
  induction depth with
  | zero => exact fun name d h => nomatch h
  | succ depth ih =>
    intro name d h
    rw [reduceName] at h
    split at h
    · cases h
    · cases h
    · obtain rfl := Except.ok.inj h
      exact .scalar _
    · obtain rfl := Except.ok.inj h
      exact .enumerated _ _
    · obtain ⟨types, htypes, h⟩ := bind_eq_ok_iff.1 h
      obtain rfl := Except.ok.inj h
      have hall := canonical_reduceFields ih htypes
      exact .record _ (fun field hfield => (hall field hfield).1)
        fun field hfield => (hall field hfield).2
    · obtain rfl := Except.ok.inj h
      exact .scalar _

/-- Whatever a hint looks like and whatever its names stand for, the type that it reduces to
is canonical. -/
theorem canonical_of_reduce {ns : Namespace} {hint : Hint} {d : Descriptor}
    (h : ns.reduce hint = .ok d) : d.Canonical :=
  Hint.canonical_reduceWith canonical_reduceName hint d h

/-- A record behind two unions that say no more than the record does, with a field that
hides an optional type in a union. -/
theorem canonical_of_reduce_point :
    let point := TypeDef.record "P".toList
      [(['x'], .union [.named "int".toList, .union [.named "str".toList, .none]])]
    let d := Descriptor.record "P".toList
      [(['x'], .union [.scalar "int".toList, .scalar "str".toList])]
    (Registry.standard.register "Point".toList point).namespaceOf.reduce
        (.union [.union [.named "Point".toList, .none], .named "Point".toList]) = .ok d ∧
      d.Canonical := by
  suffices h : _ from ⟨h, canonical_of_reduce h⟩
  decide +kernel

end Namespace
end CallDoc
