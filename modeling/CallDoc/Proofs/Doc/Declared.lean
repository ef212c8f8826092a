import CallDoc.Proofs.Doc.Scope

/-!
The table that the entries of a scope build up. It holds a list of declarations when every
one of them is found in it and nothing else is; an entry keeps this as long as it declares
nothing that is declared already, and stops the reading otherwise.
-/
namespace CallDoc

namespace Declarations

theorem declared?_set (d : Declarations) (what other : Declared) (name key value : Text) :
    (d.set what name value).declared? other key =
      if other = what ∧ key = name then some value else d.declared? other key := by
  by_cases hkey : key = name
  · cases what <;> cases other <;> simp [declared?, Declarations.set, ParamDocs.get_insert, hkey]
  · cases what <;> cases other <;> simp [declared?, Declarations.set, ParamDocs.get_insert, hkey]

/-- The table holds the declarations of a list, each in its place. -/
structure Holds (d : Declarations) (declared : List Declaration) : Prop where
  ordered : d.params.Ordered
  once : (declared.map Declaration.key).Nodup
  names : ∀ name, name ∈ d.params.map Prod.fst ↔ ∃ x ∈ declared, x.name = name
  values : ∀ what name value,
    d.declared? what name = some value ↔ ⟨what, name, value⟩ ∈ declared

theorem holds_empty : empty.Holds [] where
  ordered := ParamDocs.ordered_nil
  once := List.nodup_nil
  names := by simp [empty]
  values what name value := by
    cases what with
    | text | type => simp [declared?, empty, ParamDocs.get, ParamDocs.find?]

section Holds

variable {d d' : Declarations} {declared more : List Declaration} {x : Declaration}

theorem Holds.isSome_iff (h : d.Holds declared) (what : Declared) (name : Text) :
    (d.declared? what name).isSome ↔ (what, name) ∈ declared.map Declaration.key := by
  rw [Option.isSome_iff_exists, List.mem_map]
  constructor
  · rintro ⟨value, hvalue⟩
    exact ⟨⟨what, name, value⟩, (h.values what name value).1 hvalue, rfl⟩
  · rintro ⟨⟨what', name', value⟩, hmem, hkey⟩
    obtain ⟨rfl, rfl⟩ := Prod.mk.inj hkey
    exact ⟨value, (h.values what' name' value).2 hmem⟩

/-- The names of the errors are no matter. -/
theorem Holds.withRaises (h : d.Holds declared) (raises : List Text) :
    { d with raises }.Holds declared :=
  ⟨h.ordered, h.once, h.names, h.values⟩

/-- The declarations with one that must be new. -/
def add (d : Declarations) (x : Declaration) : Except Error Declarations :=
  (d.requireNew x.what x.name).map fun _ => d.set x.what x.name x.value

theorem Holds.add_eq (h : d.Holds declared) (x : Declaration) :
    d.add x = if x.key ∈ declared.map Declaration.key then .error (.duplicateField x.what x.name)
      else .ok (d.set x.what x.name x.value) := by
  rw [add, requireNew]
  by_cases hkey : x.key ∈ declared.map Declaration.key
  · rw [if_pos ((h.isSome_iff x.what x.name).2 hkey), if_pos hkey]
    rfl
  · rw [if_neg fun hsome => hkey ((h.isSome_iff x.what x.name).1 hsome), if_neg hkey]
    rfl

theorem Holds.set (h : d.Holds declared) (hnew : x.key ∉ declared.map Declaration.key) :
    (d.set x.what x.name x.value).Holds (declared ++ [x]) where
  ordered := ParamDocs.ordered_insert h.ordered ..
  once := by
    rw [List.map_append]
    exact List.nodup_append.2 ⟨h.once, List.nodup_singleton _, fun k hk k' hk' he =>
      hnew (List.mem_singleton.1 hk' ▸ he ▸ hk)⟩
  names name := by
    rw [← ParamDocs.find?_isSome_iff, Declarations.set.eq_def, ParamDocs.find?_insert]
    by_cases hname : name = x.name
    · simp [hname]
    · have hx : ¬ x.name = name := fun he => hname he.symm
      rw [if_neg hname, ParamDocs.find?_isSome_iff, h.names name]
      simp [or_and_right, exists_or, hx]
  values what name value := by
    rw [declared?_set]
    by_cases hkey : what = x.what ∧ name = x.name
    · obtain ⟨rfl, rfl⟩ := hkey
      rw [if_pos ⟨rfl, rfl⟩, Option.some.injEq, List.mem_append, List.mem_singleton]
      constructor
      · rintro rfl
        exact Or.inr rfl
      · rintro (hmem | he)
        · exact absurd (List.mem_map_of_mem (f := Declaration.key) hmem) hnew
        · rw [← he]
    · have hx : (⟨what, name, value⟩ : Declaration) ≠ x := by
        rintro rfl
        exact hkey ⟨rfl, rfl⟩
      rw [if_neg hkey, h.values, List.mem_append, List.mem_singleton, or_iff_left hx]

theorem holds_of_foldlM_add (h : d.Holds declared) (hadd : more.foldlM add d = .ok d') :
    d'.Holds (declared ++ more) ∧ d'.raises = d.raises := by
  induction more generalizing d declared with
  | nil =>
    cases hadd
    rw [List.append_nil]
    exact ⟨h, rfl⟩
  | cons x more ih =>
    rw [List.foldlM_cons, h.add_eq] at hadd
    split at hadd
    · cases hadd
    · rename_i hnew
      rw [← List.singleton_append, ← List.append_assoc]
      exact ih (d := d.set x.what x.name x.value) (h.set hnew) hadd

theorem foldlM_add_of_nodup (h : d.Holds declared)
    (honce : ((declared ++ more).map Declaration.key).Nodup) :
    ∃ d', more.foldlM add d = .ok d' := by
  induction more generalizing d declared with
  | nil => exact ⟨d, rfl⟩
  | cons x more ih =>
    have hnew : x.key ∉ declared.map Declaration.key := by
      rw [List.map_append, List.map_cons] at honce
      exact fun hmem => List.disjoint_of_nodup_append honce hmem List.mem_cons_self
    rw [← List.singleton_append, ← List.append_assoc] at honce
    rw [List.foldlM_cons, h.add_eq, if_neg hnew]
    exact ih (d := d.set x.what x.name x.value) (h.set hnew) honce

end Holds

theorem declareParam_ok (d : Declarations) (what : Declared) (name : Text) (type : Option Text)
    (value : Text) :
    d.declareParam what name type (.ok value) =
      ((type.map fun type => Declaration.mk .type name type).toList ++
        [Declaration.mk what name value]).foldlM add d := by
  cases type with
  | none =>
    show (d.requireNew what name).bind _ = (add d _).bind _
    rw [add]
    cases d.requireNew what name <;> rfl
  | some type =>
    show (d.setInline name (some type)).bind _ = (add d _).bind _
    rw [setInline, add]
    cases d.requireNew .type name with
    | error e => rfl
    | ok _ =>
      show ((d.set .type name type).requireNew what name).bind _ = (add _ _).bind _
      rw [add]
      cases (d.set .type name type).requireNew what name <;> rfl

theorem exists_of_declareParam {d d' : Declarations} {what : Declared} {name : Text}
    {type : Option Text} {body : Except Error Text}
    (h : d.declareParam what name type body = .ok d') : ∃ value, body = .ok value := by
  cases body with
  | ok value => exact ⟨value, rfl⟩
  | error e =>
    rw [declareParam] at h
    cases hinline : d.setInline name type with
    | error e => rw [hinline] at h; cases h
    | ok d =>
      cases hnew : d.requireNew what name <;> simp [hinline, hnew, bind, Except.bind] at h

end Declarations

namespace Entry

open Declarations Block

/-- The body of a text or a type declares nothing twice in itself. -/
def Readable (e : Entry) : Prop := e.HasText → ∃ inner, declareAll .empty e.body = .ok inner

theorem declare_of_readable {e : Entry} (hhead : e.Headed) (h : e.Readable) (d : Declarations) :
    e.declare d = (e.declarations.foldlM add d).map fun d =>
      { d with raises := d.raises ++ e.raised } := by
  have hsame : (fun d : Declarations => { d with raises := d.raises ++ [] }) = id :=
    funext fun d => congrArg (Declarations.mk d.params) (List.append_nil d.raises)
  have hmap (r : Except Error Declarations) : r.map id = r := by cases r <;> rfl
  obtain ⟨role, name, type, body⟩ := e
  cases role with
  | param =>
    obtain ⟨inner, hinner⟩ := h (Or.inl rfl)
    show d.declareParam .text name type ((declareAll .empty body).map _) = Except.map _ _
    rw [hinner, raised, if_neg (by simp), hsame, hmap]
    exact d.declareParam_ok .text name type (describe body)
  | type =>
    obtain ⟨inner, hinner⟩ := h (Or.inr rfl)
    obtain rfl := hhead rfl
    show d.declareParam .type name none ((declareAll .empty body).map _) = Except.map _ _
    rw [hinner, raised, if_neg (by simp), hsame, hmap]
    exact d.declareParam_ok .type name none (describe body)
  | raises => rfl
  | other word => exact congrArg Except.ok (congrFun hsame d).symm

theorem readable_of_declare {e : Entry} {d d' : Declarations} (h : e.declare d = .ok d') :
    e.Readable := by
  obtain ⟨role, name, type, body⟩ := e
  rintro (hrole | hrole)
  all_goals
    dsimp only at hrole
    subst hrole
    obtain ⟨value, hvalue⟩ := exists_of_declareParam h
    obtain ⟨inner, hinner, -⟩ := map_eq_ok_iff.1 hvalue
    exact ⟨inner, hinner⟩

end Entry

namespace Declarations

variable {entries : List Entry} {d d' : Declarations} {declared : List Declaration}

/-- A run over entries keeps the declarations before it and puts those of the entries behind
them. -/
theorem holds_of_foldlM (hhead : ∀ e ∈ entries, e.Headed) (h : d.Holds declared)
    (hrun : entries.foldlM Entry.declare d = .ok d') :
    (∀ e ∈ entries, e.Readable) ∧ d'.Holds (declared ++ entries.flatMap Entry.declarations) ∧
      d'.raises = d.raises ++ entries.flatMap Entry.raised := by
  induction entries generalizing d declared with
  | nil =>
    cases hrun
    simp [h]
  | cons e entries ih =>
    obtain ⟨hhead, hmore⟩ := List.forall_mem_cons.1 hhead
    rw [List.foldlM_cons] at hrun
    cases hstep : e.declare d with
    | error err => rw [hstep] at hrun; cases hrun
    | ok next =>
      rw [hstep] at hrun
      have hread := Entry.readable_of_declare hstep
      rw [Entry.declare_of_readable hhead hread] at hstep
      obtain ⟨filled, hfilled, rfl⟩ := map_eq_ok_iff.1 hstep
      obtain ⟨hfill, hraises⟩ := holds_of_foldlM_add h hfilled
      obtain ⟨hreads, hholds, hall⟩ := ih hmore (hfill.withRaises _) hrun
      refine ⟨List.forall_mem_cons.2 ⟨hread, hreads⟩, ?_, ?_⟩
      · rwa [List.flatMap_cons, ← List.append_assoc]
      · rw [hall, hraises, List.flatMap_cons, ← List.append_assoc]

theorem foldlM_of_nodup (hhead : ∀ e ∈ entries, e.Headed) (hread : ∀ e ∈ entries, e.Readable)
    (h : d.Holds declared)
    (honce : ((declared ++ entries.flatMap Entry.declarations).map Declaration.key).Nodup) :
    ∃ d', entries.foldlM Entry.declare d = .ok d' := by
  induction entries generalizing d declared with
  | nil => exact ⟨d, rfl⟩
  | cons e entries ih =>
    obtain ⟨hhead, hmore⟩ := List.forall_mem_cons.1 hhead
    obtain ⟨hread, hreads⟩ := List.forall_mem_cons.1 hread
    rw [List.flatMap_cons, ← List.append_assoc] at honce
    have hfirst := honce
    rw [List.map_append] at hfirst
    obtain ⟨filled, hfilled⟩ := foldlM_add_of_nodup h (List.nodup_append.1 hfirst).1
    have hfill := (holds_of_foldlM_add h hfilled).1
    rw [List.foldlM_cons, Entry.declare_of_readable hhead hread, hfilled]
    exact ih hmore hreads (hfill.withRaises _) honce

end Declarations
end CallDoc
