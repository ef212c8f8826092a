import Mathlib.Data.List.Nodup
import CallDoc.Proofs.Outline.Name

/-!
The declarations in the fields of an outline. Only what a field means counts for them: not
the word for its role, the escapes in its name, or where its body stands.
-/
namespace CallDoc

open Text

namespace Field

/-- The role, the parameter or error, and what is said of it. -/
def meaning (f : Field) : FieldRole × Text × List Text :=
  (FieldRole.ofWord f.role, Frame.plainName f.name, f.body)

theorem declare_congr {f g : Field} (h : f.meaning = g.meaning) (d : Declarations) :
    f.declare d = g.declare d := by
  obtain ⟨hrole, h⟩ := Prod.mk.inj h
  obtain ⟨hname, hbody⟩ := Prod.mk.inj h
  rw [declare, declare, hrole, hname, hbody]

theorem foldlM_declare_congr {fs gs : List Field} (h : fs.map meaning = gs.map meaning)
    (d : Declarations) : fs.foldlM declare d = gs.foldlM declare d := by
  induction fs generalizing gs d with
  | nil =>
    obtain rfl := List.map_eq_nil_iff.1 h.symm
    rfl
  | cons f fs ih =>
    obtain ⟨g, gs, rfl, hg, hgs⟩ := List.map_eq_cons_iff.1 h.symm
    rw [List.foldlM_cons, List.foldlM_cons, declare_congr hg.symm]
    exact bind_congr fun d => ih hgs.symm d

end Field

/-- What is put in a place last is there. -/
theorem ParamDocs.insert_insert (params : ParamDocs) (name : Text) (a b : ParamDoc) :
    (params.insert name a).insert name b = params.insert name b := by
  induction params with
  | nil => exact if_pos rfl
  | cons head more ih =>
    obtain ⟨key, other⟩ := head
    by_cases hkey : key = name
    · rw [insert, if_pos hkey, insert, if_pos rfl, insert, if_pos hkey]
    · by_cases hbefore : Text.before name key = true
      · rw [insert, if_neg hkey, if_pos hbefore, insert, if_pos rfl, insert, if_neg hkey,
          if_pos hbefore]
      · rw [insert, if_neg hkey, if_neg hbefore, insert, if_neg hkey, if_neg hbefore, ih, insert,
          if_neg hkey, if_neg hbefore]

theorem Declarations.declareParam_of_new {d : Declarations} {what : Declared} {name : Text}
    (h : d.declared? what name = none) (value : Text) :
    d.declareParam what name none (.ok value) = .ok (d.set what name value) := by
  have hnew : d.requireNew what name = .ok () := by
    rw [requireNew, h]
    rfl
  change (d.requireNew what name).bind (fun _ => .ok (d.set what name value)) = _
  rw [hnew]
  rfl

namespace Outline

namespace Entry

variable {e : Entry} {role typeRole name : Text} {pad : Nat} {d : Declarations}

/-- A new parameter is put in the table. -/
theorem foldlM_fields_param (hrole : FieldRole.ofWord role = .param)
    (htype : FieldRole.ofWord typeRole = .type) (hname : Frame.plainName name = e.name)
    (hnew : d.params.find? e.name = none) :
    (e.fields role typeRole name pad).foldlM Field.declare d =
      .ok { d with params := e.record d.params } := by
  have hget : d.params.get e.name = ⟨none, none⟩ := by rw [ParamDocs.get, hnew]; rfl
  have hfirst : Field.declare d ⟨role, name, pad, e.lines⟩ =
      .ok { d with params := d.params.insert e.name ⟨some (unlines e.lines), none⟩ } := by
    rw [Field.declare, hrole]
    dsimp only
    rw [hname, Declarations.declareParam_of_new (by rw [Declarations.declared?, hget]),
      Declarations.set, hget]
  rw [fields, List.foldlM_cons, hfirst, record]
  cases e.type? with
  | none => rfl
  | some type =>
    have hget' : (d.params.insert e.name ⟨some (unlines e.lines), none⟩).get e.name =
        ⟨some (unlines e.lines), none⟩ := by
      rw [ParamDocs.get, ParamDocs.find?_insert, if_pos rfl]
      rfl
    change Except.bind (Field.declare _ _) _ = _
    rw [Field.declare, htype]
    dsimp only
    rw [hname, unlines_singleton,
      Declarations.declareParam_of_new (by rw [Declarations.declared?, hget']), Declarations.set,
      hget', ParamDocs.insert_insert]
    rfl

theorem foldlM_fields_error (hrole : FieldRole.ofWord role = .raises)
    (hname : Frame.plainName name = e.name) (htype : e.type? = none) :
    (e.fields role typeRole name pad).foldlM Field.declare d =
      .ok { d with raises := d.raises ++ [e.name] } := by
  rw [fields, htype, List.foldlM_cons, Field.declare, hrole]
  dsimp only
  rw [hname]
  rfl

theorem find?_record (table : ParamDocs) {key : Text} (h : key ≠ e.name) :
    (e.record table).find? key = table.find? key := by
  rw [record, ParamDocs.find?_insert, if_neg h]

end Entry

theorem find?_foldl_record {entries : List Entry} {key : Text}
    (h : key ∉ entries.map Entry.name) (table : ParamDocs) :
    (entries.foldl Entry.record table).find? key = table.find? key := by
  induction entries generalizing table with
  | nil => rfl
  | cons e more ih =>
    rw [List.map_cons, List.mem_cons, not_or] at h
    rw [List.foldl_cons, ih h.2, Entry.find?_record table h.1]

theorem find?_foldl_record_of_mem {entries : List Entry} {e : Entry}
    (hnodup : (entries.map Entry.name).Nodup) (he : e ∈ entries) (table : ParamDocs) :
    (entries.foldl Entry.record table).find? e.name =
      some ⟨some (unlines e.lines), e.type?⟩ := by
  induction entries generalizing table with
  | nil => cases he
  | cons first more ih =>
    obtain ⟨hdistinct, hnodup⟩ := List.nodup_cons.1 hnodup
    rw [List.foldl_cons]
    rcases List.mem_cons.1 he with rfl | he
    · rw [find?_foldl_record hdistinct, Entry.record, ParamDocs.find?_insert, if_pos rfl]
    · exact ih hnodup he _

/-- What is to be read of each parameter is what the outline says of it. -/
theorem find?_doc (o : Outline) {e : Entry} (he : e ∈ o.groups.flatMap Group.params) :
    o.doc.params.find? e.name = some ⟨some (unlines e.lines), e.type?⟩ :=
  find?_foldl_record_of_mem o.distinct he []

/-- Parameters that are new are put in the table one after the other. -/
theorem foldlM_fields_params {entries : List Entry} {d : Declarations}
    (hnodup : (entries.map Entry.name).Nodup)
    (hnew : ∀ key ∈ entries.map Entry.name, d.params.find? key = none) :
    (entries.flatMap fun e => e.fields Kind.params.role "type".toList e.spelling e.hang).foldlM
        Field.declare d = .ok { d with params := entries.foldl Entry.record d.params } := by
  induction entries generalizing d with
  | nil => rfl
  | cons e more ih =>
    rw [List.map_cons] at hnodup hnew
    obtain ⟨hfirst, hmore⟩ := List.forall_mem_cons.1 hnew
    obtain ⟨hdistinct, hnodup⟩ := List.nodup_cons.1 hnodup
    have hleft (key : Text) (hkey : key ∈ more.map Entry.name) :
        (e.record d.params).find? key = none := by
      rw [Entry.find?_record _ fun he => hdistinct (he ▸ hkey), hmore key hkey]
    rw [List.flatMap_cons, List.foldlM_append,
      Entry.foldlM_fields_param rfl rfl e.spells_spelling.plainName hfirst]
    exact ih hnodup hleft

theorem foldlM_fields_errors {entries : List Entry} (h : ∀ e ∈ entries, e.type? = none)
    (d : Declarations) :
    (entries.flatMap fun e => e.fields Kind.errors.role "type".toList e.spelling e.hang).foldlM
        Field.declare d = .ok { d with raises := d.raises ++ entries.map Entry.name } := by
  induction entries generalizing d with
  | nil => simp [pure, Except.pure]
  | cons e more ih =>
    obtain ⟨he, hmore⟩ := List.forall_mem_cons.1 h
    rw [List.flatMap_cons, List.foldlM_append,
      Entry.foldlM_fields_error rfl e.spells_spelling.plainName he]
    refine (ih hmore _).trans ?_
    rw [List.append_assoc]
    rfl

theorem Group.foldlM_fields {g : Group} {d : Declarations}
    (hnodup : (g.params.map Entry.name).Nodup)
    (hnew : ∀ key ∈ g.params.map Entry.name, d.params.find? key = none) :
    g.fields.foldlM Field.declare d =
      .ok ⟨g.params.foldl Entry.record d.params, d.raises ++ g.errors.map Entry.name⟩ := by
  cases hkind : g.kind with
  | params =>
    have hparams : g.params = g.entries := if_pos hkind
    have herrors : g.errors = [] := if_neg (by rw [hkind]; decide)
    rw [hparams] at hnodup hnew
    rw [Group.fields, hkind, foldlM_fields_params hnodup hnew, hparams, herrors, List.map_nil,
      List.append_nil]
  | errors =>
    have hparams : g.params = [] := if_neg (by rw [hkind]; decide)
    have herrors : g.errors = g.entries := if_pos hkind
    rw [Group.fields, hkind, foldlM_fields_errors fun e he => (g.plain hkind e he).2, hparams,
      herrors]
    rfl

/-- The fields of groups declare all their parameters and errors. -/
theorem foldlM_fields {groups : List Group} {d : Declarations}
    (hnodup : ((groups.flatMap Group.params).map Entry.name).Nodup)
    (hnew : ∀ key ∈ (groups.flatMap Group.params).map Entry.name, d.params.find? key = none) :
    (groups.flatMap Group.fields).foldlM Field.declare d =
      .ok ⟨(groups.flatMap Group.params).foldl Entry.record d.params,
        d.raises ++ (groups.flatMap Group.errors).map Entry.name⟩ := by
  induction groups generalizing d with
  | nil => simp [pure, Except.pure]
  | cons g more ih =>
    rw [List.flatMap_cons, List.map_append] at hnodup hnew
    obtain ⟨hfirst, hmore, hdisjoint⟩ := List.nodup_append'.1 hnodup
    -- the other names are still new, as none of them is in the first group
    have hleft (key : Text) (hkey : key ∈ (more.flatMap Group.params).map Entry.name) :
        (g.params.foldl Entry.record d.params).find? key = none := by
      rw [find?_foldl_record fun hmem => hdisjoint hmem hkey]
      exact hnew key (List.mem_append_right _ hkey)
    rw [List.flatMap_cons, List.foldlM_append,
      Group.foldlM_fields hfirst fun key hkey => hnew key (List.mem_append_left _ hkey)]
    refine (ih hmore hleft).trans ?_
    simp only [List.flatMap_cons, List.foldl_append, List.map_append, List.append_assoc]

end Outline
end CallDoc
