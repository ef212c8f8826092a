import Mathlib.Data.List.Chain
import Mathlib.Data.List.Nodup
import Mathlib.Data.List.Perm.Subperm
import Mathlib.Logic.Relation
import CallDoc.Proofs.Results
import CallDoc.Type.Reduce

/-!
How deep names lie inside one another. A reduction that is given up at some depth may come
to an end at a greater one, and then it ends alike at all that are greater still. A chain of
records that is longer than the registry meets one of them twice: the depth of a registry is
enough for every hint that has a type or an error, and the hints that have neither are those
that lead to a record which contains itself.
-/
namespace CallDoc

/-- The result is not that of a reduction which was given up for its depth. -/
def Finishes {α : Type} (r : Except Error α) : Prop := ∀ name, r ≠ .error (.endlessRecord name)

/-! ## Results that finish -/

theorem finishes_ok {α : Type} (a : α) : Finishes (.ok a : Except Error α) := fun _ => nofun

theorem finishes_bind_iff {α β : Type} {r : Except Error α} {f : α → Except Error β} :
    Finishes (r >>= f) ↔ Finishes r ∧ ∀ a, r = .ok a → Finishes (f a) := by
  cases r with
  | error e =>
    refine ⟨fun h => ⟨fun name he => h name ?_, nofun⟩, fun h name he => h.1 name ?_⟩ <;>
      cases he <;> rfl
  | ok a => exact ⟨fun h => ⟨finishes_ok a, fun _ he => Except.ok.inj he ▸ h⟩, fun h => h.2 a rfl⟩

/-- What finishes stays as it is when the parts of it that finish do. -/
theorem bind_eq_of_finishes {α β : Type} {r r' : Except Error α} {f f' : α → Except Error β}
    (h : Finishes (r >>= f)) (hr : Finishes r → r' = r)
    (hf : ∀ a, r = .ok a → Finishes (f a) → f' a = f a) : (r' >>= f') = (r >>= f) := by
  obtain ⟨hfirst, hnext⟩ := finishes_bind_iff.1 h
  rw [hr hfirst]
  cases r with
  | error e => rfl
  | ok a => exact hf a rfl (hnext a rfl)

section Lists

variable {α β : Type} {f g : α → Except Error β}

theorem mapM_eq_of_finishes {l : List α} (h : Finishes (l.mapM f))
    (hl : ∀ a ∈ l, Finishes (f a) → g a = f a) : l.mapM g = l.mapM f := by
  induction l with
  | nil => rfl
  | cons a l ih =>
    obtain ⟨ha, hmore⟩ := List.forall_mem_cons.1 hl
    rw [List.mapM_cons] at h
    rw [List.mapM_cons, List.mapM_cons]
    refine bind_eq_of_finishes h ha fun b _ hb => bind_eq_of_finishes hb (fun hrest => ?_) ?_
    · exact ih hrest hmore
    · exact fun _ _ _ => rfl

/-- A list of readings is given up at the first of them that is. -/
theorem exists_of_not_finishes_mapM {l : List α} (h : ¬ Finishes (l.mapM f)) :
    ∃ before a after bs, l = before ++ a :: after ∧ before.mapM f = .ok bs ∧ ¬ Finishes (f a) := by
  induction l with
  | nil => exact absurd (finishes_ok []) h
  | cons a l ih =>
    by_cases ha : Finishes (f a)
    · have hrest : ¬ Finishes (l.mapM f) := fun hrest => h <| by
        rw [List.mapM_cons]
        exact finishes_bind_iff.2 ⟨ha, fun b _ =>
          finishes_bind_iff.2 ⟨hrest, fun bs _ => finishes_ok (b :: bs)⟩⟩
      cases hb : f a with
      | error e =>
        rw [List.mapM_cons, hb] at h
        exact absurd (fun name he => ha name (hb.trans (by cases he; rfl))) h
      | ok b =>
        obtain ⟨before, c, after, bs, rfl, hbefore, hc⟩ := ih hrest
        refine ⟨a :: before, c, after, b :: bs, rfl, ?_, hc⟩
        rw [List.mapM_cons, hb, hbefore]
        rfl
    · exact ⟨[], a, l, [], rfl, rfl, ha⟩

theorem finishes_of_mapM_append {before after : List α} {a : α}
    (h : Finishes ((before ++ a :: after).mapM f)) :
    Finishes (before.mapM f) ∧ ∀ bs, before.mapM f = .ok bs → Finishes (f a) := by
  rw [List.mapM_append] at h
  obtain ⟨hbefore, hrest⟩ := finishes_bind_iff.1 h
  refine ⟨hbefore, fun bs hbs => ?_⟩
  have hcons := (finishes_bind_iff.1 (hrest bs hbs)).1
  rw [List.mapM_cons] at hcons
  exact (finishes_bind_iff.1 hcons).1

end Lists

/-! ## Names in hints -/

/-- Wherever the first look-up finishes the second one gives the same. -/
def Extends (lookup deeper : Text → Except Error Descriptor) : Prop :=
  ∀ name, Finishes (lookup name) → deeper name = lookup name

namespace Hint

theorem finishes_asElement (outer : Hint) (type : Descriptor) :
    Finishes (asElement outer type) := by
  unfold asElement
  split <;> exact fun _ => nofun

theorem finishes_joinArms (whole : Hint) (arms : List Descriptor) :
    Finishes (joinArms whole arms) := by
  unfold joinArms
  dsimp only
  split
  · exact fun _ => nofun
  · split
    · exact fun _ => nofun
    · split <;> exact fun _ => nofun

variable {lookup deeper : Text → Except Error Descriptor} {hint : Hint} {name : Text}

theorem finishes_reduceElement_iff {outer elem : Hint} :
    Finishes (reduceElement lookup outer elem) ↔ Finishes (elem.reduceWith lookup) :=
  finishes_bind_iff.trans (and_iff_left fun type _ => finishes_asElement outer type)

/-- In the reduction of a hint a name is looked up once all that stands before it has a type. -/
inductive Asks (lookup : Text → Except Error Descriptor) : Hint → Text → Prop
  | named (name : Text) : Asks lookup (.named name) name
  | list {elem : Hint} {name : Text} (inner : Asks lookup elem name) : Asks lookup (.list elem) name
  | varTuple {elem : Hint} {name : Text} (inner : Asks lookup elem name) :
    Asks lookup (.varTuple elem) name
  | tuple {before after : List Hint} {elem : Hint} {name : Text} {types : List Descriptor}
      (typed : reduceElements lookup (.tuple (before ++ elem :: after)) before = .ok types)
      (inner : Asks lookup elem name) : Asks lookup (.tuple (before ++ elem :: after)) name
  | union {before after : List Hint} {arm : Hint} {name : Text} {types : List Descriptor}
      (typed : reduceAll lookup before = .ok types) (inner : Asks lookup arm name) :
    Asks lookup (.union (before ++ arm :: after)) name

mutual

theorem reduceWith_eq_of_finishes (hext : Extends lookup deeper) :
    ∀ hint : Hint, Finishes (hint.reduceWith lookup) →
      hint.reduceWith deeper = hint.reduceWith lookup
  | .named name, h => hext name h
  | .none, _ => rfl
  | .list elem, h =>
    bind_eq_of_finishes h (reduceWith_eq_of_finishes hext elem) fun _ _ _ => rfl
  | .tuple elems, h =>
    bind_eq_of_finishes h (reduceElements_eq_of_finishes hext elems _) fun _ _ _ => rfl
  | .varTuple elem, h =>
    bind_eq_of_finishes h (reduceWith_eq_of_finishes hext elem) fun _ _ _ => rfl
  | .union arms, h =>
    bind_eq_of_finishes h (reduceAll_eq_of_finishes hext arms) fun _ _ _ => rfl
  | .literal _, _ => rfl

theorem reduceElements_eq_of_finishes (hext : Extends lookup deeper) :
    ∀ (elems : List Hint) (outer : Hint), Finishes (reduceElements lookup outer elems) →
      reduceElements deeper outer elems = reduceElements lookup outer elems
  | [], _, _ => rfl
  | elem :: more, outer, h =>
    bind_eq_of_finishes h (reduceWith_eq_of_finishes hext elem) fun _ _ h =>
      bind_eq_of_finishes h (fun _ => rfl) fun _ _ h =>
        bind_eq_of_finishes h (reduceElements_eq_of_finishes hext more outer) fun _ _ _ => rfl

theorem reduceAll_eq_of_finishes (hext : Extends lookup deeper) :
    ∀ arms : List Hint, Finishes (reduceAll lookup arms) →
      reduceAll deeper arms = reduceAll lookup arms
  | [], _ => rfl
  | arm :: more, h =>
    bind_eq_of_finishes h (reduceWith_eq_of_finishes hext arm) fun _ _ h =>
      bind_eq_of_finishes h (reduceAll_eq_of_finishes hext more) fun _ _ _ => rfl

end

theorem Asks.mono (hext : Extends lookup deeper) (h : Asks lookup hint name) :
    Asks deeper hint name := by
  induction h with
  | named name => exact .named name
  | list _ ih => exact .list ih
  | varTuple _ ih => exact .varTuple ih
  | @tuple before after elem name types typed _ ih =>
    have hbefore := reduceElements_eq_of_finishes hext before _ (typed ▸ finishes_ok types)
    exact .tuple (hbefore.trans typed) ih
  | @union before after arm name types typed _ ih =>
    have hbefore := reduceAll_eq_of_finishes hext before (typed ▸ finishes_ok types)
    exact .union (hbefore.trans typed) ih

/-- A reduction that finishes has found all the names that it asked for, and those that a
deeper one asks for are among them. -/
theorem Asks.finishes (hext : Extends lookup deeper) (h : Asks deeper hint name)
    (hfin : Finishes (hint.reduceWith lookup)) : Finishes (lookup name) := by
  induction h with
  | named name => exact hfin
  | list _ ih => exact ih (finishes_bind_iff.1 hfin).1
  | varTuple _ ih => exact ih (finishes_bind_iff.1 hfin).1
  | @tuple before after elem name types typed _ ih =>
    have helems := (finishes_bind_iff.1 hfin).1
    rw [reduceElements_eq] at helems
    obtain ⟨hbefore, helem⟩ := finishes_of_mapM_append helems
    rw [← reduceElements_eq] at hbefore helem
    rw [reduceElements_eq_of_finishes hext _ _ hbefore] at typed
    exact ih (finishes_reduceElement_iff.1 (helem types typed))
  | @union before after arm name types typed _ ih =>
    have harms := (finishes_bind_iff.1 hfin).1
    rw [reduceAll_eq] at harms
    obtain ⟨hbefore, harm⟩ := finishes_of_mapM_append harms
    rw [← reduceAll_eq] at hbefore harm
    rw [reduceAll_eq_of_finishes hext _ hbefore] at typed
    exact ih (harm types typed)

mutual

/-- A reduction that is given up has asked for a name that was. -/
theorem exists_asks (lookup : Text → Except Error Descriptor) :
    ∀ hint : Hint, ¬ Finishes (hint.reduceWith lookup) →
      ∃ name, Asks lookup hint name ∧ ¬ Finishes (lookup name)
  | .named name, h => ⟨name, .named name, h⟩
  | .none, h => absurd (finishes_ok _) h
  | .list elem, h => by
    have helem : ¬ Finishes (elem.reduceWith lookup) := fun helem => h <|
      finishes_bind_iff.2 ⟨helem, fun type _ =>
        finishes_bind_iff.2 ⟨finishes_asElement _ type, fun _ _ => finishes_ok _⟩⟩
    obtain ⟨name, hasks, hname⟩ := exists_asks lookup elem helem
    exact ⟨name, .list hasks, hname⟩
  | .tuple elems, h => by
    have helems : ¬ Finishes (reduceElements lookup (.tuple elems) elems) := fun helems => h <|
      finishes_bind_iff.2 ⟨helems, fun _ _ => finishes_ok _⟩
    rw [reduceElements_eq] at helems
    obtain ⟨before, elem, after, types, hsplit, typed, helem⟩ :=
      exists_of_not_finishes_mapM helems
    have hmem : elem ∈ elems := by simp [hsplit]
    rw [finishes_reduceElement_iff] at helem
    obtain ⟨name, hasks, hname⟩ := exists_asks_of_mem lookup elems elem hmem helem
    rw [← reduceElements_eq] at typed
    subst hsplit
    exact ⟨name, .tuple typed hasks, hname⟩
  | .varTuple elem, h => by
    have helem : ¬ Finishes (elem.reduceWith lookup) := fun helem => h <|
      finishes_bind_iff.2 ⟨helem, fun type _ =>
        finishes_bind_iff.2 ⟨finishes_asElement _ type, fun _ _ => finishes_ok _⟩⟩
    obtain ⟨name, hasks, hname⟩ := exists_asks lookup elem helem
    exact ⟨name, .varTuple hasks, hname⟩
  | .union arms, h => by
    have harms : ¬ Finishes (reduceAll lookup arms) := fun harms => h <|
      finishes_bind_iff.2 ⟨harms, fun types _ => finishes_joinArms _ types⟩
    rw [reduceAll_eq] at harms
    obtain ⟨before, arm, after, types, hsplit, typed, harm⟩ := exists_of_not_finishes_mapM harms
    have hmem : arm ∈ arms := by simp [hsplit]
    obtain ⟨name, hasks, hname⟩ := exists_asks_of_mem lookup arms arm hmem harm
    rw [← reduceAll_eq] at typed
    subst hsplit
    exact ⟨name, .union typed hasks, hname⟩
  | .literal _, h => absurd (finishes_ok _) h

theorem exists_asks_of_mem (lookup : Text → Except Error Descriptor) :
    ∀ hints : List Hint, ∀ hint ∈ hints, ¬ Finishes (hint.reduceWith lookup) →
      ∃ name, Asks lookup hint name ∧ ¬ Finishes (lookup name)
  | [], _, hmem, _ => nomatch hmem
  | first :: more, hint, hmem, h => by
    rcases List.mem_cons.1 hmem with hfirst | hmem
    · rw [hfirst] at h ⊢
      exact exists_asks lookup first h
    · exact exists_asks_of_mem lookup more hint hmem h

end

end Hint

/-! ## Records inside one another -/

namespace Namespace

variable {find? : Text → Option TypeDef} {depth deep : Nat} {name inner : Text}

theorem finishes_reduceField_iff {lookup : Text → Except Error Descriptor} {field : Text × Hint} :
    Finishes (reduceField lookup field) ↔ Finishes (field.2.reduceWith lookup) :=
  (finishes_bind_iff.trans (and_iff_left fun _ _ => finishes_ok _)).trans
    Hint.finishes_reduceElement_iff

theorem reduceFields_eq_of_finishes {lookup deeper : Text → Except Error Descriptor}
    (hext : Extends lookup deeper) {fields : List (Text × Hint)}
    (h : Finishes (reduceFields lookup fields)) :
    reduceFields deeper fields = reduceFields lookup fields := by
  rw [reduceFields_eq] at h
  rw [reduceFields_eq, reduceFields_eq]
  refine mapM_eq_of_finishes h fun field _ hfield => bind_eq_of_finishes hfield ?_ fun _ _ _ => rfl
  exact fun helem => bind_eq_of_finishes helem (Hint.reduceWith_eq_of_finishes hext field.2)
    fun _ _ _ => rfl

/-- The name of a record leads to those that its fields ask for, a field once all before it
have a type. -/
def Leads (find? : Text → Option TypeDef) (depth : Nat) (name inner : Text) : Prop :=
  ∃ own before field hint after types,
    find? name = some (.record own (before ++ (field, hint) :: after)) ∧
      reduceFields (reduceName find? depth) before = .ok types ∧
        hint.Asks (reduceName find? depth) inner

/-- A name that does not stand for a record has one reading, whatever the depth. -/
theorem isRecord_or_reduceName_eq (find? : Text → Option TypeDef) (name : Text) :
    (∃ own fields, find? name = some (.record own fields)) ∨
      ∃ r, Finishes r ∧ ∀ depth, reduceName find? (depth + 1) name = r := by
  simp only [reduceName]
  match find? name with
  | none => exact .inr ⟨.error (.unresolvedName name), fun _ => nofun, fun _ => rfl⟩
  | some (.builtin .list) => exact .inr ⟨.error .bareList, fun _ => nofun, fun _ => rfl⟩
  | some (.builtin .str) | some (.builtin .int) | some (.builtin .float) | some (.builtin .bool)
  | some (.builtin .path) | some (.builtin .slice) | some (.builtin .none) =>
    exact .inr ⟨_, finishes_ok _, fun _ => rfl⟩
  | some (.enumeration own members) => exact .inr ⟨_, finishes_ok _, fun _ => rfl⟩
  | some (.record own fields) => exact .inl ⟨own, fields, rfl⟩
  | some (.classType own argument) => exact .inr ⟨_, finishes_ok _, fun _ => rfl⟩

theorem reduceName_succ_of_record {own : Text} {fields : List (Text × Hint)}
    (h : find? name = some (.record own fields)) :
    reduceName find? (depth + 1) name =
      (reduceFields (reduceName find? depth) fields >>= fun types => return .record own types) := by
  simp only [reduceName, h]

/-- A name whose reduction finishes has the same one however much deeper it may go. -/
theorem extends_reduceName (find? : Text → Option TypeDef) (hle : depth ≤ deep) :
    Extends (reduceName find? depth) (reduceName find? deep) := by
  induction depth generalizing deep with
  | zero => exact fun name h => absurd rfl (h name)
  | succ depth ih =>
    intro name h
    obtain ⟨deep, rfl⟩ : ∃ deeper, deep = deeper + 1 := ⟨deep - 1, by omega⟩
    obtain ⟨own, fields, hfind⟩ | ⟨r, -, hr⟩ := isRecord_or_reduceName_eq find? name
    · rw [reduceName_succ_of_record hfind] at h ⊢
      rw [reduceName_succ_of_record hfind]
      exact bind_eq_of_finishes h (reduceFields_eq_of_finishes (ih (by omega))) fun _ _ _ => rfl
    · rw [hr, hr]

theorem Leads.mono (hle : depth ≤ deep) (h : Leads find? depth name inner) :
    Leads find? deep name inner := by
  obtain ⟨own, before, field, hint, after, types, hfind, typed, hasks⟩ := h
  have hext := extends_reduceName find? hle
  refine ⟨own, before, field, hint, after, types, hfind, ?_, hasks.mono hext⟩
  rw [reduceFields_eq_of_finishes hext (typed ▸ finishes_ok types), typed]

/-- A name that is given up is a record's, and it leads to another that was given up. -/
theorem exists_leads (h : ¬ Finishes (reduceName find? (depth + 1) name)) :
    ∃ inner, Leads find? depth name inner ∧ ¬ Finishes (reduceName find? depth inner) := by
  obtain ⟨own, fields, hfind⟩ | ⟨r, hr, heq⟩ := isRecord_or_reduceName_eq find? name
  · have hfields : ¬ Finishes (fields.mapM (reduceField (reduceName find? depth))) := by
      intro hfields
      rw [← reduceFields_eq] at hfields
      rw [reduceName_succ_of_record hfind] at h
      exact h (finishes_bind_iff.2 ⟨hfields, fun _ _ => finishes_ok _⟩)
    obtain ⟨before, ⟨field, hint⟩, after, types, rfl, typed, hfield⟩ :=
      exists_of_not_finishes_mapM hfields
    obtain ⟨inner, hasks, hinner⟩ := Hint.exists_asks _ hint fun hhint =>
      hfield (finishes_reduceField_iff.2 hhint)
    rw [← reduceFields_eq] at typed
    exact ⟨inner, ⟨own, before, field, hint, after, types, hfind, typed, hasks⟩, hinner⟩
  · exact absurd hr (heq depth ▸ h)

/-- Where a record finishes, what it leads to has finished within one level less. -/
theorem Leads.finishes (hle : depth ≤ deep) (h : Leads find? deep name inner)
    (hfin : Finishes (reduceName find? (depth + 1) name)) :
    Finishes (reduceName find? depth inner) := by
  obtain ⟨own, before, field, hint, after, types, hfind, typed, hasks⟩ := h
  have hext := extends_reduceName find? hle
  rw [reduceName_succ_of_record hfind] at hfin
  have hfields := (finishes_bind_iff.1 hfin).1
  rw [reduceFields_eq] at hfields
  obtain ⟨hbefore, hfield⟩ := finishes_of_mapM_append hfields
  rw [← reduceFields_eq] at hbefore hfield
  rw [reduceFields_eq_of_finishes hext hbefore] at typed
  exact hasks.finishes hext (finishes_reduceField_iff.1 (hfield types typed))

/-- The name leads, in any number of steps, to a record that leads back to itself. -/
def Endless (find? : Text → Option TypeDef) (depth : Nat) (name : Text) : Prop :=
  ∃ record, Relation.ReflTransGen (Leads find? depth) name record ∧
    Relation.TransGen (Leads find? depth) record record

theorem Endless.mono (hle : depth ≤ deep) (h : Endless find? depth name) :
    Endless find? deep name := by
  obtain ⟨record, hreach, hcircle⟩ := h
  have hleads : ∀ name inner, Leads find? depth name inner → Leads find? deep name inner :=
    fun _ _ => Leads.mono hle
  exact ⟨record, Relation.ReflTransGen.mono hleads _ _ hreach,
    Relation.TransGen.mono hleads _ _ hcircle⟩

theorem Endless.exists_leads (h : Endless find? depth name) :
    ∃ inner, Leads find? depth name inner ∧ Endless find? depth inner := by
  obtain ⟨record, hreach, hcircle⟩ := h
  obtain rfl | ⟨inner, hlead, hrest⟩ := hreach.cases_head
  · obtain ⟨inner, hlead, hrest⟩ := Relation.TransGen.head'_iff.1 hcircle
    exact ⟨inner, hlead, name, hrest, hcircle⟩
  · exact ⟨inner, hlead, record, hrest, hcircle⟩

theorem Endless.not_finishes_of_le (hle : depth ≤ deep) (h : Endless find? deep name) :
    ¬ Finishes (reduceName find? depth name) := by
  induction depth generalizing name with
  | zero => exact fun hfin => hfin name rfl
  | succ depth ih =>
    intro hfin
    obtain ⟨inner, hlead, hinner⟩ := h.exists_leads
    exact ih (by omega) hinner (hlead.finishes (by omega) hfin)

/-- An endless name is given up at every depth: each level leads to another such name. -/
theorem Endless.not_finishes (h : Endless find? deep name) (depth : Nat) :
    ¬ Finishes (reduceName find? depth name) :=
  (h.mono (Nat.le_max_right depth deep)).not_finishes_of_le (Nat.le_max_left depth deep)

/-- A name that is given up begins a chain of records as long as the depth. -/
theorem exists_chain (hle : depth ≤ deep) (h : ¬ Finishes (reduceName find? (depth + 1) name)) :
    ∃ names, names.length = depth ∧ List.IsChain (Leads find? deep) (name :: names) ∧
      ∀ n ∈ name :: names, ∃ inner, Leads find? deep n inner := by
  induction depth generalizing name with
  | zero =>
    obtain ⟨inner, hlead, -⟩ := exists_leads h
    refine ⟨[], rfl, .singleton name, fun n hn => ⟨inner, ?_⟩⟩
    rw [List.mem_singleton.1 hn]
    exact hlead.mono hle
  | succ depth ih =>
    obtain ⟨inner, hlead, hinner⟩ := exists_leads h
    have hlead := hlead.mono hle
    obtain ⟨names, hlength, hchain, hleads⟩ := ih (by omega) hinner
    refine ⟨inner :: names, by rw [List.length_cons, hlength], hchain.cons_cons hlead, ?_⟩
    exact List.forall_mem_cons.2 ⟨⟨inner, hlead⟩, hleads⟩

/-- A chain that meets a name twice is endless from its start. -/
theorem endless_of_not_nodup {names : List Text}
    (hchain : List.IsChain (Leads find? depth) (name :: names)) (h : ¬ (name :: names).Nodup) :
    Endless find? depth name := by
  have hpairs : (name :: names).Pairwise (Relation.TransGen (Leads find? depth)) :=
    (hchain.imp fun _ _ => Relation.TransGen.single).pairwise
  obtain ⟨record, hrecord⟩ : ∃ record, [record, record].Sublist (name :: names) := by
    simpa only [List.nodup_iff_sublist, not_forall, not_not] using h
  have hcircle : Relation.TransGen (Leads find? depth) record record :=
    (List.pairwise_cons.1 (hpairs.sublist hrecord)).1 record (List.mem_singleton_self record)
  refine ⟨record, ?_, hcircle⟩
  obtain rfl | hmem := List.mem_cons.1 (hrecord.subset List.mem_cons_self)
  · exact .refl
  · exact ((List.pairwise_cons.1 hpairs).1 record hmem).to_reflTransGen

theorem reduceName_of_first_field {own field : Text} {more : List (Text × Hint)}
    (h : find? name = some (.record own ((field, .named name) :: more))) (depth : Nat) :
    reduceName find? depth name = .error (.endlessRecord name) := by
  induction depth with
  | zero => rfl
  | succ depth ih =>
    rw [reduceName_succ_of_record h, reduceFields, Hint.reduceWith, ih]
    rfl

/-! ## Parameters -/

theorem finishes_reduceSpelling_iff {ns : Namespace} {spelling : Text} :
    Finishes (ns.reduceSpelling spelling) ↔
      ∀ documented, Hint.ofSpelling spelling = .ok documented →
        Finishes (ns.reduce documented) := by
  refine finishes_bind_iff.trans (and_iff_right ?_)
  unfold Hint.ofSpelling
  split <;> exact fun _ => nofun

theorem finishes_resolve_iff {ns : Namespace} {param : Text} {spelling? : Option Text}
    {hint? : Option Hint} :
    Finishes (ns.resolve param spelling? hint?) ↔
      (∀ spelling ∈ spelling?, Finishes (ns.reduceSpelling spelling)) ∧
      ∀ declared ∈ hint?, (∀ spelling ∈ spelling?, ∃ type, ns.reduceSpelling spelling = .ok type) →
        Finishes (ns.reduce declared) := by
  cases spelling? with
  | none =>
    cases hint? with
    | none => exact ⟨fun _ => ⟨nofun, nofun⟩, fun _ _ => nofun⟩
    | some hint => simp [resolve]
  | some spelling =>
    cases hint? with
    | none => simp [resolve]
    | some hint =>
      have hlast : ∀ documented declared : Descriptor, Finishes (if documented.sameAs declared then
          Except.ok declared else .error (.typeConflict param spelling hint)) := by
        intro documented declared
        split <;> exact fun _ => nofun
      simp only [Option.mem_some_iff, forall_eq', resolve]
      rw [finishes_bind_iff]
      refine and_congr_right fun _ => ⟨?_, ?_⟩
      · rintro hdeclared ⟨type, htype⟩
        exact (finishes_bind_iff.1 (hdeclared type htype)).1
      · exact fun hdeclared type htype =>
          finishes_bind_iff.2 ⟨hdeclared ⟨type, htype⟩, fun declared _ => hlast type declared⟩

end Namespace

/-! ## The depth of a registry -/

namespace Registry

variable {registry : Registry} {hint : Hint} {name : Text}

theorem mem_of_find? {definition : TypeDef} (h : registry.find? name = some definition) :
    name ∈ registry.definitions.map Prod.fst := isSome_lookup_iff.1 (Option.isSome_of_eq_some h)

/-- Any name that the depth of a registry is too little for is endless. -/
theorem endless_of_not_finishes
    (h : ¬ Finishes (Namespace.reduceName registry.find? registry.namespaceOf.depth name)) :
    Namespace.Endless registry.find? registry.namespaceOf.depth name := by
  obtain ⟨names, hlength, hchain, hleads⟩ :=
    Namespace.exists_chain (Nat.le_succ registry.definitions.length) h
  refine Namespace.endless_of_not_nodup hchain fun hnodup => ?_
  have hmem : name :: names ⊆ registry.definitions.map Prod.fst := fun n hn => by
    obtain ⟨inner, own, before, field, hint, after, types, hfind, -⟩ := hleads n hn
    exact mem_of_find? hfind
  have hle := (hnodup.subperm hmem).length_le
  rw [List.length_map, List.length_cons, hlength] at hle
  omega

/-- The reduction of the hint meets a record that contains itself. -/
def LeadsBack (registry : Registry) (hint : Hint) : Prop :=
  ∃ name, hint.Asks (Namespace.reduceName registry.find? registry.namespaceOf.depth) name ∧
    Namespace.Endless registry.find? registry.namespaceOf.depth name

theorem finishes_of_not_leadsBack (h : ¬ registry.LeadsBack hint) :
    Finishes (registry.namespaceOf.reduce hint) := by
  by_contra hfin
  obtain ⟨name, hasks, hname⟩ := Hint.exists_asks _ hint hfin
  exact h ⟨name, hasks, endless_of_not_finishes hname⟩

theorem LeadsBack.not_finishes (h : registry.LeadsBack hint) (depth : Nat) :
    ¬ Finishes (Namespace.reduce ⟨registry.find?, depth⟩ hint) := by
  intro hfin
  obtain ⟨name, hasks, hname⟩ := h
  have hdeep := hasks.mono <|
    Namespace.extends_reduceName registry.find? (Nat.le_max_right depth registry.namespaceOf.depth)
  have hext := Namespace.extends_reduceName registry.find?
    (Nat.le_max_left depth registry.namespaceOf.depth)
  exact hname.not_finishes depth (hdeep.finishes hext hfin)

/-- The depth of the registry is enough wherever some depth is. -/
theorem namespaceOf_reduce_eq {depth : Nat}
    (h : Finishes (Namespace.reduce ⟨registry.find?, depth⟩ hint)) :
    registry.namespaceOf.reduce hint = Namespace.reduce ⟨registry.find?, depth⟩ hint := by
  have hfin : Finishes (registry.namespaceOf.reduce hint) :=
    finishes_of_not_leadsBack fun hback => hback.not_finishes depth h
  rcases Nat.le_total depth registry.namespaceOf.depth with hle | hle
  · exact Hint.reduceWith_eq_of_finishes (Namespace.extends_reduceName _ hle) hint h
  · exact (Hint.reduceWith_eq_of_finishes (Namespace.extends_reduceName _ hle) hint hfin).symm

theorem exists_finishes_reduce_iff :
    (∃ depth, Finishes (Namespace.reduce ⟨registry.find?, depth⟩ hint)) ↔
      ¬ registry.LeadsBack hint :=
  ⟨fun ⟨depth, hfin⟩ hback => hback.not_finishes depth hfin, fun h =>
    ⟨registry.namespaceOf.depth, finishes_of_not_leadsBack h⟩⟩

theorem finishes_namespaceOf_reduce_iff :
    Finishes (registry.namespaceOf.reduce hint) ↔ ¬ registry.LeadsBack hint :=
  ⟨fun hfin hback => hback.not_finishes _ hfin, finishes_of_not_leadsBack⟩

/-- The depth of the registry is enough for parameters too. -/
theorem namespaceOf_resolve_eq {depth : Nat} {param : Text} {spelling? : Option Text}
    {hint? : Option Hint}
    (h : Finishes (Namespace.resolve ⟨registry.find?, depth⟩ param spelling? hint?)) :
    registry.namespaceOf.resolve param spelling? hint? =
      Namespace.resolve ⟨registry.find?, depth⟩ param spelling? hint? := by
  have hspelling : ∀ spelling,
      Finishes (Namespace.reduceSpelling ⟨registry.find?, depth⟩ spelling) →
        registry.namespaceOf.reduceSpelling spelling =
          Namespace.reduceSpelling ⟨registry.find?, depth⟩ spelling := fun spelling hfin =>
    bind_eq_of_finishes hfin (fun _ => rfl) fun _ _ => namespaceOf_reduce_eq
  cases spelling? with
  | none =>
    cases hint? with
    | none => rfl
    | some hint => exact namespaceOf_reduce_eq h
  | some spelling =>
    cases hint? with
    | none => exact hspelling spelling h
    | some hint =>
      exact bind_eq_of_finishes h (hspelling spelling) fun _ _ hrest =>
        bind_eq_of_finishes hrest namespaceOf_reduce_eq fun _ _ _ => rfl

/-- Some depth is enough for a hint exactly when it does not lead to a record that contains
itself; for a parameter this goes for its documented type, and for the declared one where the
documented one is settled. -/
theorem exists_finishes_iff_not_leadsBack (registry : Registry) :
    (∀ hint, (∃ depth, Finishes (Namespace.reduce ⟨registry.find?, depth⟩ hint)) ↔
      ¬ registry.LeadsBack hint) ∧
    ∀ param spelling? hint?,
      (∃ depth, Finishes (Namespace.resolve ⟨registry.find?, depth⟩ param spelling? hint?)) ↔
        (∀ spelling ∈ spelling?, ∀ documented, Hint.ofSpelling spelling = .ok documented →
          ¬ registry.LeadsBack documented) ∧
        ∀ declared ∈ hint?,
          (∀ spelling ∈ spelling?, ∃ type,
            registry.namespaceOf.reduceSpelling spelling = .ok type) →
          ¬ registry.LeadsBack declared := by
  refine ⟨fun hint => exists_finishes_reduce_iff, fun param spelling? hint? => ?_⟩
  have henough : (∃ depth,
      Finishes (Namespace.resolve ⟨registry.find?, depth⟩ param spelling? hint?)) ↔
      Finishes (registry.namespaceOf.resolve param spelling? hint?) :=
    ⟨fun ⟨depth, hfin⟩ => namespaceOf_resolve_eq hfin ▸ hfin, fun h => ⟨_, h⟩⟩
  rw [henough, Namespace.finishes_resolve_iff]
  simp only [Namespace.finishes_reduceSpelling_iff, finishes_namespaceOf_reduce_iff]

/-- A record whose own field is of its type has no type and no error, at any depth. -/
theorem not_finishes_record_of_itself :
    ¬ ∃ depth, Finishes (Namespace.reduce
      ⟨(standard.register "Node".toList
        (.record "Node".toList [("next".toList, .named "Node".toList)])).find?, depth⟩
      (.named "Node".toList)) := by
  rintro ⟨depth, hfin⟩
  have hfind : (standard.register "Node".toList
      (.record "Node".toList [("next".toList, .named "Node".toList)])).find? "Node".toList =
      some (.record "Node".toList [("next".toList, .named "Node".toList)]) := by decide
  exact hfin _ (Namespace.reduceName_of_first_field hfind depth)

end Registry
end CallDoc
