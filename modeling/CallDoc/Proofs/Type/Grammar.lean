import CallDoc.Proofs.Numeral.Integer
import CallDoc.Proofs.Type.Ends

/-!
The shape of the hints that spellings denote. Nothing in such a hint is empty, its unions have
several members and no union among them, and its integers have 64 bits. A generic is made of
its arguments in one of four ways, and each of them keeps this shape.
-/
namespace CallDoc

open Text

/-- An integer of 64 bits, or a value of another kind. -/
def Literal.InRange : Literal → Prop
  | .int value => -0x8000000000000000 ≤ value ∧ value < 0x8000000000000000
  | .str _ | .bool _ => True

namespace Hint

/-- A hint as spellings denote it, in which names may be any words and strings any texts. -/
inductive Grammatical : Hint → Prop
  | named (name : Text) : Grammatical (.named name)
  | none : Grammatical .none
  | list {elem : Hint} (inner : Grammatical elem) : Grammatical (.list elem)
  | tuple {elems : List Hint} (inner : ∀ elem ∈ elems, Grammatical elem) (nonempty : elems ≠ []) :
    Grammatical (.tuple elems)
  | varTuple {elem : Hint} (inner : Grammatical elem) : Grammatical (.varTuple elem)
  | union {members : List Hint} (inner : ∀ member ∈ members, Grammatical member)
      (several : 2 ≤ members.length) (apart : ∀ member ∈ members, ∀ arms, member ≠ .union arms) :
    Grammatical (.union members)
  | literal {values : List Literal} (inner : ∀ value ∈ values, value.InRange)
      (nonempty : values ≠ []) : Grammatical (.literal values)

variable {h arm : Hint} {hints : List Hint}

theorem Grammatical.of_mem_arms (hgrammatical : h.Grammatical) (harm : arm ∈ h.arms) :
    arm.Grammatical ∧ ∀ arms, arm ≠ .union arms := by
  cases h with
  | union members =>
    cases hgrammatical with
    | union inner _ apart => exact ⟨inner arm harm, apart arm harm⟩
  | _ =>
    obtain rfl := List.mem_singleton.1 harm
    exact ⟨hgrammatical, nofun⟩

theorem Grammatical.arms_ne_nil (hgrammatical : h.Grammatical) : h.arms ≠ [] := by
  cases hgrammatical with
  | union _ several _ =>
    rintro rfl
    cases several
  | _ => exact List.cons_ne_nil _ _

theorem grammatical_unionOf (hne : hints ≠ []) (h : ∀ hint ∈ hints, hint.Grammatical) :
    (unionOf hints).Grammatical := by
  have harms : ∀ arm ∈ distinct (hints.flatMap arms),
      arm.Grammatical ∧ ∀ arms, arm ≠ .union arms := by
    intro arm harm
    rw [distinct_eq_eraseDups, List.mem_eraseDups] at harm
    obtain ⟨hint, hmem, harm⟩ := List.mem_flatMap.1 harm
    exact (h hint hmem).of_mem_arms harm
  have hsome : distinct (hints.flatMap arms) ≠ [] := by
    obtain ⟨first, more, rfl⟩ := List.exists_cons_of_ne_nil hne
    obtain ⟨arm, others, harm⟩ :=
      List.exists_cons_of_ne_nil (h first List.mem_cons_self).arms_ne_nil
    have hmem : arm ∈ distinct ((first :: more).flatMap arms) := by
      rw [distinct_eq_eraseDups, List.mem_eraseDups, List.flatMap_cons, harm]
      simp
    exact List.ne_nil_of_mem hmem
  rw [unionOf]
  split
  · rename_i single hsingle
    exact (harms single (by simp [hsingle])).1
  · rename_i hseveral
    refine .union (fun arm harm => (harms arm harm).1) ?_ fun arm harm => (harms arm harm).2
    rcases hdistinct : distinct (hints.flatMap arms) with _ | ⟨first, _ | ⟨second, more⟩⟩
    · exact absurd hdistinct hsome
    · exact absurd hdistinct (hseveral first)
    · simp

/-- The arms of a union are those of its parts, each of them once. -/
theorem arms_unionOf (h : ∀ hint ∈ hints, hint.Grammatical) :
    (unionOf hints).arms = (hints.flatMap arms).eraseDups := by
  rw [unionOf, ← distinct_eq_eraseDups]
  split
  · rename_i single hsingle
    rw [hsingle]
    have hmem : single ∈ distinct (hints.flatMap arms) := by simp [hsingle]
    rw [distinct_eq_eraseDups, List.mem_eraseDups] at hmem
    obtain ⟨hint, hhint, harm⟩ := List.mem_flatMap.1 hmem
    exact arms_eq_self ((h hint hhint).of_mem_arms harm).2
  · rfl

/-- Unions are joined as their parts are. -/
theorem unionOf_unionOf {as bs : List Hint} (has : ∀ a ∈ as, a.Grammatical)
    (hbs : ∀ b ∈ bs, b.Grammatical) : unionOf [unionOf as, unionOf bs] = unionOf (as ++ bs) := by
  have harms : distinct ([unionOf as, unionOf bs].flatMap arms) =
      distinct ((as ++ bs).flatMap arms) := by
    rw [distinct_eq_eraseDups, distinct_eq_eraseDups, List.flatMap_append,
      ← eraseDups_append_eraseDups, ← arms_unionOf has, ← arms_unionOf hbs]
    simp
  rw [unionOf, harms, unionOf]

end Hint

namespace Spelling

/-! ## Arguments -/

theorem eq_map_type_of_typesOf {arguments : List Argument} {types : List Hint}
    (h : typesOf arguments = .ok types) : arguments = types.map .type := by
  induction arguments generalizing types with
  | nil =>
    obtain rfl := Except.ok.inj h
    rfl
  | cons argument more ih =>
    cases argument with
    | type hint =>
      obtain ⟨rest, hrest, rfl⟩ := map_eq_ok_iff.1 h
      rw [ih hrest, List.map_cons]
    | literal value => cases h
    | ellipsis => cases h

theorem eq_map_literal_of_literalsOf {arguments : List Argument} {values : List Literal}
    (h : literalsOf arguments = .ok values) : arguments = values.map .literal := by
  induction arguments generalizing values with
  | nil =>
    obtain rfl := Except.ok.inj h
    rfl
  | cons argument more ih =>
    cases argument with
    | literal value =>
      obtain ⟨rest, hrest, rfl⟩ := map_eq_ok_iff.1 h
      rw [ih hrest, List.map_cons]
    | type hint => cases h
    | ellipsis => cases h

theorem eq_type_of_soleType {name : Text} {arguments : List Argument} {type : Hint}
    (h : soleType name arguments = .ok type) : arguments = [.type type] := by
  unfold soleType at h
  split at h
  · cases h
  · rename_i sole hsole
    obtain rfl := Except.ok.inj h
    exact eq_map_type_of_typesOf hsole
  · cases h

/-- The ways in which a generic makes a hint of its arguments. -/
inductive Makes : List Argument → Hint → Prop
  | literal (values : List Literal) : Makes (values.map .literal) (.literal values)
  | varTuple (elem : Hint) : Makes [.type elem, .ellipsis] (.varTuple elem)
  | tuple (elems : List Hint) : Makes (elems.map .type) (.tuple elems)
  | list (elem : Hint) : Makes [.type elem] (.list elem)
  | optional (inner : Hint) : Makes [.type inner] (.optional inner)
  | union (members : List Hint) : Makes (members.map .type) (.unionOf members)

theorem makes_of_generic {name : Text} {arguments : List Argument} {hint : Hint}
    (h : generic name arguments = .ok hint) : Makes arguments hint := by
  simp only [generic] at h
  split at h
  · obtain ⟨values, hvalues, rfl⟩ := map_eq_ok_iff.1 h
    exact eq_map_literal_of_literalsOf hvalues ▸ .literal values
  · split at h
    · split at h
      · rename_i elem
        obtain rfl := Except.ok.inj h
        exact .varTuple elem
      · obtain ⟨types, htypes, rfl⟩ := map_eq_ok_iff.1 h
        exact eq_map_type_of_typesOf htypes ▸ .tuple types
    · split at h
      · obtain ⟨elem, helem, rfl⟩ := map_eq_ok_iff.1 h
        exact eq_type_of_soleType helem ▸ .list elem
      · split at h
        · obtain ⟨inner, hinner, rfl⟩ := map_eq_ok_iff.1 h
          exact eq_type_of_soleType hinner ▸ .optional inner
        · split at h
          · cases h
          · rename_i types htypes
            split at h
            · obtain rfl := Except.ok.inj h
              exact eq_map_type_of_typesOf htypes ▸ .union types
            · cases h

/-- The argument is of the shape that the grammar gives it. -/
def Argument.Grammatical : Argument → Prop
  | .type hint => hint.Grammatical
  | .literal value => value.InRange
  | .ellipsis => True

theorem Makes.grammatical {arguments : List Argument} {hint : Hint} (h : Makes arguments hint)
    (hne : arguments ≠ []) (harguments : ∀ a ∈ arguments, a.Grammatical) : hint.Grammatical := by
  cases h with
  | literal values =>
    exact .literal (fun _ hvalue => harguments _ (List.mem_map_of_mem hvalue))
      (mt List.map_eq_nil_iff.2 hne)
  | varTuple elem => exact .varTuple (harguments _ List.mem_cons_self)
  | tuple elems =>
    exact .tuple (fun _ helem => harguments _ (List.mem_map_of_mem helem))
      (mt List.map_eq_nil_iff.2 hne)
  | list elem => exact .list (harguments _ List.mem_cons_self)
  | optional inner =>
    refine Hint.grammatical_unionOf (List.cons_ne_nil _ _) fun arm harm => ?_
    rcases List.mem_pair.1 harm with rfl | rfl
    · exact harguments _ List.mem_cons_self
    · exact .none
  | union members =>
    exact Hint.grammatical_unionOf (mt List.map_eq_nil_iff.2 hne)
      fun _ hmember => harguments _ (List.mem_map_of_mem hmember)

theorem inRange_of_literal? {t rest : Text} {value : Literal}
    (h : literal? t = .ok (some (value, rest))) : value.InRange := by
  unfold literal? at h
  dsimp only at h
  split at h
  · split at h
    · obtain ⟨rfl, -⟩ := Prod.mk.inj (Option.some.inj (Except.ok.inj h))
      trivial
    · cases h
  · split at h
    · split at h
      · rename_i n hn
        obtain ⟨rfl, -⟩ := Prod.mk.inj (Option.some.inj (Except.ok.inj h))
        exact Numeral.int64?_bounds hn
      · cases h
    · split at h
      · obtain ⟨rfl, -⟩ := Prod.mk.inj (Option.some.inj (Except.ok.inj h))
        trivial
      · obtain ⟨after, -, he⟩ := Option.map_eq_some_iff.1 (Except.ok.inj h)
        obtain ⟨rfl, -⟩ := Prod.mk.inj he
        trivial

/-! ## Spellings -/

theorem keptByReading_grammatical :
    KeptByReading (fun _ hint _ => hint.Grammatical) (fun _ hints _ => ∀ h ∈ hints, h.Grammatical)
      (fun _ hint _ => hint.Grammatical) (fun _ entry _ => entry.Grammatical)
      (fun _ entries _ => ∀ a ∈ entries, a.Grammatical) where
  union hfirst hmore :=
    Hint.grammatical_unionOf (List.cons_ne_nil _ _) (List.forall_mem_cons.2 ⟨hfirst, hmore⟩)
  noAlternative _ := List.forall_mem_nil _
  alternative _ hnext hmore := List.forall_mem_cons.2 ⟨hnext, hmore⟩
  absent _ _ := .none
  named _ := .named _
  generic _ _ hfirst hmore _ hgeneric :=
    (makes_of_generic hgeneric).grammatical (List.cons_ne_nil _ _)
      (List.forall_mem_cons.2 ⟨hfirst, hmore⟩)
  ellipsis _ := trivial
  literal hvalue := inRange_of_literal? hvalue
  type hhint := hhint
  noEntry _ := List.forall_mem_nil _
  entry _ hnext hmore := List.forall_mem_cons.2 ⟨hnext, hmore⟩

theorem grammatical_of_whole {piece : Text} {hint : Hint} (h : whole piece = .ok hint) :
    hint.Grammatical := by
  obtain ⟨depth, rest, hunion, -⟩ := exists_union_of_whole h
  exact keptByReading_grammatical.of_union hunion

theorem grammatical_of_mapM {pieces : List Text} {hints : List Hint}
    (h : pieces.mapM whole = .ok hints) : ∀ hint ∈ hints, hint.Grammatical := by
  intro hint hmem
  obtain ⟨piece, -, hpiece⟩ := exists_of_mem_forall₂ (mapM_eq_ok_iff.1 h) hmem
  exact grammatical_of_whole hpiece

end Spelling

/-- Every hint that a spelling denotes is of the shape that the grammar gives it. -/
theorem Hint.grammatical_of_ofSpelling {t : Text} {hint : Hint} (h : ofSpelling t = .ok hint) :
    hint.Grammatical := by
  obtain ⟨hints, hhints, rfl⟩ := ofSpelling_eq_ok_iff.1 h
  refine grammatical_unionOf (fun hnil => ?_) (Spelling.grammatical_of_mapM hhints)
  rw [hnil, mapM_eq_ok_iff, List.forall₂_nil_right_iff] at hhints
  exact Spelling.splitOr_ne_nil 0 t hhints

end CallDoc
