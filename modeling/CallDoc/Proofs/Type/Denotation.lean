import Mathlib.Data.List.Nodup
import CallDoc.Proofs.Type.Order
import CallDoc.Proofs.Type.Readable

/-!
The name of a type in messages denotes the type again. A reduced type is made of types that
their own names stand for, so its name, read as a hint and reduced, gives the same type: what
reduction dropped, resolved or flattened is not in it, and what is left reduces to itself.
-/
namespace CallDoc

open Text Spelling

theorem Literal.InRange.spellable {value : Literal} (h : value.InRange)
    (hunquoted : ∀ text, value = .str text → '\x27' ∉ text ∧ ']' ∉ text) : value.Spellable := by
  cases value with
  | str text => exact .str (hunquoted text rfl).1 (hunquoted text rfl).2
  | int value => exact .int h.1 h.2
  | bool value => exact .bool value

namespace Descriptor

mutual

/-- The hint that the name of the type in messages is read as. -/
def hint : Descriptor → Hint
  | .scalar name => if name = "NoneType".toList then .none else .named name
  | .container elem => .list elem.hint
  | .fixedTuple elems => .tuple (hints elems)
  | .variadicTuple elem => .varTuple elem.hint
  | .union members => .union (hints members)
  | .enumerated name _ => .named name
  | .choice values => .literal values
  | .record name _ => .named name

def hints : List Descriptor → List Hint
  | [] => []
  | d :: t => d.hint :: hints t

end

theorem hints_eq_map (types : List Descriptor) : hints types = types.map hint := by
  induction types with
  | nil => rfl
  | cons d t ih => exact congrArg (d.hint :: ·) ih

variable {d : Descriptor}

theorem spelling_of_identity? {name : Text} (h : d.identity? = some name) : d.spelling = name := by
  cases d <;> cases h <;> rfl

theorem hint_of_identity? {name : Text} (h : d.identity? = some name)
    (hname : name ≠ "NoneType".toList) : d.hint = .named name := by
  cases d <;> cases h
  · exact if_neg hname
  · rfl
  · rfl

theorem spelling_none : Descriptor.none.spelling = "NoneType".toList := rfl

theorem hint_none : Descriptor.none.hint = .none := if_pos rfl

theorem hint_ne_union (h : d.isUnion = false) (arms : List Hint) : d.hint ≠ .union arms := by
  cases d with
  | union members => cases h
  | scalar name =>
    rw [hint]
    split <;> exact nofun
  | _ => exact nofun

/-- The type is the absent value, or one that its own name stands for, or is made of such types
as reduction makes a type of them. -/
inductive Denoted (lookup : Text → Except Error Descriptor) : Descriptor → Prop
  | none : Denoted lookup .none
  | name {d : Descriptor} {name : Text} (own : d.identity? = some name) (word : IsTypeWord name)
      (notNone : name ≠ "None".toList) (notNoneType : name ≠ "NoneType".toList)
      (found : lookup name = .ok d) : Denoted lookup d
  | container {elem : Descriptor} (inner : Denoted lookup elem)
      (flat : elem.isContainer = false) : Denoted lookup (.container elem)
  | variadicTuple {elem : Descriptor} (inner : Denoted lookup elem)
      (flat : elem.isContainer = false) : Denoted lookup (.variadicTuple elem)
  | fixedTuple {elems : List Descriptor} (inner : ∀ elem ∈ elems, Denoted lookup elem)
      (flat : ∀ elem ∈ elems, elem.isContainer = false) (nonempty : elems ≠ []) :
    Denoted lookup (.fixedTuple elems)
  | union {members : List Descriptor} (inner : ∀ member ∈ members, Denoted lookup member)
      (whole : IsUnion members) (several : 2 ≤ members.length)
      (apart : ∀ member ∈ members, member.isUnion = false) : Denoted lookup (.union members)
  | choice {values : List Literal} (inner : ∀ value ∈ values, value.Spellable)
      (nonempty : values ≠ []) : Denoted lookup (.choice values)

variable {lookup : Text → Except Error Descriptor}

/-- The members of a union that stands for itself are joined to it. -/
theorem IsUnion.joinArms {members : List Descriptor} (h : IsUnion members) (whole : Hint) :
    Hint.joinArms whole members = .ok (.union members) := by
  have hseveral : (members.filter fun member => !member.isNone).length ≠ 1 := by
    by_cases hnone : none ∈ members
    · exact h.optional hnone
    · have hfilter : (members.filter fun member => !member.isNone) = members := by
        refine List.filter_eq_self.2 fun member hmem => ?_
        simpa [isNone] using ne_of_mem_of_not_mem hmem hnone
      rw [hfilter]
      exact h.single
  have hflat : members.any isContainer = false := List.any_eq_false.2 fun member hmem =>
    Bool.eq_false_iff.1 (h.flat member hmem)
  unfold Hint.joinArms
  simp only [eraseDups_of_nodup h.nodup, hflat]
  split
  · rename_i hsingle
    exact absurd (by rw [hsingle]; rfl) hseveral
  · rw [if_neg Bool.false_ne_true]
    split
    · exact absurd rfl h.single
    · rfl

theorem mapM_hints {types : List Descriptor} {f : Hint → Except Error Descriptor}
    (h : ∀ type ∈ types, f type.hint = .ok type) : (hints types).mapM f = .ok types := by
  rw [hints_eq_map, mapM_eq_ok_iff, List.forall₂_map_left_iff, List.forall₂_same]
  exact h

theorem asElement_of_flat (outer : Hint) (h : d.isContainer = false) :
    Hint.asElement outer d = .ok d := if_neg (Bool.eq_false_iff.1 h)

/-- By induction on the type, each part of which reduces to itself. -/
theorem Denoted.reduceWith_hint (h : Denoted lookup d) : d.hint.reduceWith lookup = .ok d := by
  induction h with
  | none =>
    rw [hint_none]
    rfl
  | name own word notNone notNoneType found =>
    rw [hint_of_identity? own notNoneType]
    exact found
  | container inner flat ih =>
    exact bind_eq_ok_iff.2 ⟨_, ih, bind_eq_ok_iff.2 ⟨_, asElement_of_flat _ flat, rfl⟩⟩
  | variadicTuple inner flat ih =>
    exact bind_eq_ok_iff.2 ⟨_, ih, bind_eq_ok_iff.2 ⟨_, asElement_of_flat _ flat, rfl⟩⟩
  | fixedTuple inner flat nonempty ih =>
    rw [hint, Hint.reduceWith, Hint.reduceElements_eq, mapM_hints fun elem hmem => ?_]
    · rfl
    · rw [Hint.reduceElement, ih elem hmem]
      exact asElement_of_flat _ (flat elem hmem)
  | @union members inner whole several apart ih =>
    rw [hint, Hint.reduceWith, Hint.reduceAll_eq, mapM_hints ih]
    exact whole.joinArms _
  | choice inner nonempty => rfl

/-- By induction on the type: its name is made of the names of its parts, each of which stands
for its hint. -/
theorem Denoted.readable (h : Denoted lookup d) : Readable d.spelling d.hint := by
  induction h with
  | none =>
    rw [spelling_none, hint_none]
    exact readable_none (Or.inr rfl)
  | name own word notNone notNoneType found =>
    rw [spelling_of_identity? own, hint_of_identity? own notNoneType]
    exact readable_named word notNone notNoneType
  | container inner flat ih =>
    rw [spelling_container, hint]
    exact readable_list ih
  | variadicTuple inner flat ih =>
    rw [spelling_variadicTuple, hint]
    exact readable_varTuple ih
  | fixedTuple inner flat nonempty ih =>
    rw [spelling_fixedTuple, hint, hints_eq_map]
    exact readable_tuple ih nonempty
  | @union members inner whole several apart ih =>
    -- members that reduce to different types are read as different hints
    have hdistinct : (members.map hint).Nodup := by
      refine List.Nodup.map_on (fun a ha b hb hab => ?_) whole.nodup
      have hreduce := (inner b hb).reduceWith_hint
      rw [← hab, (inner a ha).reduceWith_hint] at hreduce
      exact Except.ok.inj hreduce
    rw [spelling_union, hint, hints_eq_map]
    exact readable_union ih several hdistinct fun member hmem => hint_ne_union (apart member hmem)
  | choice inner nonempty =>
    rw [spelling_choice, hint]
    exact readable_literal nonempty inner

end Descriptor

namespace Hint

open Descriptor (Canonical Denoted)

mutual

/-- The values that the types in the hint are made of. -/
def literals : Hint → List Literal
  | .named _ | .none => []
  | .list elem | .varTuple elem => elem.literals
  | .tuple hints | .union hints => allLiterals hints
  | .literal values => values

def allLiterals : List Hint → List Literal
  | [] => []
  | h :: t => h.literals ++ allLiterals t

end

theorem mem_allLiterals {hints : List Hint} {value : Literal} :
    value ∈ allLiterals hints ↔ ∃ hint ∈ hints, value ∈ hint.literals := by
  induction hints with
  | nil => simp [allLiterals]
  | cons h t ih => simp [allLiterals, ih]

/-- The strings in the hint can stand between quotes and brackets. -/
def Unquoted (hint : Hint) : Prop :=
  ∀ value, .str value ∈ hint.literals → '\x27' ∉ value ∧ ']' ∉ value

theorem Unquoted.of_mem {hints : List Hint} {hint : Hint}
    (h : ∀ value, .str value ∈ allLiterals hints → '\x27' ∉ value ∧ ']' ∉ value)
    (hmem : hint ∈ hints) : hint.Unquoted :=
  fun value hvalue => h value (mem_allLiterals.2 ⟨hint, hmem, hvalue⟩)

section Reduce

variable {lookup : Text → Except Error Descriptor} {elem : Hint} {hints : List Hint}
  {d : Descriptor}

theorem denoted_reduceElement {outer : Hint}
    (helem : ∀ {d}, elem.reduceWith lookup = .ok d → Denoted lookup d)
    (h : reduceElement lookup outer elem = .ok d) : Denoted lookup d ∧ d.isContainer = false := by
  obtain ⟨type, htype, h⟩ := bind_eq_ok_iff.1 h
  obtain ⟨rfl, hflat⟩ := asElement_eq_ok h
  exact ⟨helem htype, hflat⟩

/-- What is made of one element is denoted as soon as the element is. -/
theorem denoted_ofElement {outer : Hint} {wrap : Descriptor → Descriptor}
    (hwrap : ∀ {d}, Denoted lookup d → d.isContainer = false → Denoted lookup (wrap d))
    (helem : ∀ {d}, elem.reduceWith lookup = .ok d → Denoted lookup d)
    (h : (do
      let type ← reduceWith lookup elem
      return wrap (← asElement outer type)) = Except.ok d) : Denoted lookup d := by
  obtain ⟨type, htype, h⟩ := bind_eq_ok_iff.1 h
  obtain ⟨inner, hinner, h⟩ := bind_eq_ok_iff.1 h
  obtain rfl := Except.ok.inj h
  obtain ⟨hdenoted, hflat⟩ := denoted_reduceElement helem (bind_eq_ok_iff.2 ⟨type, htype, hinner⟩)
  exact hwrap hdenoted hflat

theorem denoted_tuple (nonempty : hints ≠ [])
    (hhints : ∀ elem ∈ hints, ∀ {d}, elem.reduceWith lookup = .ok d → Denoted lookup d)
    (h : (tuple hints).reduceWith lookup = .ok d) : Denoted lookup d := by
  obtain ⟨types, htypes, h⟩ := bind_eq_ok_iff.1 h
  obtain rfl := Except.ok.inj h
  rw [reduceElements_eq] at htypes
  have hall := mapM_eq_ok_iff.1 htypes
  have hdenoted : ∀ type ∈ types, Denoted lookup type ∧ type.isContainer = false := by
    intro type hmem
    obtain ⟨elem, helem, hreduce⟩ := exists_of_mem_forall₂ hall hmem
    exact denoted_reduceElement (hhints elem helem) hreduce
  refine .fixedTuple (fun type hmem => (hdenoted type hmem).1)
    (fun type hmem => (hdenoted type hmem).2) ?_
  rintro rfl
  exact nonempty (List.forall₂_nil_right_iff.1 hall)

/-- The arms of a union are joined to one of them or to a union of several. -/
theorem denoted_union (several : 2 ≤ hints.length) (hcanonical : Canonical d)
    (hhints : ∀ arm ∈ hints, ∀ {d}, arm.reduceWith lookup = .ok d →
      Denoted lookup d ∧ d.isUnion = false)
    (h : (union hints).reduceWith lookup = .ok d) : Denoted lookup d := by
  obtain ⟨types, htypes, h⟩ := bind_eq_ok_iff.1 h
  rw [reduceAll_eq] at htypes
  have hall := mapM_eq_ok_iff.1 htypes
  have hdenoted : ∀ type ∈ types.eraseDups, Denoted lookup type ∧ type.isUnion = false := by
    intro type hmem
    obtain ⟨arm, harm, hreduce⟩ := exists_of_mem_forall₂ hall (List.mem_eraseDups.1 hmem)
    exact hhints arm harm hreduce
  obtain hsingle | ⟨-, hsingle | ⟨hmany, rfl⟩⟩ := joinArms_cases h
  · have hmem : d ∈ types.eraseDups.filter fun arm => !arm.isNone := by simp [hsingle]
    exact (hdenoted d (List.mem_filter.1 hmem).1).1
  · exact (hdenoted d (by simp [hsingle])).1
  · have hsome : types.eraseDups ≠ [] := by
      obtain ⟨first, more, rfl⟩ := List.exists_cons_of_length_pos
        (show 0 < types.length by rw [← hall.length_eq]; omega)
      rw [List.eraseDups_cons]
      exact List.cons_ne_nil _ _
    have hpos := List.length_pos_iff.2 hsome
    cases hcanonical with
    | union _ whole =>
      exact .union (fun type hmem => (hdenoted type hmem).1) whole (by omega)
        fun type hmem => (hdenoted type hmem).2

/-- By induction on the hint: where the types of names are denoted by their own names, the types
of hints are denoted by theirs. -/
theorem Grammatical.denoted {hint : Hint} (hgrammatical : hint.Grammatical)
    (hlookup : ∀ name d, lookup name = .ok d →
      Denoted lookup d ∧ Canonical d ∧ d.isUnion = false) :
    ∀ {d : Descriptor}, hint.Unquoted → hint.reduceWith lookup = .ok d → Denoted lookup d := by
  have hplain (name d) (h : lookup name = .ok d) : d.isUnion = false := (hlookup name d h).2.2
  have hcanonical (name d) (h : lookup name = .ok d) : Canonical d := (hlookup name d h).2.1
  induction hgrammatical with
  | named name => exact fun _ h => (hlookup name _ h).1
  | none =>
    intro d _ h
    obtain rfl := Except.ok.inj h
    exact .none
  | list inner ih => exact fun hunquoted h => denoted_ofElement .container (ih hunquoted) h
  | varTuple inner ih =>
    exact fun hunquoted h => denoted_ofElement .variadicTuple (ih hunquoted) h
  | tuple inner nonempty ih =>
    exact fun hunquoted h =>
      denoted_tuple nonempty (fun elem helem => ih elem helem (.of_mem hunquoted helem)) h
  | union inner several apart ih =>
    exact fun hunquoted h => denoted_union several (canonical_reduceWith hcanonical _ _ h)
      (fun arm harm _ hreduce => ⟨ih arm harm (.of_mem hunquoted harm) hreduce,
        isUnion_reduceWith hplain (apart arm harm) hreduce⟩) h
  | literal inner nonempty =>
    intro d hunquoted h
    obtain rfl := Except.ok.inj h
    exact .choice (fun value hvalue => (inner value hvalue).spellable
      fun text htext => hunquoted text (htext ▸ hvalue)) nonempty

end Reduce

end Hint

/-! ## Namespaces -/

/-- The name of a type that is not built in is a word for a type, and not for the absent value. -/
def TypeDef.WellNamed : TypeDef → Prop
  | .builtin _ => True
  | .enumeration name _ | .record name _ | .classType name _ =>
    IsTypeWord name ∧ name ≠ "None".toList ∧ name ≠ "NoneType".toList

instance : (definition : TypeDef) → Decidable definition.WellNamed
  | .builtin _ => inferInstanceAs (Decidable True)
  | .enumeration name _ | .record name _ | .classType name _ =>
    inferInstanceAs (Decidable (IsTypeWord name ∧ name ≠ "None".toList ∧ name ≠ "NoneType".toList))

namespace Namespace

open Descriptor (Denoted)

/-- Whatever a definition is found under, it is found under its own name too, which can be told
from the words of the grammar. -/
structure Faithful (ns : Namespace) : Prop where
  found : ∀ key definition, ns.find? key = some definition →
    ns.find? definition.name = some definition
  wellNamed : ∀ key definition, ns.find? key = some definition → definition.WellNamed

theorem wellNamed_builtin (type : Builtin) : type = .none ∨
    IsTypeWord type.name ∧ type.name ≠ "None".toList ∧ type.name ≠ "NoneType".toList := by
  cases type <;> decide +kernel

/-- A name stands for its definition and for nothing else. -/
theorem reduceName_of_find? {find? : Text → Option TypeDef} {depth : Nat} {name : Text}
    {definition : TypeDef} {d : Descriptor} (hfind : find? name = some definition)
    (h : reduceName find? (depth + 1) name = .ok d) :
    d.identity? = some definition.name ∧
      ∀ key, find? key = some definition → reduceName find? (depth + 1) key = .ok d := by
  rw [reduceName, hfind] at h
  cases definition with
  | builtin type =>
    cases type <;> cases h <;> exact ⟨rfl, fun key hkey => by rw [reduceName, hkey]⟩
  | enumeration own members =>
    cases h
    exact ⟨rfl, fun key hkey => by rw [reduceName, hkey]⟩
  | record own fields =>
    refine ⟨?_, fun key hkey => by rwa [reduceName, hkey]⟩
    obtain ⟨types, -, h⟩ := bind_eq_ok_iff.1 h
    obtain rfl := Except.ok.inj h
    rfl
  | classType own argument =>
    cases h
    exact ⟨rfl, fun key hkey => by rw [reduceName, hkey]⟩

variable {ns : Namespace}

/-- The type of a name is denoted by the name of its definition. -/
theorem Faithful.denoted (hfaithful : ns.Faithful) {depth : Nat} {name : Text} {d : Descriptor}
    (h : reduceName ns.find? depth name = .ok d) : Denoted (reduceName ns.find? depth) d := by
  cases depth with
  | zero => cases h
  | succ depth =>
    cases hfind : ns.find? name with
    | none =>
      rw [reduceName, hfind] at h
      cases h
    | some definition =>
      obtain ⟨hidentity, hsame⟩ := reduceName_of_find? hfind h
      have hown := hsame definition.name (hfaithful.found name definition hfind)
      have hnamed := hfaithful.wellNamed name definition hfind
      cases definition with
      | builtin type =>
        obtain rfl | ⟨hword, hnone, hnoneType⟩ := wellNamed_builtin type
        · rw [reduceName, hfind] at h
          obtain rfl := Except.ok.inj h
          exact .none
        · exact .name hidentity hword hnone hnoneType hown
      | _ => exact .name hidentity hnamed.1 hnamed.2.1 hnamed.2.2 hown

/-- The name of a type in messages denotes the type, where names lead to definitions that they
also are the names of and no string in the spelling breaks the spelling of the type. -/
theorem reduceSpelling_spelling (hfaithful : ns.Faithful) {spelling : Text} {hint : Hint}
    {d : Descriptor} (hspelling : Hint.ofSpelling spelling = .ok hint) (hunquoted : hint.Unquoted)
    (hreduce : ns.reduce hint = .ok d) : ns.reduceSpelling d.spelling = .ok d := by
  have hdenoted : Denoted (reduceName ns.find? ns.depth) d :=
    (Hint.grammatical_of_ofSpelling hspelling).denoted
      (fun name d h => ⟨hfaithful.denoted h, canonical_reduceName name d h, isUnion_reduceName h⟩)
      hunquoted hreduce
  rw [reduceSpelling, hdenoted.readable.ofSpelling]
  exact hdenoted.reduceWith_hint

theorem faithful_namespaceOf {registry : Registry}
    (h : ∀ entry ∈ registry.definitions,
      registry.find? entry.2.name = some entry.2 ∧ entry.2.WellNamed) :
    registry.namespaceOf.Faithful := by
  have hentry (key definition) (hfind : registry.find? key = some definition) :
      (key, definition) ∈ registry.definitions := by
    obtain ⟨before, after, hsplit, -⟩ := List.lookup_eq_some_iff.1 hfind
    rw [hsplit]
    simp
  exact ⟨fun key definition hfind => (h _ (hentry key definition hfind)).1,
    fun key definition hfind => (h _ (hentry key definition hfind)).2⟩

/-- An enumeration found under two names, beside the absent value and literals. -/
theorem reduceSpelling_spelling_color :
    let color := TypeDef.enumeration "Color".toList ["RED".toList]
    let ns := ((Registry.standard.register "Color".toList color).register "Hue".toList
      color).namespaceOf
    let d := Descriptor.union [.enumerated "Color".toList ["RED".toList], .none,
      .choice [.str "a, b".toList, .int (-1)], .scalar "Path".toList]
    (∃ hint, Hint.ofSpelling
        "Optional[Hue] | Color or Union[Literal['a, b', -1], pathlib.Path]".toList = .ok hint ∧
      hint.Unquoted ∧ ns.reduce hint = .ok d) ∧ ns.Faithful ∧
    d.spelling = "Union[Color, NoneType, Literal['a, b', -1], Path]".toList ∧
    ns.reduceSpelling d.spelling = .ok d := by
  intro color ns d
  have hfaithful : ns.Faithful := faithful_namespaceOf (by decide +kernel)
  have hspelling : Hint.ofSpelling
      "Optional[Hue] | Color or Union[Literal['a, b', -1], pathlib.Path]".toList =
        .ok (.union [.named "Hue".toList, .none, .named "Color".toList,
          .literal [.str "a, b".toList, .int (-1)], .named "pathlib.Path".toList]) := by
    decide +kernel
  have hunquoted : Hint.Unquoted (.union [.named "Hue".toList, .none, .named "Color".toList,
      .literal [.str "a, b".toList, .int (-1)], .named "pathlib.Path".toList]) := by
    intro value hvalue
    simp only [Hint.literals, Hint.allLiterals, List.nil_append, List.append_nil, List.mem_cons,
      Literal.str.injEq, List.not_mem_nil, or_false, reduceCtorEq] at hvalue
    subst hvalue
    decide
  have hreduce : ns.reduce (.union [.named "Hue".toList, .none, .named "Color".toList,
      .literal [.str "a, b".toList, .int (-1)], .named "pathlib.Path".toList]) = .ok d := by
    decide +kernel
  exact ⟨⟨_, hspelling, hunquoted, hreduce⟩, hfaithful, by decide +kernel,
    reduceSpelling_spelling hfaithful hspelling hunquoted hreduce⟩

end Namespace

end CallDoc
