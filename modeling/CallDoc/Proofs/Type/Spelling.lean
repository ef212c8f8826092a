import CallDoc.Proofs.Type.Readable

/-!
A hint reads back as it was written. What stands for its parts makes up a text that stands for
the hint, so the whole of it is shown by recursion on the hint.
-/
namespace CallDoc

open Text Spelling

namespace Hint

/-- A hint of the shape that reading produces. -/
inductive Spellable : Hint → Prop
  | named {name : Text} (word : IsTypeWord name) (notNone : name ≠ "None".toList)
      (notNoneType : name ≠ "NoneType".toList) : Spellable (.named name)
  | none : Spellable .none
  | list {elem : Hint} (inner : Spellable elem) : Spellable (.list elem)
  | tuple {elems : List Hint} (inner : ∀ elem ∈ elems, Spellable elem) (nonempty : elems ≠ []) :
    Spellable (.tuple elems)
  | varTuple {elem : Hint} (inner : Spellable elem) : Spellable (.varTuple elem)
  | union {members : List Hint} (inner : ∀ member ∈ members, Spellable member)
      (several : 2 ≤ members.length) (distinct : members.Nodup)
      (flat : ∀ member ∈ members, ∀ arms, member ≠ .union arms) : Spellable (.union members)
  | literal {values : List Literal} (inner : ∀ value ∈ values, value.Spellable)
      (nonempty : values ≠ []) : Spellable (.literal values)

/-- By induction on the hint: a text made of texts that stand for the parts stands for it. -/
theorem readable_of_spellable {h : Hint} (hplain : h.Spellable) : Readable h.spelling h := by
  induction hplain with
  | named hword hnone hnoneType => exact readable_named hword hnone hnoneType
  | none => exact readable_none (Or.inl rfl)
  | list _ ih => exact readable_list ih
  | tuple _ hnonempty ih =>
    rw [spelling_tuple]
    simpa using readable_tuple ih hnonempty
  | varTuple _ ih => exact readable_varTuple ih
  | union _ hseveral hdistinct hflat ih =>
    rw [spelling_union]
    simpa using readable_union ih hseveral (by simpa using hdistinct) hflat
  | literal inner hnonempty => exact readable_literal hnonempty inner

end Hint

/-- A hint of the shape that reading produces survives being written and read again. -/
theorem Hint.ofSpelling_spelling {h : Hint} (hplain : h.Spellable) :
    Hint.ofSpelling h.spelling = .ok h :=
  (readable_of_spellable hplain).ofSpelling

/-- Literals of every kind, an `or` and an opening bracket among them, inside a tuple that is
an arm of a union. -/
theorem Hint.ofSpelling_spelling_union :
    Spellable (.union [.tuple [.literal [.str "a or [b, ".toList, .int (-9223372036854775808),
        .bool true], .named "pathlib.Path".toList], .varTuple (.list (.named "int".toList)),
      .none]) ∧
    Hint.ofSpelling
        ("Union[tuple[Literal['a or [b, ', -9223372036854775808, True], pathlib.Path], ".toList ++
          "tuple[list[int], ...], None]".toList) =
      .ok (.union [.tuple [.literal [.str "a or [b, ".toList, .int (-9223372036854775808),
        .bool true], .named "pathlib.Path".toList], .varTuple (.list (.named "int".toList)),
        .none]) := by
  have hliteral : Spellable (.literal [.str "a or [b, ".toList, .int (-9223372036854775808),
      .bool true]) := by
    refine .literal ?_ (by decide)
    intro value hvalue
    simp only [List.mem_cons, List.not_mem_nil, or_false] at hvalue
    rcases hvalue with rfl | rfl | rfl
    · exact .str (by decide) (by decide)
    · exact .int (by decide) (by decide)
    · exact .bool true
  have hpath : Spellable (.named "pathlib.Path".toList) :=
    .named (by decide +kernel) (by decide) (by decide)
  have hint : Spellable (.named "int".toList) :=
    .named (by decide +kernel) (by decide) (by decide)
  have hunion : Spellable (.union [.tuple [.literal [.str "a or [b, ".toList,
      .int (-9223372036854775808), .bool true], .named "pathlib.Path".toList],
      .varTuple (.list (.named "int".toList)), .none]) := by
    refine .union ?_ (by decide) (by decide) ?_
    · simp only [List.forall_mem_cons, List.not_mem_nil, false_imp_iff, implies_true, and_true]
      refine ⟨.tuple ?_ (by decide), .varTuple (.list hint), .none⟩
      simpa using ⟨hliteral, hpath⟩
    · simp
  exact ⟨hunion, Hint.ofSpelling_spelling hunion⟩

end CallDoc
