import CallDoc.Type.Hint

/-!
Descriptors: types with every name looked up. A value parser is built from a descriptor
alone. Two descriptors are the same type when they are equal, or when both are unions
with the same members in any order.
-/
namespace CallDoc

inductive Descriptor
  /-- A type of one token, by the name that its definition carries. -/
  | scalar (name : Text)
  /-- Any number of tokens of one type. -/
  | container (elem : Descriptor)
  | fixedTuple (elems : List Descriptor)
  | variadicTuple (elem : Descriptor)
  | union (members : List Descriptor)
  /-- Members looked up by name. -/
  | enumerated (name : Text) (members : List Text)
  /-- A fixed set of values. -/
  | choice (values : List Literal)
  /-- A fixed tuple whose values have names. -/
  | record (name : Text) (fields : List (Text × Descriptor))
  deriving Repr, Inhabited

namespace Descriptor

mutual

private def same : Descriptor → Descriptor → Bool
  | .scalar a, .scalar b => a == b
  | .container a, .container b => same a b
  | .fixedTuple a, .fixedTuple b => sameAll a b
  | .variadicTuple a, .variadicTuple b => same a b
  | .union a, .union b => sameAll a b
  | .enumerated a s, .enumerated b t => a == b && s == t
  | .choice a, .choice b => a == b
  | .record a s, .record b t => a == b && sameFields s t
  | _, _ => false

private def sameAll : List Descriptor → List Descriptor → Bool
  | [], [] => true
  | a :: s, b :: t => same a b && sameAll s t
  | _, _ => false

private def sameFields : List (Text × Descriptor) → List (Text × Descriptor) → Bool
  | [], [] => true
  | (m, a) :: s, (n, b) :: t => m == n && same a b && sameFields s t
  | _, _ => false

end

mutual

private theorem same_iff : ∀ a b : Descriptor, same a b = true ↔ a = b
  | .scalar _, b => by cases b <;> simp [same]
  | .container a, b => by cases b <;> simp [same, same_iff a]
  | .fixedTuple a, b => by cases b <;> simp [same, sameAll_iff a]
  | .variadicTuple a, b => by cases b <;> simp [same, same_iff a]
  | .union a, b => by cases b <;> simp [same, sameAll_iff a]
  | .enumerated _ _, b => by cases b <;> simp [same]
  | .choice _, b => by cases b <;> simp [same]
  | .record _ s, b => by cases b <;> simp [same, sameFields_iff s]

private theorem sameAll_iff : ∀ a b : List Descriptor, sameAll a b = true ↔ a = b
  | [], b => by cases b <;> simp [sameAll]
  | a :: s, b => by cases b <;> simp [sameAll, same_iff a, sameAll_iff s]

private theorem sameFields_iff :
    ∀ a b : List (Text × Descriptor), sameFields a b = true ↔ a = b
  | [], b => by cases b <;> simp [sameFields]
  | (_, a) :: s, b => by
    rcases b with _ | ⟨⟨_, _⟩, _⟩ <;> simp [sameFields, same_iff a, sameFields_iff s]

end

instance : DecidableEq Descriptor := fun a b => decidable_of_iff _ (same_iff a b)

mutual

/-- The name of the type in messages, which is a spelling of it too. -/
def spelling : Descriptor → Text
  | .scalar name => name
  | .container elem => "list[".toList ++ elem.spelling ++ "]".toList
  | .fixedTuple elems => "tuple[".toList ++ commaJoin (spellings elems) ++ "]".toList
  | .variadicTuple elem => "tuple[".toList ++ elem.spelling ++ ", ...]".toList
  | .union members => "Union[".toList ++ commaJoin (spellings members) ++ "]".toList
  | .enumerated name _ => name
  | .choice values => "Literal[".toList ++ commaJoin (values.map Literal.spelling) ++ "]".toList
  | .record name _ => name

def spellings : List Descriptor → List Text
  | [] => []
  | d :: t => d.spelling :: spellings t

end

theorem spellings_eq_map (types : List Descriptor) : spellings types = types.map spelling := by
  induction types with
  | nil => rfl
  | cons d t ih => exact congrArg (d.spelling :: ·) ih

theorem spelling_container (elem : Descriptor) :
    spelling (.container elem) = "list[".toList ++ elem.spelling ++ "]".toList := rfl

theorem spelling_variadicTuple (elem : Descriptor) :
    spelling (.variadicTuple elem) = "tuple[".toList ++ elem.spelling ++ ", ...]".toList := rfl

theorem spelling_fixedTuple (elems : List Descriptor) :
    spelling (.fixedTuple elems) =
      "tuple[".toList ++ commaJoin (elems.map spelling) ++ "]".toList := by
  rw [← spellings_eq_map]
  rfl

theorem spelling_union (members : List Descriptor) :
    spelling (.union members) =
      "Union[".toList ++ commaJoin (members.map spelling) ++ "]".toList := by
  rw [← spellings_eq_map]
  rfl

theorem spelling_choice (values : List Literal) :
    spelling (.choice values) =
      "Literal[".toList ++ commaJoin (values.map Literal.spelling) ++ "]".toList := rfl

/-- The scalar of the absent value. -/
def none : Descriptor := .scalar "NoneType".toList

def isNone (d : Descriptor) : Bool := d == none

/-- The type takes several tokens, or a number of them that is not one. -/
def isContainer : Descriptor → Bool
  | .container _ | .fixedTuple _ | .variadicTuple _ | .record _ _ => true
  | _ => false

/-- The name under which a caller can supply a parser of its own. -/
def identity? : Descriptor → Option Text
  | .scalar name | .enumerated name _ | .record name _ => some name
  | _ => Option.none

/-- Equal, up to the order of the members of a union. -/
def sameAs : Descriptor → Descriptor → Bool
  | .union a, .union b => a.length == b.length && a.all fun member => b.contains member
  | a, b => a == b

end Descriptor
end CallDoc
