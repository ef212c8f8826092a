import CallDoc.Text.Basic
import Std.Data.TreeSet

/-!
Type hints: the structure of a type as its spelling shows it, before any name in it is
looked up. `Hint.spelling` writes a hint, and `Hint.union` builds the unions that the
grammar of spellings produces: flat, without repeats, never of one member.
-/
namespace CallDoc

/-- A value that a `Literal[...]` type allows. -/
inductive Literal
  | str (value : Text)
  | int (value : Int)
  | bool (value : Bool)
  deriving DecidableEq, Repr

namespace Literal

/-- The scalar type whose values the literal is one of. -/
def typeName : Literal → Text
  | .str _ => "str".toList
  | .int _ => "int".toList
  | .bool _ => "bool".toList

/-- The literal as a user types it on a command line. -/
def choice : Literal → Text
  | .str value => value
  | .int value => Text.ofInt value
  | .bool true => "true".toList
  | .bool false => "false".toList

/-- The literal as a type spelling writes it. -/
def spelling : Literal → Text
  | .str value => '\x27' :: value ++ ['\x27']
  | .int value => Text.ofInt value
  | .bool true => "True".toList
  | .bool false => "False".toList

end Literal

/-- The structure of a type. -/
inductive Hint
  /-- A dotted name such as `int` or `pathlib.Path`. -/
  | named (name : Text)
  /-- The type of the absent value. -/
  | none
  /-- A list, `list[T]`, or another generic that stands for any number of values. -/
  | list (elem : Hint)
  /-- A tuple of fixed length, `tuple[A, B]`. -/
  | tuple (elems : List Hint)
  /-- A tuple of any length, `tuple[T, ...]`. -/
  | varTuple (elem : Hint)
  | union (members : List Hint)
  | literal (values : List Literal)
  deriving Repr, Inhabited

/-- Pieces between brackets, with a comma and a space between neighbours. -/
def commaJoin (pieces : List Text) : Text := Text.joinWith ", ".toList pieces

namespace Hint

mutual

private def same : Hint → Hint → Bool
  | .named a, .named b => a == b
  | .none, .none => true
  | .list a, .list b => same a b
  | .tuple a, .tuple b => sameAll a b
  | .varTuple a, .varTuple b => same a b
  | .union a, .union b => sameAll a b
  | .literal a, .literal b => a == b
  | _, _ => false

private def sameAll : List Hint → List Hint → Bool
  | [], [] => true
  | a :: s, b :: t => same a b && sameAll s t
  | _, _ => false

end

mutual

private theorem same_iff : ∀ a b : Hint, same a b = true ↔ a = b
  | .named _, b => by cases b <;> simp [same]
  | .none, b => by cases b <;> simp [same]
  | .list a, b => by cases b <;> simp [same, same_iff a]
  | .tuple a, b => by cases b <;> simp [same, sameAll_iff a]
  | .varTuple a, b => by cases b <;> simp [same, same_iff a]
  | .union a, b => by cases b <;> simp [same, sameAll_iff a]
  | .literal _, b => by cases b <;> simp [same]

private theorem sameAll_iff : ∀ a b : List Hint, sameAll a b = true ↔ a = b
  | [], b => by cases b <;> simp [sameAll]
  | a :: s, b => by cases b <;> simp [sameAll, same_iff a, sameAll_iff s]

end

instance : DecidableEq Hint := fun a b => decidable_of_iff _ (same_iff a b)

mutual

/-- The hint as text. A union is written with its own bracket, whatever spelled it. -/
def spelling : Hint → Text
  | .named name => name
  | .none => "None".toList
  | .list elem => "list[".toList ++ elem.spelling ++ "]".toList
  | .tuple elems => "tuple[".toList ++ commaJoin (spellings elems) ++ "]".toList
  | .varTuple elem => "tuple[".toList ++ elem.spelling ++ ", ...]".toList
  | .union members => "Union[".toList ++ commaJoin (spellings members) ++ "]".toList
  | .literal values => "Literal[".toList ++ commaJoin (values.map Literal.spelling) ++ "]".toList

def spellings : List Hint → List Text
  | [] => []
  | h :: t => h.spelling :: spellings t

end

theorem spellings_eq_map (hints : List Hint) : spellings hints = hints.map spelling := by
  induction hints with
  | nil => rfl
  | cons h t ih => exact congrArg (h.spelling :: ·) ih

theorem spelling_tuple (elems : List Hint) :
    spelling (.tuple elems) = "tuple[".toList ++ commaJoin (elems.map spelling) ++ "]".toList := by
  rw [← spellings_eq_map]
  rfl

theorem spelling_union (members : List Hint) :
    spelling (.union members) =
      "Union[".toList ++ commaJoin (members.map spelling) ++ "]".toList := by
  rw [← spellings_eq_map]
  rfl

/-- The arms of a union, or the hint alone. -/
def arms : Hint → List Hint
  | .union members => members
  | h => [h]

/-- The hints met so far. Names, of which there can be many, are found by their order. -/
structure Seen where
  names : Std.TreeSet Text
  others : List Hint

namespace Seen

def empty : Seen := ⟨∅, []⟩

def contains (seen : Seen) : Hint → Bool
  | .named name => seen.names.contains name
  | hint => seen.others.contains hint

def insert (seen : Seen) : Hint → Seen
  | .named name => { seen with names := seen.names.insert name }
  | hint => { seen with others := hint :: seen.others }

theorem contains_empty (h : Hint) : empty.contains h = false := by
  cases h <;> simp [empty, contains]

theorem contains_insert (seen : Seen) (a h : Hint) :
    (seen.insert a).contains h = (h == a || seen.contains h) := by
  rw [Bool.eq_iff_iff, Bool.or_eq_true, beq_iff_eq]
  cases a with
  | named a =>
    cases h with
    | named h => simp [insert, contains, eq_comm (a := h)]
    | _ => simp [insert, contains]
  | _ => cases h <;> simp [insert, contains]

/-- The hints that are not among those met before, each of them once. -/
def unseen (seen : Seen) : List Hint → List Hint
  | [] => []
  | h :: t => if seen.contains h then unseen seen t else h :: unseen (seen.insert h) t

theorem unseen_eq (seen : Seen) (hints : List Hint) :
    seen.unseen hints = (hints.filter fun h => !seen.contains h).eraseDups := by
  induction hints generalizing seen with
  | nil => rfl
  | cons h t ih =>
    cases hseen : seen.contains h with
    | true => simp [unseen, hseen, ih]
    | false => simp [unseen, hseen, ih, List.eraseDups_cons, List.filter_filter, contains_insert]

end Seen

/-- The hints without those that equal an earlier one. -/
def distinct (hints : List Hint) : List Hint := Seen.empty.unseen hints

theorem distinct_eq_eraseDups (hints : List Hint) : distinct hints = hints.eraseDups := by
  rw [distinct, Seen.unseen_eq, List.filter_eq_self.2 fun h _ => by simp [Seen.contains_empty]]

/-- The union of the given hints. Unions among them are flattened by one level, only the
first of equal arms is kept, and a single remaining arm stands for itself. -/
def unionOf (hints : List Hint) : Hint :=
  match distinct (hints.flatMap arms) with
  | [single] => single
  | arms => .union arms

/-- The hint `Optional[T]`. -/
def optional (inner : Hint) : Hint := unionOf [inner, .none]

end Hint
end CallDoc
