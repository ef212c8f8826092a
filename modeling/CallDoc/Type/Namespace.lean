import CallDoc.Type.Hint

/-!
What the names in type spellings refer to. A `Registry` holds definitions under the names
they are found by, which need not be the names they carry themselves; a `Namespace` is
the view of it that the reduction of types needs.
-/
namespace CallDoc

/-- The types with a parser of their own. -/
inductive Builtin
  | str
  | int
  | float
  | bool
  | path
  | slice
  | none
  /-- A list of unknown elements, which nothing can be read as. -/
  | list
  deriving DecidableEq, Repr

namespace Builtin

def name : Builtin → Text
  | .str => "str".toList
  | .int => "int".toList
  | .float => "float".toList
  | .bool => "bool".toList
  | .path => "Path".toList
  | .slice => "slice".toList
  | .none => "NoneType".toList
  | .list => "list".toList

def all : List Builtin := [.str, .int, .float, .bool, .path, .slice, .none, .list]

def ofName? (name : Text) : Option Builtin := all.find? fun b => b.name == name

end Builtin

/-- What a name refers to. -/
inductive TypeDef
  | builtin (type : Builtin)
  | enumeration (name : Text) (members : List Text)
  /-- A tuple with named fields. -/
  | record (name : Text) (fields : List (Text × Hint))
  /-- Any other type, with the type of the argument it is made from when it takes just one. -/
  | classType (name : Text) (argument : Option Hint)
  deriving DecidableEq, Repr

namespace TypeDef

/-- The name that the definition itself carries. -/
def name : TypeDef → Text
  | .builtin type => type.name
  | .enumeration name _ | .record name _ | .classType name _ => name

/-- A value of the type can be made from any text. -/
def fromText : TypeDef → Bool
  | .classType _ (some (.named argument)) => argument == "str".toList
  | _ => false

end TypeDef

structure Namespace where
  find? : Text → Option TypeDef
  /-- A bound on the number of records inside one another, past which a record is taken to
  contain itself. -/
  depth : Nat

/-- Definitions by the names they are found under, the latest first. -/
structure Registry where
  definitions : List (Text × TypeDef)
  deriving Repr

namespace Registry

def find? (registry : Registry) (name : Text) : Option TypeDef :=
  registry.definitions.lookup name

/-- The registry with one more definition, which hides an earlier one of the same name. -/
def register (registry : Registry) (name : Text) (definition : TypeDef) : Registry :=
  ⟨(name, definition) :: registry.definitions⟩

theorem find?_register (registry : Registry) (name key : Text) (definition : TypeDef) :
    (registry.register name definition).find? key =
      if key = name then some definition else registry.find? key := by
  by_cases h : key = name
  · simp [register, find?, h]
  · simp [register, find?, List.lookup_cons, beq_eq_false_iff_ne.2 h, h]

/-- The built-in types under all their names. -/
def standard : Registry :=
  ⟨[("str".toList, .builtin .str), ("int".toList, .builtin .int),
    ("float".toList, .builtin .float), ("bool".toList, .builtin .bool),
    ("slice".toList, .builtin .slice), ("None".toList, .builtin .none),
    ("NoneType".toList, .builtin .none), ("Path".toList, .builtin .path),
    ("pathlib.Path".toList, .builtin .path), ("pathlib.PurePath".toList, .builtin .path),
    ("list".toList, .builtin .list), ("List".toList, .builtin .list),
    ("typing.List".toList, .builtin .list)]⟩

/-- A chain of records longer than the registry has met one of them twice. -/
def namespaceOf (registry : Registry) : Namespace :=
  ⟨registry.find?, registry.definitions.length + 1⟩

end Registry
end CallDoc
