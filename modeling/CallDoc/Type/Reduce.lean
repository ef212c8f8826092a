import CallDoc.Error
import CallDoc.Type.Descriptor
import CallDoc.Type.Namespace
import CallDoc.Type.Spelling

/-!
From hints to descriptors. Names are looked up, containers hold neither containers nor
records, a union with one arm besides the absent value is that arm, and no other union
has a container or record among its arms. `resolve` settles the type of a parameter from
its documentation and its signature.
-/
namespace CallDoc

namespace Hint

/-- The reduced type, as an element of `outer`. -/
def asElement (outer : Hint) (type : Descriptor) : Except Error Descriptor :=
  if type.isContainer then .error (.nestedContainer outer) else .ok type

/-- The type that a union of the given arms reduces to; `whole` is the union itself. -/
def joinArms (whole : Hint) (arms : List Descriptor) : Except Error Descriptor :=
  let distinct := arms.eraseDups
  match distinct.filter fun arm => !arm.isNone with
  | [single] => .ok single
  | _ =>
    if distinct.any Descriptor.isContainer then .error (.containerInUnion whole)
    else match distinct with
      | [single] => .ok single
      | _ => .ok (.union distinct)

mutual

/-- The descriptor of a hint, where `lookup` gives the descriptors of names. -/
def reduceWith (lookup : Text → Except Error Descriptor) : Hint → Except Error Descriptor
  | .named name => lookup name
  | .none => .ok .none
  | .list elem => do
    let type ← reduceWith lookup elem
    return .container (← asElement (.list elem) type)
  | .tuple elems => do
    return .fixedTuple (← reduceElements lookup (.tuple elems) elems)
  | .varTuple elem => do
    let type ← reduceWith lookup elem
    return .variadicTuple (← asElement (.varTuple elem) type)
  | .union arms => do
    joinArms (.union arms) (← reduceAll lookup arms)
  | .literal values => .ok (.choice values)

def reduceElements (lookup : Text → Except Error Descriptor) (outer : Hint) :
    List Hint → Except Error (List Descriptor)
  | [] => .ok []
  | elem :: more => do
    let type ← reduceWith lookup elem
    let type ← asElement outer type
    return type :: (← reduceElements lookup outer more)

def reduceAll (lookup : Text → Except Error Descriptor) :
    List Hint → Except Error (List Descriptor)
  | [] => .ok []
  | arm :: more => do
    let type ← reduceWith lookup arm
    return type :: (← reduceAll lookup more)

end

/-- The type of an element of `outer`. -/
def reduceElement (lookup : Text → Except Error Descriptor) (outer elem : Hint) :
    Except Error Descriptor := do
  asElement outer (← elem.reduceWith lookup)

theorem reduceElements_eq (lookup : Text → Except Error Descriptor) (outer : Hint)
    (elems : List Hint) :
    reduceElements lookup outer elems = elems.mapM (reduceElement lookup outer) := by
  induction elems with
  | nil => rfl
  | cons elem more ih =>
    rw [List.mapM_cons, reduceElements, ih, reduceElement]
    cases elem.reduceWith lookup <;> rfl

theorem reduceAll_eq (lookup : Text → Except Error Descriptor) (arms : List Hint) :
    reduceAll lookup arms = arms.mapM (reduceWith lookup) := by
  induction arms with
  | nil => rfl
  | cons arm more ih => rw [List.mapM_cons, reduceAll, ih]

end Hint

namespace Namespace

/-- The fields of a record, each an element of its own. -/
def reduceFields (lookup : Text → Except Error Descriptor) :
    List (Text × Hint) → Except Error (List (Text × Descriptor))
  | [] => .ok []
  | (field, hint) :: more => do
    let type ← hint.reduceWith lookup
    let type ← hint.asElement type
    return (field, type) :: (← reduceFields lookup more)

/-- The name of a field of a record, with its type as an element. -/
def reduceField (lookup : Text → Except Error Descriptor) (field : Text × Hint) :
    Except Error (Text × Descriptor) := do
  return (field.1, ← field.2.reduceElement lookup field.2)

theorem reduceFields_eq (lookup : Text → Except Error Descriptor) (fields : List (Text × Hint)) :
    reduceFields lookup fields = fields.mapM (reduceField lookup) := by
  induction fields with
  | nil => rfl
  | cons field more ih =>
    simp only [List.mapM_cons, reduceFields, ih, reduceField, Hint.reduceElement, bind_assoc,
      pure_bind]

/-- The descriptor of a name when at most `depth` names lie inside one another. -/
def reduceName (find? : Text → Option TypeDef) : (depth : Nat) → Text → Except Error Descriptor
  | 0, name => .error (.endlessRecord name)
  | depth + 1, name =>
    match find? name with
    | none => .error (.unresolvedName name)
    | some (.builtin .list) => .error .bareList
    | some (.builtin type) => .ok (.scalar type.name)
    | some (.enumeration own members) => .ok (.enumerated own members)
    | some (.record own fields) => do
      return .record own (← reduceFields (reduceName find? depth) fields)
    | some (.classType own _) => .ok (.scalar own)

/-- The descriptor of a hint. -/
def reduce (ns : Namespace) (hint : Hint) : Except Error Descriptor :=
  hint.reduceWith (reduceName ns.find? ns.depth)

/-- The type that a spelling in the documentation denotes. -/
def reduceSpelling (ns : Namespace) (spelling : Text) : Except Error Descriptor := do
  ns.reduce (← Hint.ofSpelling spelling)

/-- The type of a parameter. Where both the documentation and the signature declare it they
must declare the same type, and the members of a union stay in the signature's order. -/
def resolve (ns : Namespace) (param : Text) (spelling? : Option Text) (hint? : Option Hint) :
    Except Error Descriptor :=
  match spelling?, hint? with
  | none, none => .error (.missingType param)
  | some spelling, none => ns.reduceSpelling spelling
  | none, some hint => ns.reduce hint
  | some spelling, some hint => do
    let documented ← ns.reduceSpelling spelling
    let declared ← ns.reduce hint
    if documented.sameAs declared then return declared
    else throw (.typeConflict param spelling hint)

end Namespace
end CallDoc
