import CallDoc.Doc.Basic
import CallDoc.Doc.Prose
import CallDoc.Error

/-!
The parameters and errors that a block tree declares. The fields in quotes, list items and
admonitions count like those at the top; the fields in the body of a field do not, but
they too must not declare anything twice.
-/
namespace CallDoc

/-- What the fields read so far declare. -/
structure Declarations where
  params : ParamDocs
  raises : List Text
  deriving DecidableEq, Repr

namespace Declarations

def empty : Declarations := ⟨[], []⟩

/-- What is declared of a parameter already. -/
def declared? (d : Declarations) (what : Declared) (name : Text) : Option Text :=
  match what with
  | .text => (d.params.get name).text
  | .type => (d.params.get name).type

/-- The declarations with one more, in the place of an earlier one. -/
def set (d : Declarations) (what : Declared) (name value : Text) : Declarations :=
  let doc := d.params.get name
  let doc := match what with
    | .text => { doc with text := some value }
    | .type => { doc with type := some value }
  { d with params := d.params.insert name doc }

/-- Nothing of the kind is declared of the parameter yet. -/
def requireNew (d : Declarations) (what : Declared) (name : Text) : Except Error Unit :=
  if (d.declared? what name).isSome then .error (.duplicateField what name) else .ok ()

/-- The type in the header of a field, when it has one. -/
def setInline (d : Declarations) (name : Text) : Option Text → Except Error Declarations
  | none => .ok d
  | some type => (d.requireNew .type name).map fun _ => d.set .type name type

/-- The declarations with the text or the type of a parameter, given the type in the field's
header and what its body says, or fails with. -/
def declareParam (d : Declarations) (what : Declared) (name : Text) (type : Option Text)
    (body : Except Error Text) : Except Error Declarations := do
  let d ← d.setInline name type
  d.requireNew what name
  let value ← body
  return d.set what name value

end Declarations

namespace Block

mutual

/-- The declarations with those of a block. -/
def declare (d : Declarations) : Block → Except Error Declarations
  | field _ .param name type body =>
    d.declareParam .text name type ((declareAll .empty body).map fun _ => describe body)
  | field _ .type name type body =>
    d.declareParam .type name type ((declareAll .empty body).map fun _ => describe body)
  | field _ .raises name _ _ => .ok { d with raises := d.raises ++ [name] }
  | field _ (.other _) _ _ _ => .ok d
  | quote _ children => declareAll d children
  | admonition _ _ children => declareAll d children
  | bullets _ bullet items => declareItems d (List.replicate items.length [bullet, ' ']) items
  | enumerated _ sequence bracket start items =>
    declareItems d (sequence.labels bracket start items.length) items
  | paragraph _ _ => .ok d
  | literal _ _ => .ok d
  | doctest _ _ => .ok d
  | rubric _ _ => .ok d
  | comment _ _ => .ok d

def declareAll (d : Declarations) : List Block → Except Error Declarations
  | [] => .ok d
  | block :: more => do
    let d ← declare d block
    declareAll d more

/-- The declarations with those of list items; an item without a label is passed over. -/
def declareItems (d : Declarations) (labels : List Text) :
    List (List Block) → Except Error Declarations
  | [] => .ok d
  | item :: more =>
    match labels with
    | [] => .ok d
    | _ :: labels => do
      let d ← declareAll d item
      declareItems d labels more

end

end Block

/-- The documentation that a block tree holds. -/
def Doc.ofBlocks (blocks : List Block) : Except Error Doc :=
  (Block.declareAll .empty blocks).map fun d =>
    ⟨Block.summarize blocks, Block.describe blocks, d.params, d.raises⟩

end CallDoc
