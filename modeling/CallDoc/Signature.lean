import CallDoc.Cache
import CallDoc.Type.Reduce
import CallDoc.Value.Synthesis

/-!
The description of a callable: its documentation, and for every parameter that a caller can
give, a type and a parser of values. A parameter whose name starts with an underscore is
private; it takes its default and has no description.
-/
namespace CallDoc

/-- A parameter as the callable declares it. -/
structure ParamSpec where
  name : Text
  hint : Option Hint
  hasDefault : Bool
  /-- It takes all positional arguments that are left. -/
  isVariadic : Bool

def ParamSpec.isPrivate (spec : ParamSpec) : Bool := spec.name.head? == some '_'

/-- A parameter with its documentation, its type and its parser. -/
structure Param where
  spec : ParamSpec
  doc : Option Text
  type : Descriptor
  parser : ValueParser

structure Signature where
  summary : Text
  description : Text
  params : List Param
  /-- The names of the errors that a call can raise. -/
  raises : List Text

/-- What is needed to describe a callable. -/
structure Assembler where
  reader : DocReader
  types : Namespace
  overrides : Overrides

namespace Assembler

/-- The description of one parameter. -/
def param (a : Assembler) (doc : Doc) (spec : ParamSpec) : Except Error Param := do
  let documented := doc.params.get spec.name
  let type ← a.types.resolve spec.name documented.type spec.hint
  let parser ← Synthesis.synthesize a.types a.overrides type
  return ⟨spec, documented.text, type, parser⟩

/-- The descriptions of the parameters that are not private. -/
def params (a : Assembler) (doc : Doc) : List ParamSpec → Except Error (List Param)
  | [] => .ok []
  | spec :: more =>
    if spec.isPrivate then
      if spec.hasDefault then a.params doc more else .error (.privateWithoutDefault spec.name)
    else do
      let first ← a.param doc spec
      return first :: (← a.params doc more)

/-- The description of a callable with the given documentation. -/
def describe (a : Assembler) (specs : List ParamSpec) (doc : Doc) : Except Error Signature :=
  (a.params doc specs).map fun params => ⟨doc.summary, doc.description, params, doc.raises⟩

/-- The description of a callable. -/
def signature (a : Assembler) (doc? : Option Text) (specs : List ParamSpec) :
    Except Error Signature := do
  a.describe specs (← a.reader.read doc?)

/-- As `signature`, with a memory of the documentation read before. -/
def cachedSignature (a : Assembler) (cache : DocCache) (doc? : Option Text)
    (specs : List ParamSpec) : Except Error Signature × DocCache :=
  match doc? with
  | none => (a.signature none specs, cache)
  | some t =>
    let read := cache.read a.reader t
    (read.1.bind (a.describe specs), read.2)

end Assembler
end CallDoc
