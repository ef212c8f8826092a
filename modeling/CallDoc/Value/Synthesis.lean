import CallDoc.Type.Descriptor
import CallDoc.Type.Namespace
import CallDoc.Value.Parser
import CallDoc.Value.Scalar

/-!
The parser of a type. A parser that the caller supplies under the name of a type comes
before everything else; then the built-in types have parsers of their own, and a class
made from a text has one through its constructor.

In a union the absent value is asked first, and nothing is built for the members after one
that accepts every token: they would never be asked, and need not even have a parser.
-/
namespace CallDoc

/-- Conversions supplied by the caller, by the names of types, the latest first. -/
structure Overrides where
  converters : List (Text × Converter)

namespace Overrides

def empty : Overrides := ⟨[]⟩

def insert (overrides : Overrides) (typeName : Text) (convert : Converter) : Overrides :=
  ⟨(typeName, convert) :: overrides.converters⟩

def find? (overrides : Overrides) (typeName : Text) : Option Converter :=
  overrides.converters.lookup typeName

theorem find?_insert (overrides : Overrides) (name key : Text) (convert : Converter) :
    (overrides.insert name convert).find? key =
      if key = name then some convert else overrides.find? key := by
  by_cases h : key = name
  · simp [insert, find?, h]
  · simp [insert, find?, List.lookup_cons, beq_eq_false_iff_ne.2 h, h]

end Overrides

/-- The conversion of a built-in type, and whether it accepts every token. -/
def Builtin.converter? : Builtin → Option (Converter × Bool)
  | .str => some (fun token => some (.str token), true)
  | .path => some (fun token => some (.path token), true)
  | .int => some (fun token => (Scalar.int? token).map .int, false)
  | .float => some (fun token => (Scalar.float? token).map .float, false)
  | .bool => some (fun token => (Scalar.bool? token).map .bool, false)
  | .slice => some (fun token => (Scalar.slice? token).map .slice, false)
  | .none => some (fun _ => Option.none, false)
  | .list => Option.none

/-- The type whose tokens a literal is one of. -/
def Literal.builtin : Literal → Builtin
  | .str _ => .str
  | .int _ => .int
  | .bool _ => .bool

namespace Synthesis

/-- The conversion that a literal is compared through. -/
def literalConverter (overrides : Overrides) (literal : Literal) : Converter :=
  (overrides.find? literal.typeName).getD
    ((literal.builtin.converter?.map Prod.fst).getD fun _ => none)

/-- The parser of a scalar without a conversion supplied by the caller. -/
def scalar (ns : Namespace) (name : Text) : Except Error ValueParser :=
  match Builtin.ofName? name with
  | some builtin =>
    match builtin.converter? with
    | some (convert, total) => .ok (.scalar name convert total)
    | none => .error .bareList
  | none =>
    match ns.find? name with
    | some definition =>
      if definition.fromText then
        .ok (.scalar name (fun token => some (.object definition.name token)) false)
      else .error (.noParser name)
    | none => .error (.noParser name)

/-- The parsers up to the first that accepts every token. -/
def untilTotal : List (Except Error ValueParser) → Except Error (List ValueParser)
  | [] => .ok []
  | .error e :: _ => .error e
  | .ok p :: more => if p.isTotal then .ok [p] else (untilTotal more).map (p :: ·)

/-- The parsers of the members of a union in the order they are asked. -/
def askingOrder (attempts : List (Descriptor × Except Error ValueParser)) :
    List (Except Error ValueParser) :=
  (attempts.filter (fun attempt => attempt.1.isNone) ++
    attempts.filter fun attempt => !attempt.1.isNone).map Prod.snd

/-- All the parsers, or the first error. -/
def sequence (attempts : List (Descriptor × Except Error ValueParser)) :
    Except Error (List ValueParser) :=
  attempts.mapM Prod.snd

mutual

/-- The parser of a type. -/
def synthesize (ns : Namespace) (overrides : Overrides) : Descriptor → Except Error ValueParser
  | .scalar name =>
    match overrides.find? name with
    | some convert => .ok (.scalar name convert false)
    | none => scalar ns name
  | .enumerated name members =>
    match overrides.find? name with
    | some convert => .ok (.scalar name convert false)
    | none => .ok (.enumerated name members)
  | .record name fields =>
    match overrides.find? name with
    | some convert => .ok (.scalar name convert false)
    | none => (sequence (attemptFields ns overrides fields)).map
        (.record name (fields.map Prod.fst))
  | .choice values =>
    .ok (.choice (Descriptor.choice values).spelling
      (values.map fun literal => (literal, literalConverter overrides literal)))
  | .union members =>
    (untilTotal (askingOrder (attemptAll ns overrides members))).map
      (.union (Descriptor.union members).spelling)
  | .fixedTuple elems =>
    (sequence (attemptAll ns overrides elems)).map (.tuple (Descriptor.fixedTuple elems).spelling)
  | .variadicTuple elem =>
    (synthesize ns overrides elem).map (.variadic (Descriptor.variadicTuple elem).spelling)
  | .container elem =>
    (synthesize ns overrides elem).map (.container (Descriptor.container elem).spelling)

def attemptAll (ns : Namespace) (overrides : Overrides) :
    List Descriptor → List (Descriptor × Except Error ValueParser)
  | [] => []
  | d :: more => (d, synthesize ns overrides d) :: attemptAll ns overrides more

def attemptFields (ns : Namespace) (overrides : Overrides) :
    List (Text × Descriptor) → List (Descriptor × Except Error ValueParser)
  | [] => []
  | (_, d) :: more => (d, synthesize ns overrides d) :: attemptFields ns overrides more

end

end Synthesis
end CallDoc
