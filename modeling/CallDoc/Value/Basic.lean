import CallDoc.Json
import CallDoc.Type.Hint

/-!
Values that parsers of command-line tokens produce, and their JSON text.
-/
namespace CallDoc

/-- A bound of a slice. -/
inductive Bound
  | int (n : Int)
  | str (t : Text)
  deriving DecidableEq, Repr

/-- A range of indices, `start:stop:step`, each part optional. -/
structure Slice where
  start : Option Bound
  stop : Option Bound
  step : Option Bound
  deriving DecidableEq, Repr

inductive Value
  | none
  | str (t : Text)
  | int (n : Int)
  | float (x : Float)
  | bool (b : Bool)
  | path (t : Text)
  | slice (s : Slice)
  /-- A member of an enumerated type. -/
  | enumMember (typeName member : Text)
  /-- An object made by handing a token to the constructor of its type. -/
  | object (typeName argument : Text)
  | tuple (values : List Value)
  | list (values : List Value)
  | record (typeName : Text) (fields : List (Text × Value))
  deriving Repr

namespace Bound

def spelling : Bound → Text
  | .int n => Text.ofInt n
  | .str t => '\x27' :: t ++ ['\x27']

def json : Bound → Text
  | .int n => Text.ofInt n
  | .str t => Json.string t

end Bound

namespace Slice

def part (b? : Option Bound) : Text := (b?.map Bound.spelling).getD "None".toList

def spelling (s : Slice) : Text :=
  "slice(".toList ++ commaJoin [part s.start, part s.stop, part s.step] ++ ")".toList

def jsonPart (b? : Option Bound) : Text := (b?.map Bound.json).getD Json.null

def json (s : Slice) : Text :=
  Json.object [("start".toList, jsonPart s.start), ("stop".toList, jsonPart s.stop),
    ("step".toList, jsonPart s.step)]

end Slice

namespace Value

/-- The value that a literal stands for. -/
def ofLiteral : Literal → Value
  | .str t => .str t
  | .int n => .int n
  | .bool b => .bool b

/-- The value is the one that the literal stands for. -/
def isLiteral : Value → Literal → Bool
  | .str s, .str t => s == t
  | .int m, .int n => m == n
  | .bool a, .bool b => a == b
  | _, _ => false

mutual

/-- The JSON text of a value. A member, an object and a record carry the name of their
type; tuples and lists are both arrays. -/
def json : Value → Text
  | .none => Json.null
  | .str t => Json.string t
  | .int n => Text.ofInt n
  | .float x => Json.float x
  | .bool b => Json.bool b
  | .path t => Json.string t
  | .slice s => s.json
  | .enumMember typeName member =>
    Json.object [("type".toList, Json.string typeName), ("member".toList, Json.string member)]
  | .object typeName argument =>
    Json.object [("type".toList, Json.string typeName), ("arg".toList, Json.string argument)]
  | .tuple values => Json.array (jsonAll values)
  | .list values => Json.array (jsonAll values)
  | .record typeName fields =>
    Json.object [("type".toList, Json.string typeName),
      ("fields".toList, Json.array (jsonFields fields))]

def jsonAll : List Value → List Text
  | [] => []
  | v :: more => v.json :: jsonAll more

def jsonFields : List (Text × Value) → List Text
  | [] => []
  | (name, v) :: more => Json.array [Json.string name, v.json] :: jsonFields more

end

end Value
end CallDoc
