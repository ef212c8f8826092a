import CallDoc.Error
import CallDoc.Value.Basic

/-!
Value parsers. A parser reads all tokens given for one parameter at once; reading a single
token is reading the list of that token.
-/
namespace CallDoc

/-- A conversion of one token, which may be refused. -/
abbrev Converter := Text → Option Value

/-- How many tokens a parser takes. -/
inductive Arity
  | one
  | exactly (n : Nat)
  | any
  deriving DecidableEq, Repr

/-- A parser, with the name of its type for messages. -/
inductive ValueParser
  /-- One token; `total` when every token is accepted. -/
  | scalar (name : Text) (convert : Converter) (total : Bool)
  | enumerated (name : Text) (members : List Text)
  /-- One of several literals, each with the conversion of its own type. -/
  | choice (name : Text) (options : List (Literal × Converter))
  | union (name : Text) (members : List ValueParser)
  | tuple (name : Text) (elems : List ValueParser)
  | record (name : Text) (fields : List Text) (elems : List ValueParser)
  | variadic (name : Text) (elem : ValueParser)
  | container (name : Text) (elem : ValueParser)

namespace ValueParser

def name : ValueParser → Text
  | scalar name _ _ | enumerated name _ | choice name _ | union name _ | tuple name _
  | record name _ _ | variadic name _ | container name _ => name

def arity : ValueParser → Arity
  | tuple _ elems | record _ _ elems => .exactly elems.length
  | variadic _ _ | container _ _ => .any
  | _ => .one

/-- Every token is accepted, so that no parser after this one is ever asked. -/
def isTotal : ValueParser → Bool
  | scalar _ _ total => total
  | _ => false

/-- The value of the first literal that the token reads as. -/
def firstLiteral? (options : List (Literal × Converter)) (token : Text) : Option Literal :=
  (options.find? fun (literal, convert) =>
    (convert token).any fun value => value.isLiteral literal).map Prod.fst

/-- The result of a parser of one token on a list of tokens. -/
def single (name : Text) (read : Text → Except ValueError Value) :
    List Text → Except ValueError Value
  | [token] => read token
  | tokens => .error (.arity name 1 tokens.length)

mutual

def parse : ValueParser → List Text → Except ValueError Value
  | scalar name convert _, tokens =>
    single name (fun token =>
      match convert token with
      | some value => .ok value
      | none => .error (.invalid name token)) tokens
  | enumerated name members, tokens =>
    single name (fun token =>
      if members.contains token then .ok (.enumMember name token)
      else .error (.choice token members)) tokens
  | choice name options, tokens =>
    single name (fun token =>
      match firstLiteral? options token with
      | some literal => .ok (.ofLiteral literal)
      | none => .error (.choice token (options.map fun option => option.1.choice))) tokens
  | union name members, tokens =>
    single name (fun token =>
      match firstAccepted? members token with
      | some value => .ok value
      | none => .error (.invalid name token)) tokens
  | tuple name elems, tokens =>
    if tokens.length = elems.length then (parseEach elems tokens).map .tuple
    else .error (.arity name elems.length tokens.length)
  | record name fields elems, tokens =>
    if tokens.length = elems.length then
      (parseEach elems tokens).map fun values => .record name (fields.zip values)
    else .error (.arity name elems.length tokens.length)
  | variadic _ elem, tokens => (tokens.mapM fun token => parse elem [token]).map .tuple
  | container _ elem, tokens => (tokens.mapM fun token => parse elem [token]).map .list

/-- The value of the first parser that accepts the token. -/
def firstAccepted? : List ValueParser → Text → Option Value
  | [], _ => none
  | p :: more, token =>
    match parse p [token] with
    | .ok value => some value
    | .error _ => firstAccepted? more token

/-- Each token read by the parser in its place. -/
def parseEach : List ValueParser → List Text → Except ValueError (List Value)
  | p :: more, token :: tokens => do
    let value ← parse p [token]
    return value :: (← parseEach more tokens)
  | _, _ => .ok []

end

end ValueParser
end CallDoc
